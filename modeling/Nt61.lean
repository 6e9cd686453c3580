import Nt61.Servers.Sshd.Guarantees
import Nt61.Fs.Fat32.WriteFile
import Nt61.Fs.Fat32.Rename
import Nt61.Ke.Scheduler.Location
import Nt61.Ke.Scheduler.Affinity
import Nt61.Ke.Scheduler.Priority
import Nt61.Ke.Scheduler.TicketLock
import Nt61.Ke.Dispatch.Wakeup
import Nt61.Ke.Dpc
import Nt61.Lpc.Ports
import Nt61.Servers.Sshd.Transport
import Nt61.Servers.Sshd.X25519
import Nt61.Crypto.RsaEncryption
import Nt61.Crypto.RsaPss
import Nt61.Crypto.NumberTheory
import Nt61.Crypto.AesRoundTrip
import Nt61.Crypto.GcmTag
import Nt61.Io.Pipe
import Nt61.Io.Iocp
import Nt61.Ob.Lifetime
import Nt61.Se.Access
import Nt61.Mm.Pagefile
import Nt61.Fs.Ntfs.ReadRuns
import Nt61.Fs.Ntfs.LogFile
import Nt61.Fs.Ntfs.Fixup
import Nt61.Fs.Locking
import Nt61.Fs.Ext2.Dir
import Nt61.Mm.Buddy.Free
import Nt61.Mm.Buddy.Init
import Nt61.Mm.PageCache.Runs
import Nt61.Registry.FlushManager
import Nt61.Registry.HiveWriter.RoundTrip
import Nt61.Registry.Transactions
import Nt61.Registry.CellAllocator
import Nt61.Mm.Pool
import Nt61.Mm.VadSearch
import Nt61.Mm.Pfn.Runs
import Nt61.Netstack.Routing
import Nt61.Netstack.NatTable
import Nt61.Netstack.Dns
import Nt61.Netstack.Fragmentation
import Nt61.Netstack.Ipv4
