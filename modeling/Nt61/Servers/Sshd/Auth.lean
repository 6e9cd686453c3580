/-
Auth — the verifiers of `sshd/auth.rs`, the login policy of `sshd/config.rs` and `sshd/launcher.rs`,
and the command hooks of `sshd/child.rs`.

The installed accounts, authorized keys, configuration, host key and command executor make up the
`Host` a session runs on.
-/
import Nt61.Servers.Sshd.Kex

namespace Nt61.Sshd

open Lib Nt61.Crypto

/-! ## Configuration and installed state -/

inductive PermitRoot where
  | yes
  | no
  | withoutPassword
  | prohibitPassword
  | forcedCommandsOnly
  deriving DecidableEq

/-- The fields of `SshdConfig` that the session reads. -/
structure SshdConfig where
  permitRootLogin : PermitRoot
  pubkeyAuthentication : Bool
  passwordAuthentication : Bool
  maxAuthTries : UInt32
  deriving DecidableEq

structure UserAccount where
  name : Bytes
  passwordSha256 : Option (Vector UInt8 32)
  deriving DecidableEq

structure CommandExecution where
  exitCode : UInt32
  output : Bytes
  deriving DecidableEq

/-- What is installed on the machine while a session runs. -/
structure Host where
  crypto : Crypto
  config : SshdConfig
  accounts : List UserAccount
  authorizedKeys : List (Bytes × RsaPublicKey)
  hostKey : RsaPrivateKey
  commandExecutor : Option (Bytes → CommandExecution)

/-! ## Login policy and verifiers -/

def toAsciiLowercase (b : UInt8) : UInt8 := if 0x41 ≤ b.toNat ∧ b.toNat ≤ 0x5A then b + 0x20 else b

def eqIgnoreAsciiCase (a b : Bytes) : Bool := a.map toAsciiLowercase == b.map toAsciiLowercase

def configAllowsPubkey (config : SshdConfig) (user : Bytes) : Bool :=
  if !config.pubkeyAuthentication then false
  else if eqIgnoreAsciiCase user (ascii "root")
      || eqIgnoreAsciiCase user (ascii "administrator") then
    match config.permitRootLogin with
    | .yes | .withoutPassword | .prohibitPassword => true
    | .no | .forcedCommandsOnly => false
  else true

/-- Compare a password with the account's hash; unknown users and accounts without a hash fail. -/
def verifyPassword (host : Host) (user password : Bytes) : Bool :=
  match host.accounts.find? fun account => account.name == user with
  | some account =>
    match account.passwordSha256 with
    | none => false
    | some hash => host.crypto.sha256 password == hash
  | none => false

def rsaKeysEqual (a b : RsaPublicKey) : Bool :=
  a.n.toBytes == b.n.toBytes && a.e.toBytes == b.e.toBytes

/-- Check an authorized key's signature over `dataToSign`. -/
def verifyPublicKey (host : Host) (user signatureAlgorithm keyBlob signature dataToSign : Bytes) :
    Bool :=
  if ¬ (signatureAlgorithm = ascii ALG_HOSTKEY_RSA_SHA2_256
      ∨ signatureAlgorithm = ascii ALG_HOSTKEY_SSH_RSA) then false
  else
    match parseRsaPublicKeyBlob keyBlob with
    | none => false
    | some key =>
      if !host.authorizedKeys.any (fun (owner, stored) =>
          owner == user && rsaKeysEqual stored key) then false
      else
        match (WireReader.new signature).getString with
        | none => false
        | some (algorithm, r) =>
          match r.getString with
          | none => false
          | some (rsaSignature, _) =>
            if algorithm ≠ signatureAlgorithm then false
            else if signatureAlgorithm = ascii ALG_HOSTKEY_RSA_SHA2_256 then
              host.crypto.verifyPkcs1v15 key (host.crypto.sha256 dataToSign).toList rsaSignature
            else
              host.crypto.verifyPkcs1v15 key (host.crypto.sha1 dataToSign).toList rsaSignature

def publickeyDataToSign (sessionId requestWithoutSignature : Bytes) : Bytes :=
  ((WireWriter.new.putString sessionId).putBytes requestWithoutSignature).intoVec

/-! ## Children -/

inductive ChildRequestKind where
  | exec
  | shell
  | subsystem
  deriving DecidableEq

/-- The process id, the exit code and the pipe handles are zero, and nothing in the session reads
them. -/
structure ChildRecord where
  pid : UInt32
  exitCode : UInt32
  finished : Bool
  kind : ChildRequestKind
  deriving DecidableEq

def childRecord (kind : ChildRequestKind) : ChildRecord := ⟨0, 0, false, kind⟩

def CHILD_TABLE_LIMIT : Nat := 64

/-- Append a record unless the table is full; the slot index is returned. -/
def registerChild (table : List ChildRecord) (record : ChildRecord) :
    Option Nat × List ChildRecord :=
  if table.length ≥ CHILD_TABLE_LIMIT then (none, table)
  else (some table.length, table ++ [record])

def executeLine (host : Host) (line : Bytes) : Option CommandExecution :=
  host.commandExecutor.map fun run => run line

end Nt61.Sshd
