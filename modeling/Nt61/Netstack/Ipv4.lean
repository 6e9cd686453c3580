/-
Ipv4 — checksums and headers, `netstack/ipv4.rs` and `netstack/tcp.rs`.

The sums are right for an even number of bytes: an odd last byte is added as the low byte of a word,
where RFC 1071 has it as the high one.
-/
import Nt61.Lib.Checked
import Nt61.Lib.Fields
import Nt61.Lib.OnesComplement

namespace Nt61.Ipv4

open Lib List

/-! ## Checksums -/

/-- Add the chunks of two bytes to a `u32`. -/
def addChunks (sum : Nat) : Bytes → Option Nat
  | a :: b :: d => (Checked.add 32 sum (word a b)).bind (addChunks · d)
  | [a] => Checked.add 32 sum a.toNat
  | [] => some sum

def addCarries (sum : Nat) : Nat :=
  if 0xFFFF < sum then addCarries (sum % 2 ^ 16 + sum / 2 ^ 16) else sum

def calculateChecksum (data : Bytes) : Option Nat := (addChunks 0 data).map (0xFFFF - addCarries ·)

def pseudoHeader (srcIp dstIp : UInt32) (length : Nat) : Bytes :=
  beBytes 4 srcIp.toNat ++ beBytes 4 dstIp.toNat ++ [0, 6] ++ beBytes 2 length

def calculateTcpChecksum (srcIp dstIp : UInt32) (tcpData : Bytes) : Option Nat := do
  let sum ← addChunks 0 (pseudoHeader srcIp dstIp tcpData.length)
  let sum ← addChunks sum tcpData
  some (0xFFFF - addCarries sum)

structure TcpControlBlock where
  localIp : UInt32
  localPort : UInt16
  remoteIp : UInt32
  remotePort : UInt16
  rcvWnd : UInt16

/-- A segment; the checksum is the word before the urgent pointer. -/
def tcpPacket (tcb : TcpControlBlock) (flags : UInt8) (seq ack : UInt32) (data : Bytes)
    (checksum : Nat) : Bytes :=
  beBytes 2 tcb.localPort.toNat ++ beBytes 2 tcb.remotePort.toNat ++ beBytes 4 seq.toNat
    ++ beBytes 4 ack.toNat ++ beBytes 2 (5 <<< 12 ||| flags.toNat) ++ beBytes 2 tcb.rcvWnd.toNat
    ++ (beBytes 2 checksum ++ 0 :: 0 :: data)

/-- The packet that `send_segment` hands to `send_ipv4`. -/
def sendSegment (tcb : TcpControlBlock) (flags : UInt8) (seq ack : UInt32) (data : Bytes) :
    Option Bytes :=
  (calculateTcpChecksum tcb.localIp tcb.remoteIp (tcpPacket tcb flags seq ack data 0)).map
    (tcpPacket tcb flags seq ack data)

lemma addCarries_eq (sum : Nat) : addCarries sum = wrap16 sum := by
  fun_induction addCarries sum with
  | case1 sum h ih =>
    rw [ih]
    unfold wrap16
    split <;> split <;> omega
  | case2 sum h =>
    unfold wrap16
    split <;> omega

/-- The last byte, if the number of bytes is odd. -/
def oddByte : Bytes → Nat
  | _ :: _ :: d => oddByte d
  | [a] => a.toNat
  | [] => 0

lemma oddByte_le (d : Bytes) : oddByte d ≤ 255 ∧ 255 * oddByte d ≤ (words d).sum := by
  fun_induction oddByte d with
  | case1 a b d ih =>
    rw [words, sum_cons]
    omega
  | case2 a =>
    have ha := a.toNat_lt
    simp only [words, word, sum_cons, sum_nil, UInt8.toNat_zero]
    omega
  | case3 => simp

lemma oddByte_eq_zero {d : Bytes} : oddByte d = 0 ↔ d.length % 2 = 0 ∨ d.getLast? = some 0 := by
  fun_induction oddByte d with
  | case1 a b d ih =>
    cases d with
    | nil => simp [oddByte]
    | cons c d =>
      have hl : (a :: b :: c :: d).length % 2 = (c :: d).length % 2 := by
        simp only [length_cons]
        omega
      rw [ih, hl, getLast?_cons_cons, getLast?_cons_cons]
  | case2 a => simp [← UInt8.toNat_inj]
  | case3 => simp

lemma oddByte_append {as bs : Bytes} (h : as.length % 2 = 0) : oddByte (as ++ bs) = oddByte bs := by
  fun_induction oddByte as with
  | case1 a b as ih => exact ih (by simp only [length_cons] at h; omega)
  | case2 a => cases h
  | case3 => rfl

/-- An odd last byte is added where its 256-fold belongs. -/
lemma addChunks_eq {d : Bytes} {sum : Nat} (hlt : sum < 2 ^ 32) : addChunks sum d
    = if sum + (words d).sum - 255 * oddByte d < 2 ^ 32 then
        some (sum + (words d).sum - 255 * oddByte d)
      else none := by
  fun_induction addChunks sum d with
  | case1 sum a b d ih =>
    rw [words, sum_cons, oddByte, ← Nat.add_assoc, Checked.add]
    have hle := (oddByte_le d).2
    split
    · next hsm => exact ih _ hsm
    · rw [if_neg (by omega)]
      rfl
  | case2 sum a =>
    have hsm : sum + (words [a]).sum - 255 * oddByte [a] = sum + a.toNat := by
      simp only [words, word, oddByte, sum_cons, sum_nil, UInt8.toNat_zero]
      omega
    rw [hsm]
    rfl
  | case3 sum =>
    rw [if_pos (by simpa [words, oddByte] using hlt)]
    simp [words, oddByte]

lemma addChunks_append {as bs : Bytes} (h : as.length % 2 = 0) (sum : Nat) :
    addChunks sum (as ++ bs) = (addChunks sum as).bind (addChunks · bs) := by
  fun_induction addChunks sum as with
  | case1 sum a b as ih =>
    rw [cons_append, cons_append, addChunks, Option.bind_assoc]
    exact Option.bind_congr fun s _ => ih s (by simp only [length_cons] at h; omega)
  | case2 sum a => cases h
  | case3 sum => rfl

lemma wrap16_sub {s b : Nat} (hb : b ≤ 255) (hle : 255 * b ≤ s) :
    0xFFFF - wrap16 (s - 255 * b) = 0xFFFF - wrap16 s ↔ b = 0 := by
  unfold wrap16
  split <;> split <;> omega

/-- The odd byte is 0, if there is one, and the sum of the words does not overflow. -/
def Summable (d : Bytes) : Prop := (d.length % 2 = 0 ∨ d.getLast? = some 0) ∧ (words d).sum < 2 ^ 32

lemma calculateChecksum_iff (d : Bytes) : calculateChecksum d = some (checksum d) ↔ Summable d := by
  obtain ⟨hb, hle⟩ := oddByte_le d
  rw [Summable, ← oddByte_eq_zero, calculateChecksum, addChunks_eq (by decide), Nat.zero_add]
  split
  · next hlt =>
    rw [Option.map_some, Option.some_inj, addCarries_eq, checksum, sum16_eq, wrap16_sub hb hle]
    exact ⟨fun h => ⟨h, by rwa [h] at hlt⟩, And.left⟩
  · exact iff_of_false (by simp) (by omega)

lemma calculateChecksum_eq {d : Bytes} (hev : d.length % 2 = 0) (hl : d.length ≤ 131074) :
    calculateChecksum d = some (checksum d) := by
  have hsm := sum_words_le d
  exact (calculateChecksum_iff d).mpr ⟨.inl hev, by omega⟩

lemma length_pseudoHeader (srcIp dstIp : UInt32) (length : Nat) :
    (pseudoHeader srcIp dstIp length).length % 2 = 0 := by
  simp [pseudoHeader, beBytes_length]

lemma calculateTcpChecksum_eq (srcIp dstIp : UInt32) (d : Bytes) :
    calculateTcpChecksum srcIp dstIp d
      = calculateChecksum (pseudoHeader srcIp dstIp d.length ++ d) := by
  rw [calculateTcpChecksum, calculateChecksum, addChunks_append (length_pseudoHeader ..),
    Option.map_bind]
  exact Option.bind_congr fun sum _ => (Option.map_eq_bind ..).symm

/-- **The checksums** are those of RFC 1071, and a segment verifies, exactly if the odd last byte is
0 and the sum of the words fits: of the message, or with the headers. -/
theorem checksum_iff (data : Bytes) :
    (calculateChecksum data = some (checksum data) ↔ Summable data)
      ∧ (∀ srcIp dstIp, calculateTcpChecksum srcIp dstIp data
            = some (checksum (pseudoHeader srcIp dstIp data.length ++ data))
          ↔ Summable (pseudoHeader srcIp dstIp data.length ++ data))
      ∧ ∀ tcb flags seq ack, (∃ packet, sendSegment tcb flags seq ack data = some packet
            ∧ Verifies (pseudoHeader tcb.localIp tcb.remoteIp packet.length ++ packet))
          ↔ Summable (pseudoHeader tcb.localIp tcb.remoteIp (data.length + 20)
            ++ tcpPacket tcb flags seq ack data 0) := by
  refine ⟨calculateChecksum_iff data, fun _ _ => by rw [calculateTcpChecksum_eq,
    calculateChecksum_iff], fun tcb flags seq ack => ?_⟩
  have hln (c : Nat) : (tcpPacket tcb flags seq ack data c).length = data.length + 20 := by
    simp [tcpPacket, beBytes_length]
    omega
  obtain ⟨as, has, hp, heq⟩ : ∃ as : Bytes, as.length % 2 = 0 ∧ 0 < (words as).sum
      ∧ ∀ c, pseudoHeader tcb.localIp tcb.remoteIp (data.length + 20)
        ++ tcpPacket tcb flags seq ack data c = as ++ (beBytes 2 c ++ 0 :: 0 :: data) := by
    refine ⟨_, ?_, ?_, fun c => by rw [tcpPacket, ← append_assoc]⟩
    · simp [pseudoHeader, beBytes_length]
    · simp [pseudoHeader, words_append, beBytes_length, words, word]
  have hwr (c : Nat) (hc : c ≤ 0xFFFF) : (words (pseudoHeader tcb.localIp tcb.remoteIp
      (data.length + 20) ++ tcpPacket tcb flags seq ack data c)).sum
        = (words as).sum + (c + (words data).sum) := by
    rw [heq, words_append has, words_append (by rw [beBytes_length]), words_beBytes hc]
    simp [words, word]
  unfold sendSegment
  rw [calculateTcpChecksum_eq, hln, calculateChecksum, addChunks_eq (by decide), Nat.zero_add]
  obtain ⟨hb, hle⟩ := oddByte_le data
  have hod : oddByte (pseudoHeader tcb.localIp tcb.remoteIp (data.length + 20)
      ++ tcpPacket tcb flags seq ack data 0) = oddByte data := by
    rw [heq, oddByte_append has]
    rfl
  rw [Summable, ← oddByte_eq_zero, hwr 0 (by decide), hod]
  generalize oddByte data = b at *
  split
  · next hlt =>
    simp only [Option.map_some, Option.some_inj, exists_eq_left', hln, Verifies, sum16_eq,
      addCarries_eq]
    rw [hwr _ (Nat.sub_le ..)]
    unfold wrap16
    split <;> split <;> omega
  · exact iff_of_false (by simp) (by omega)

/-- An odd last byte is added in the wrong place. -/
theorem checksum_of_one : calculateChecksum [1] = some 0xFFFE ∧ checksum [1] = 0xFEFF := by
  simp [calculateChecksum, addChunks, Checked.add, addCarries_eq, wrap16, checksum, sum16, words,
    word, addAround]

/-! ## Headers -/

structure Ipv4Header where
  versionIhl : Nat
  tos : Nat
  totalLength : Nat
  identification : Nat
  flagsOffset : Nat
  ttl : Nat
  protocol : Nat
  checksum : Nat
  srcIp : Nat
  dstIp : Nat

namespace Ipv4Header

variable (header : Ipv4Header)

def headerLength : Nat := header.versionIhl % 16 * 4

def validate (data : Bytes) : Bool :=
  20 ≤ header.headerLength && header.headerLength ≤ 60 && header.headerLength ≤ data.length
    && header.versionIhl / 16 == 4
    && header.headerLength ≤ header.totalLength && header.totalLength ≤ data.length

def read (data : Bytes) : Ipv4Header :=
  let field off n := beValue (slice data off n)
  ⟨field 0 1, field 1 1, field 2 2, field 4 2, field 6 2, field 8 1, field 9 1, field 10 2,
    field 12 4, field 16 4⟩

def fromBytes (data : Bytes) : Option Ipv4Header :=
  if data.length < 20 then none
  else if (read data).versionIhl / 16 ≠ 4 then none
  else if (read data).headerLength < 20 then none
  else some (read data)

end Ipv4Header

def parseIpv4Header (data : Bytes) : Option (Ipv4Header × Bytes) := do
  let header ← Ipv4Header.fromBytes data
  if !header.validate data then none
  else if calculateChecksum (data.take header.headerLength) ≠ some 0 then none
  else some (header, slice data header.headerLength (header.totalLength - header.headerLength))

def ipv4Header (srcIp dstIp : UInt32) (protocol ttl : UInt8) (payloadLength checksum : Nat) :
    Bytes :=
  [0x45, 0] ++ beBytes 2 (20 + payloadLength) ++ beBytes 2 0 ++ beBytes 2 0x4000 ++ [ttl, protocol]
    ++ (beBytes 2 checksum ++ (beBytes 4 srcIp.toNat ++ beBytes 4 dstIp.toNat))

def buildIpv4Packet (srcIp dstIp : UInt32) (protocol ttl : UInt8) (payload : Bytes) :
    Option Bytes :=
  (calculateChecksum (ipv4Header srcIp dstIp protocol ttl payload.length 0)).map
    (ipv4Header srcIp dstIp protocol ttl payload.length · ++ payload)

lemma length_ipv4Header (srcIp dstIp : UInt32) (protocol ttl : UInt8) (length c : Nat) :
    (ipv4Header srcIp dstIp protocol ttl length c).length = 20 := by
  simp [ipv4Header, beBytes_length]

lemma beValue_single (b : UInt8) : beValue [b] = b.toNat := by simp [beValue, leValue]

lemma ipv4Header_verifies (srcIp dstIp : UInt32) (protocol ttl : UInt8) (length : Nat) :
    Verifies (ipv4Header srcIp dstIp protocol ttl length
      (checksum (ipv4Header srcIp dstIp protocol ttl length 0))) := by
  apply verifies_insert
  · simp [beBytes_length]
  · simp [words, word]

/-- What is built is parsed. -/
theorem parse_build_ipv4 (srcIp dstIp : UInt32) (protocol ttl : UInt8) (payload : Bytes)
    (hlen : payload.length ≤ 65515) : ∃ packet header,
      buildIpv4Packet srcIp dstIp protocol ttl payload = some packet
        ∧ parseIpv4Header packet = some (header, payload)
        ∧ header.srcIp = srcIp.toNat ∧ header.dstIp = dstIp.toNat
        ∧ header.protocol = protocol.toNat ∧ header.ttl = ttl.toNat := by
  have hln := length_ipv4Header srcIp dstIp protocol ttl payload.length
  have hvr := ipv4Header_verifies srcIp dstIp protocol ttl payload.length
  generalize hc : checksum (ipv4Header srcIp dstIp protocol ttl payload.length 0) = c at hvr
  have h0 : calculateChecksum (ipv4Header srcIp dstIp protocol ttl payload.length c) = some 0 := by
    rw [calculateChecksum_eq (by rw [hln]) (by rw [hln]; decide), checksum, hvr]
  unfold buildIpv4Packet
  rw [calculateChecksum_eq (by rw [hln]) (by rw [hln]; decide), hc]
  refine ⟨_, .read (ipv4Header srcIp dstIp protocol ttl payload.length c ++ payload), rfl, ?_,
    (beValue_beBytes 4 _).trans (Nat.mod_eq_of_lt srcIp.toNat_lt),
    (beValue_beBytes 4 _).trans (Nat.mod_eq_of_lt dstIp.toNat_lt), beValue_single _,
    beValue_single _⟩
  have hih : (Ipv4Header.read (ipv4Header srcIp dstIp protocol ttl payload.length c
      ++ payload)).versionIhl = 0x45 := rfl
  have htt : (Ipv4Header.read (ipv4Header srcIp dstIp protocol ttl payload.length c
      ++ payload)).totalLength = 20 + payload.length :=
    (beValue_beBytes 2 _).trans (Nat.mod_eq_of_lt (by omega))
  simp [parseIpv4Header, Ipv4Header.fromBytes, Ipv4Header.validate, Ipv4Header.headerLength, hih,
    htt, hln, h0, slice]

theorem parse_build_ipv4_one : ∃ packet header, buildIpv4Packet 1 2 17 64 [3] = some packet
    ∧ parseIpv4Header packet = some (header, [3]) ∧ header.srcIp = 1 ∧ header.dstIp = 2
    ∧ header.protocol = 17 ∧ header.ttl = 64 :=
  parse_build_ipv4 1 2 17 64 [3] (by decide)

end Nt61.Ipv4
