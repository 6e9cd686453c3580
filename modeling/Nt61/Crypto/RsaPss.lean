/-
RsaPss — PSS signatures verify.

MGF1 exclusive-ors a mask that depends on the seed and the length only, so it undoes itself. The
encoded message is below the modulus, and padding what the number kept of it on the left gives it
back.
-/
import Nt61.Crypto.RsaSignature

namespace Nt61.Crypto

open Lib BigUint
open List hiding Vector

variable (sha256 : Bytes → Vector UInt8 32)

/-! ## The mask -/

lemma zipWith_take_right (bytes hash : Bytes) :
    zipWith (· ^^^ ·) bytes (hash.take bytes.length) = zipWith (· ^^^ ·) bytes hash := by
  have h := @take_zipWith _ _ _ (fun a b : UInt8 => a ^^^ b) bytes hash bytes.length
  rw [take_of_length_le (by rw [length_zipWith]; omega), take_length] at h
  exact h.symm

variable (seed : Bytes)

lemma mgf1Loop_mask (chunks : Nat) (counter : UInt32) {n : Nat} (hn : n ≤ 32 * chunks) :
    ∃ mask : Bytes, mask.length = n ∧ ∀ bytes : Bytes, bytes.length = n →
      mgf1Loop sha256 seed chunks counter bytes = zipWith (· ^^^ ·) bytes mask := by
  induction chunks generalizing counter n with
  | zero =>
    obtain rfl : n = 0 := by omega
    refine ⟨[], rfl, ?_⟩
    intro bytes hl
    obtain rfl := eq_nil_of_length_eq_zero hl
    rfl
  | succ chunks ih =>
    obtain ⟨rest, _, hma⟩ := ih (counter + 1) (show n - 32 ≤ 32 * chunks by omega)
    generalize hha : (sha256 (seed ++ beBytes 4 counter.toNat)).toList = hash
    have hhashLen : hash.length = 32 := by simp [← hha]
    refine ⟨hash.take n ++ rest, by simp; omega, ?_⟩
    intro bytes hl
    have hfs : (bytes.take 32).length = (hash.take n).length := by simp [hl, hhashLen, Nat.min_comm]
    rw [mgf1Loop, hha, hma (bytes.drop 32) (by simp [hl])]
    conv_rhs => rw [← take_append_drop 32 bytes, zipWith_append hfs]
    congr 1
    rw [← zipWith_take_right (bytes.take 32) hash,
      ← zipWith_take_right (bytes.take 32) (hash.take n), take_take, length_take]
    congr 2
    omega

lemma mgf1Sha256_mask (n : Nat) :
    ∃ mask : Bytes, mask.length = n ∧ ∀ bytes : Bytes, bytes.length = n →
      mgf1Sha256 sha256 seed bytes = zipWith (· ^^^ ·) bytes mask := by
  obtain ⟨mask, hl, hma⟩ :=
    mgf1Loop_mask sha256 seed ((n + 31) / 32) 0 (show n ≤ 32 * ((n + 31) / 32) by omega)
  refine ⟨mask, hl, ?_⟩
  intro bytes hby
  unfold mgf1Sha256
  rw [hby, hma bytes hby]

lemma mgf1Sha256_length (seed bytes : Bytes) :
    (mgf1Sha256 sha256 seed bytes).length = bytes.length := by
  obtain ⟨_, hl, hma⟩ := mgf1Sha256_mask sha256 seed bytes.length
  rw [hma bytes rfl, length_zipWith, hl, Nat.min_self]

lemma mask_bits (d m k : UInt8) : (((d ^^^ m) &&& k) ^^^ m) &&& k = d &&& k := by
  apply UInt8.toBitVec_inj.mp
  ext i hi
  simp only [UInt8.toBitVec_and, UInt8.toBitVec_xor, BitVec.getElem_and, BitVec.getElem_xor]
  cases d.toBitVec[i] <;> cases m.toBitVec[i] <;> cases k.toBitVec[i] <;> rfl

lemma mgf1_unmask (db : Bytes) (k : UInt8) :
    (mgf1Sha256 sha256 seed ((mgf1Sha256 sha256 seed db).modify 0 (· &&& k))).modify 0 (· &&& k)
      = db.modify 0 (· &&& k) := by
  obtain ⟨mask, hl, hma⟩ := mgf1Sha256_mask sha256 seed db.length
  rw [hma db rfl, hma _ (by simp [hl])]
  cases db with
  | nil => rfl
  | cons d db =>
    cases mask with
    | nil => simp at hl
    | cons m mask =>
      have hr : db.length ≤ mask.length := by
        simp only [length_cons] at hl
        omega
      simp [mask_bits, zipWith_xor_undo hr]

/-! ## The encoded message -/

/-- Zeros, `01` and the salt, `dbLen` bytes in all. -/
def dataBlock (dbLen : Nat) (salt : Bytes) : Bytes :=
  replicate (dbLen - salt.length - 1) 0 ++ 0x01 :: salt

variable {dbLen : Nat} {salt : Bytes}

section

variable (hroom : salt.length + 1 ≤ dbLen)
include hroom

lemma dataBlock_length : (dataBlock dbLen salt).length = dbLen := by
  simp [dataBlock]
  omega

lemma dataBlock_parts : (dataBlock dbLen salt)[dbLen - salt.length - 1]? = some 0x01
      ∧ (dataBlock dbLen salt).take (dbLen - salt.length - 1)
        = replicate (dbLen - salt.length - 1) 0
      ∧ (dataBlock dbLen salt).drop (dbLen - salt.length) = salt := by
  unfold dataBlock
  generalize hk : dbLen - salt.length - 1 = k
  have hdr : dbLen - salt.length = k + 1 := by omega
  refine ⟨?_, take_left' length_replicate, ?_⟩
  · simp
  · rw [hdr, ← drop_drop, drop_left' length_replicate]
    rfl

lemma dataBlock_eq :
    ((replicate dbLen 0).set (dbLen - salt.length - 1) 0x01).take (dbLen - salt.length) ++ salt
      = dataBlock dbLen salt := by
  unfold dataBlock
  generalize hk : dbLen - salt.length - 1 = k
  have hzr : replicate dbLen (0 : UInt8) = replicate k 0 ++ 0 :: replicate (dbLen - k - 1) 0 := by
    rw [← replicate_succ, replicate_append_replicate]
    congr 1
    omega
  rw [hzr, set_append, if_neg (by simp), show dbLen - salt.length = k + 1 by omega, take_append]
  simp

end

lemma dataBlock_cut (dbLen : Nat) (salt : Bytes) {k : UInt8} (hk : 1 &&& k = 1) :
    (dataBlock dbLen salt).modify 0 (· &&& k) = dataBlock dbLen salt := by
  unfold dataBlock
  cases dbLen - salt.length - 1 with
  | zero => simp [hk]
  | succ n => simp [replicate_succ]

lemma paddingMask_spec : ∀ bits < 8,
    1 &&& paddingMask bits = 1 ∧ (paddingMask bits).toNat + 1 = 2 ^ (8 - bits) := by
  decide

lemma modify_head_append {xs : Bytes} (hne : xs ≠ []) (ys : Bytes) (f : UInt8 → UInt8) :
    (xs ++ ys).modify 0 f = xs.modify 0 f ++ ys := by
  cases xs with
  | nil => exact absurd rfl hne
  | cons x xs => rfl

structure Encoded (digest : Bytes) (keyLen modulusBits : Nat) (salt em : Bytes) : Prop where
  digest_length : digest.length = 32
  room : salt.length + 34 ≤ keyLen
  bits_pos : 0 < modulusBits
  padding_lt : keyLen * 8 - (modulusBits - 1) < 8
  em_eq : em = (mgf1Sha256 sha256 (pssHash sha256 digest salt)
      (dataBlock (keyLen - 33) salt)).modify 0 (· &&& paddingMask (keyLen * 8 - (modulusBits - 1)))
    ++ (pssHash sha256 digest salt ++ [0xbc])

lemma encoded_of_ok {digest em : Bytes} {keyLen modulusBits saltLen : Nat}
    {salt : Vector UInt8 saltLen}
    (h : pssEncode sha256 digest keyLen modulusBits saltLen salt = .ok em) :
    Encoded sha256 digest keyLen modulusBits salt.toList em := by
  unfold pssEncode at h
  split at h
  · exact absurd h (by simp)
  rename_i hdg
  have hdg := not_not.mp hdg
  split at h
  · exact absurd h (by simp)
  rename_i dbLen hdb
  split at h
  · exact absurd h (by simp)
  dsimp only at h
  split at h
  · exact absurd h (by simp)
  rename_i emBits hbi
  split at h
  · exact absurd h (by simp)
  have hdbLen : dbLen + 33 = keyLen := by
    simp only [Option.bind_eq_some_iff, Checked.sub_eq_some_iff] at hdb
    omega
  have hemBits : emBits + 1 = modulusBits := Checked.sub_eq_some_iff.mp hbi
  have hsl : salt.toList.length = saltLen := Vector.length_toList
  obtain rfl : dbLen = keyLen - 33 := by omega
  obtain rfl : emBits = modulusBits - 1 := by omega
  refine ⟨hdg, by omega, by omega, by omega, ?_⟩
  have hbl := @dataBlock_eq (keyLen - 33) salt.toList (by omega)
  have hne : mgf1Sha256 sha256 (pssHash sha256 digest salt.toList)
      (dataBlock (keyLen - 33) salt.toList) ≠ [] := by
    rw [← length_pos_iff, mgf1Sha256_length, dataBlock_length (by omega)]
    omega
  rw [hsl] at hbl
  rw [← Except.ok.inj h, hbl, append_assoc, modify_head_append hne]

/-! ## Verification -/

variable {digest em salt : Bytes} {keyLen modulusBits : Nat}

section

variable (h : Encoded sha256 digest keyLen modulusBits salt em)
include h

lemma Encoded.length : em.length = keyLen := by
  have hroom := h.room
  have hha : (pssHash sha256 digest salt).length = 32 := Vector.length_toList
  have hdb := @dataBlock_length (keyLen - 33) salt (by omega)
  rw [h.em_eq, length_append, length_append, length_modify, mgf1Sha256_length, length_singleton]
  omega

lemma Encoded.head :
    ∃ x rest, em = (x &&& paddingMask (keyLen * 8 - (modulusBits - 1))) :: rest := by
  have hroom := h.room
  have hmg := mgf1Sha256_length sha256 (pssHash sha256 digest salt) (dataBlock (keyLen - 33) salt)
  rw [dataBlock_length (by omega)] at hmg
  obtain ⟨x, rest, hx⟩ := exists_cons_of_length_pos (show 0 < _ by rw [hmg]; omega)
  exact ⟨x, _, by rw [h.em_eq, hx]; rfl⟩

lemma Encoded.value_lt
    (hkeyLen : modulusBits ≤ 8 * keyLen) : beValue em < 2 ^ (modulusBits - 1) := by
  have hl := h.length
  have hpd := h.padding_lt
  obtain ⟨_, _⟩ := paddingMask_spec _ hpd
  obtain ⟨x, rest, hem⟩ := h.head
  generalize hfs : x &&& paddingMask (keyLen * 8 - (modulusBits - 1)) = first at hem
  have hle : first.toNat ≤ (paddingMask (keyLen * 8 - (modulusBits - 1))).toNat := by
    rw [← hfs]
    exact Nat.and_le_right
  have hr := beValue_lt rest
  have hrestLen : rest.length + 1 = keyLen := by rw [← hl, hem, length_cons]
  rw [hem, beValue_cons]
  calc 256 ^ rest.length * first.toNat + beValue rest
      < 256 ^ rest.length * first.toNat + 256 ^ rest.length := by omega
    _ = 256 ^ rest.length * (first.toNat + 1) := by ring
    _ ≤ 256 ^ rest.length * 2 ^ (8 - (keyLen * 8 - (modulusBits - 1))) :=
        Nat.mul_le_mul_left _ (by omega)
    _ = 2 ^ (modulusBits - 1) := by
      rw [pow_256, ← Nat.pow_add]
      congr 1
      omega

lemma Encoded.verifies {recovered : Bytes} (hl : recovered.length ≤ keyLen)
    (hrc : replicate (keyLen - recovered.length) 0 ++ recovered = em) :
    pssVerify sha256 recovered digest keyLen modulusBits salt.length = true := by
  have hroom := h.room
  have hdg := h.digest_length
  have hemLen := h.length
  obtain ⟨hlw, _⟩ := paddingMask_spec _ h.padding_lt
  obtain ⟨_, _, hem⟩ := h.head
  have hsp := h.em_eq
  generalize hma : paddingMask (keyLen * 8 - (modulusBits - 1)) = mask at hlw hem hsp
  generalize hms : (mgf1Sha256 sha256 (pssHash sha256 digest salt)
    (dataBlock (keyLen - 33) salt)).modify 0 (· &&& mask) = masked at hsp
  have hmaskedLen : masked.length = keyLen - 33 := by
    rw [← hms, length_modify, mgf1Sha256_length, dataBlock_length (by omega)]
  have hhashLen : (pssHash sha256 digest salt).length = 32 := Vector.length_toList
  -- the four parts of the encoded message
  have hhd : em.headD 0 &&& ~~~mask = 0 := by
    rw [hem, headD_cons, UInt8.and_assoc, UInt8.and_not_self, UInt8.and_zero]
  have hla : em[keyLen - 1]? = some 0xbc := by
    rw [← hemLen, ← getLast?_eq_getElem?, hsp, ← append_assoc, getLast?_concat]
  have hdb : em.take (keyLen - 32 - 1) = masked := by
    rw [hsp]
    exact take_left' (by omega)
  have hha : (em.take (keyLen - 1)).drop (keyLen - 32 - 1) = pssHash sha256 digest salt := by
    rw [hsp, ← append_assoc, take_left' (by rw [length_append]; omega)]
    exact drop_left' (by omega)
  have hbl : (mgf1Sha256 sha256 (pssHash sha256 digest salt) masked).modify 0 (· &&& mask)
      = dataBlock (keyLen - 33) salt := by
    rw [← hms, mgf1_unmask, dataBlock_cut _ _ hlw]
  obtain ⟨hmk, hzr, hsl⟩ := @dataBlock_parts (keyLen - 33) salt (by omega)
  unfold pssVerify
  rw [if_neg (by omega), if_neg (by omega), hrc]
  dsimp only
  rw [hma, if_neg (not_or.mpr ⟨not_not.mpr hhd, not_not.mpr hla⟩), hdb, hha, hbl,
    dataBlock_length (by omega), if_neg (by omega), show keyLen - 32 - 1 = keyLen - 33 by omega,
    if_neg (not_not.mpr hmk), hzr, if_neg (by simp), hsl]
  exact beq_self_eq_true _

end

/-! ## Both kinds of signatures -/

namespace RsaPrivateKey

variable {key : RsaPrivateKey} {p q : Nat}

lemma signPss_eq_ok_iff {digest signature : Bytes} {saltLen : Nat} {salt : Vector UInt8 saltLen} :
    key.signPss sha256 digest saltLen salt = .ok signature ↔
      ∃ em, pssEncode sha256 digest key.n.byteLen key.n.bitLen saltLen salt = .ok em
        ∧ signature = key.signPadded em := by
  unfold signPss
  cases hpd : pssEncode sha256 digest key.n.byteLen key.n.bitLen saltLen salt with
  | error message => simp
  | ok em => simp [bind, Except.bind, pure, Except.pure, signPadded, eq_comm]

lemma Exponents.signPss_verifies (hk : key.Exponents p q) {digest signature : Bytes}
    {saltLen : Nat} {salt : Vector UInt8 saltLen}
    (hsg : key.signPss sha256 digest saltLen salt = .ok signature) :
    signature.length = key.n.byteLen
      ∧ key.publicKey.verifyPss sha256 digest signature saltLen = true := by
  obtain ⟨em, hem, rfl⟩ := (signPss_eq_ok_iff sha256).mp hsg
  have hen := encoded_of_ok sha256 hem
  have hon := hk.one_lt_modulus
  have hbi := bitLen_byteLen hk.normal (by omega)
  have hpw := pow_bitLen_le (show 0 < key.n.val by omega)
  have hv := hen.value_lt sha256 hbi.2
  obtain ⟨hl, hnr, hvl⟩ := hk.signed em (hv.trans_le hpw)
  refine ⟨hl, ?_⟩
  show (if (key.signPadded em).length ≠ key.n.byteLen then false
    else pssVerify sha256 ((fromBytes (key.signPadded em)).modExp key.e key.n).toBytes digest
      key.n.byteLen key.n.bitLen saltLen) = true
  rw [if_neg (not_not.mpr hl)]
  generalize (fromBytes (key.signPadded em)).modExp key.e key.n = m at hnr hvl
  obtain ⟨hp, _, _⟩ := byteLen_spec hk.normal
  have hemLen := hen.length
  -- the number is written with at most as many bytes, and zeros in front make up for the rest
  have hrecoveredLen : m.toBytes.length ≤ key.n.byteLen := by
    apply (toBytes_shortest hnr.1).length_le hp
    rw [toBytes_value, hvl, ← hemLen]
    exact beValue_lt em
  have hrc : replicate (key.n.byteLen - m.toBytes.length) 0 ++ m.toBytes = em := by
    apply beValue_inj
    · rw [length_append, length_replicate]
      omega
    · rw [beValue_replicate_append, toBytes_value, hvl]
  have hvr := hen.verifies sha256 hrecoveredLen hrc
  rwa [Vector.length_toList] at hvr

/-- Whatever a proper key signs is as long as the modulus and verifies with the public key. -/
theorem signatures_verify (hkey : key.Exponents p q) (digest : Bytes) :
    (∀ signature, key.signPkcs1v15 digest = .ok signature → signature.length = key.n.byteLen
        ∧ key.publicKey.verifyPkcs1v15 digest signature = true)
    ∧ ∀ saltLen (salt : Vector UInt8 saltLen) signature,
      key.signPss sha256 digest saltLen salt = .ok signature → signature.length = key.n.byteLen
          ∧ key.publicKey.verifyPss sha256 digest signature saltLen = true := by
  constructor
  · intro signature hsg
    exact hkey.signPkcs1v15_verifies hsg
  · intro saltLen salt signature hsg
    exact hkey.signPss_verifies sha256 hsg

theorem signatures_verify_mersenne :
    (∃ signature, mersenne.signPkcs1v15 (replicate 32 0xab) = .ok signature ∧ signature.length = 66
      ∧ mersenne.publicKey.verifyPkcs1v15 (replicate 32 0xab) signature = true)
    ∧ ∃ signature, mersenne.signPss (fun _ => Vector.replicate 32 0x5a) (replicate 32 0xab) 8
        (Vector.replicate 8 0xc3) = .ok signature ∧ signature.length = 66
      ∧ mersenne.publicKey.verifyPss (fun _ => Vector.replicate 32 0x5a) (replicate 32 0xab)
        signature 8 = true := by
  have hbt := signatures_verify (fun _ => Vector.replicate 32 0x5a) mersenne_exponents
    (replicate 32 0xab)
  constructor
  · obtain ⟨signature, hsg⟩ : ∃ signature,
        mersenne.signPkcs1v15 (replicate 32 0xab) = .ok signature := by
      exact ⟨_, rfl⟩
    exact ⟨signature, hsg, hbt.1 signature hsg⟩
  obtain ⟨signature, hsg⟩ : ∃ signature,
      mersenne.signPss (fun _ => Vector.replicate 32 0x5a) (replicate 32 0xab) 8
        (Vector.replicate 8 0xc3) = .ok signature := by
    exact ⟨_, rfl⟩
  exact ⟨signature, hsg, hbt.2 8 _ signature hsg⟩

end RsaPrivateKey

end Nt61.Crypto
