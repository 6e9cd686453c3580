/-
RsaSignature — PKCS#1 v1.5 signatures: what the verifier accepts.

The signer makes the encoded message that fills the key; the verifier scans, and accepts every one
that is long enough, whatever the number of its padding bytes and the length of the digest.
-/
import Nt61.Crypto.RsaKey
import Mathlib.Data.List.TakeWhile

namespace Nt61.Crypto

open Lib List BigUint Checked

/-! ## Encoded messages -/

/-- `01 ff .. ff 00 DigestInfo digest`, with `j` padding bytes. -/
def paddedDigest (j : Nat) (digest : Bytes) : Bytes :=
  0x01 :: (replicate j 0xff ++ 0x00 :: (digestInfoPrefix digest ++ digest))

lemma paddedDigest_length (j : Nat) (digest : Bytes) :
    (paddedDigest j digest).length = j + 2 + (digestInfoPrefix digest).length + digest.length := by
  simp [paddedDigest]
  omega

lemma paddedDigest_shortest (j : Nat) (digest : Bytes) :
    BigUint.Shortest (paddedDigest j digest) := by
  simp [BigUint.Shortest, paddedDigest]

lemma paddedDigest_inj {i j : Nat} {digest : Bytes}
    (h : beValue (paddedDigest i digest) = beValue (paddedDigest j digest)) : i = j := by
  have hby := (paddedDigest_shortest i digest).unique (paddedDigest_shortest j digest) h
  have hl := congrArg length hby
  rw [paddedDigest_length, paddedDigest_length] at hl
  omega

lemma digestInfoPrefix_length {digest : Bytes} (h : digestInfoPrefix digest ≠ []) :
    15 ≤ (digestInfoPrefix digest).length := by
  unfold digestInfoPrefix at *
  split at h <;> simp_all

lemma paddingLen_eq_some_iff {keyLen infoLen digestLen j : Nat} :
    ((sub keyLen infoLen).bind (sub · digestLen)).bind (sub · 3) = some j
      ↔ j + infoLen + digestLen + 3 = keyLen := by
  simp only [Option.bind_eq_some_iff, sub_eq_some_iff]
  constructor
  · intro h
    omega
  · intro h
    exact ⟨j + 3, ⟨j + 3 + digestLen, by omega, by omega⟩, by omega⟩

lemma signPad_eq_ok_iff {digest em : Bytes} {keyLen : Nat} :
    pkcs1v15SignPad digest keyLen = .ok em ↔ digestInfoPrefix digest ≠ []
        ∧ ∃ j, j + (digestInfoPrefix digest).length + digest.length + 3 = keyLen
          ∧ em = 0x00 :: paddedDigest j digest := by
  unfold pkcs1v15SignPad
  by_cases hin : digestInfoPrefix digest = []
  · simp [hin]
  rw [if_neg (by simpa using hin)]
  simp only [← paddingLen_eq_some_iff]
  cases hpd : ((sub keyLen (digestInfoPrefix digest).length).bind
      (sub · digest.length)).bind (sub · 3) with
  | none => simp
  | some j => simp [hin, paddedDigest, eq_comm]

/-! ## The verifier -/

lemma takeWhile_eq_replicate (bytes : Bytes) : bytes.takeWhile (· == 0xff)
      = replicate (bytes.takeWhile (· == 0xff)).length 0xff := by
  apply eq_replicate_of_mem
  intro b hb
  simpa using mem_takeWhile_imp hb

lemma drop_mark (first mark : UInt8) (j : Nat) (rest : Bytes) :
    (first :: (replicate j 0xff ++ mark :: rest)).drop (1 + j + 1) = rest := by
  rw [show 1 + j + 1 = j + 1 + 1 by omega, drop_succ_cons, ← drop_drop, drop_left' length_replicate]
  rfl

lemma verifyPad_iff (recovered digest : Bytes) (keyLen : Nat) :
    pkcs1v15VerifyPad recovered digest keyLen = true ↔
      ∃ j, 8 ≤ j + (digestInfoPrefix digest).length ∧ recovered = paddedDigest j digest := by
  constructor
  · intro h
    unfold pkcs1v15VerifyPad at h
    split at h
    · exact absurd h (by simp)
    rename_i hl
    split at h
    · exact absurd h (by simp)
    rename_i hfs
    dsimp only at h
    split at h
    · exact absurd h (by simp)
    rename_i hmk
    obtain ⟨t, rfl⟩ : ∃ t, recovered = 0x01 :: t := by
      cases recovered with
      | nil => simp at hl
      | cons b t => exact ⟨t, by simpa using hfs⟩
    rw [drop_one, tail_cons] at h hmk
    generalize hj : (t.takeWhile (· == 0xff)).length = j at h hmk
    -- what the scan skips, and what it stops at
    have hsp : t = replicate j 0xff ++ t.dropWhile (· == 0xff) := by
      rw [← hj, ← takeWhile_eq_replicate, takeWhile_append_dropWhile]
    generalize t.dropWhile (· == 0xff) = stop at hsp
    subst hsp
    have hso : stop[0]? = some 0x00 := by
      rw [Nat.add_comm, getElem?_cons_succ, getElem?_append_right (by simp)] at hmk
      simpa using hmk
    obtain ⟨rest, rfl⟩ : ∃ rest, stop = 0x00 :: rest := by
      cases stop with
      | nil => simp at hso
      | cons b rest => exact ⟨rest, by simpa using hso⟩
    rw [drop_mark, Bool.and_eq_true, isPrefixOf_iff_prefix] at h
    obtain ⟨⟨_, rfl⟩, hdg⟩ := h
    rw [drop_left, beq_iff_eq] at hdg
    subst hdg
    refine ⟨j, ?_, rfl⟩
    simp at hl
    omega
  intro h
  obtain ⟨j, hj, rfl⟩ := h
  have hsc : ((paddedDigest j digest).drop 1).takeWhile (· == 0xff) = replicate j 0xff := by
    show (replicate j 0xff ++ 0x00 :: (digestInfoPrefix digest ++ digest)).takeWhile (· == 0xff) = _
    rw [takeWhile_append_of_pos]
    · simp
    · intro b hb
      simpa using eq_of_mem_replicate hb
  have hmk : (paddedDigest j digest)[1 + j]? = some 0x00 := by
    rw [Nat.add_comm]
    simp [paddedDigest]
  have hr : (paddedDigest j digest).drop (1 + j + 1) = digestInfoPrefix digest ++ digest :=
    drop_mark ..
  unfold pkcs1v15VerifyPad
  rw [if_neg (by rw [paddedDigest_length]; omega), if_neg (by simp [paddedDigest])]
  simp only [hsc, length_replicate, hmk, hr]
  simp

namespace RsaPublicKey

variable {key : RsaPublicKey}

lemma verifyPkcs1v15_iff (hn : key.n.Normal) (hon : 1 < key.n.val) (digest signature : Bytes) :
    key.verifyPkcs1v15 digest signature = true ↔ ∃ j, 8 ≤ j + (digestInfoPrefix digest).length
        ∧ beValue signature ^ key.e.val % key.n.val = beValue (paddedDigest j digest) := by
  obtain ⟨hnr, hvl⟩ := modExp_spec (fromBytes signature) key.e hn hon
  rw [fromBytes_val] at hvl
  show pkcs1v15VerifyPad ((fromBytes signature).modExp key.e key.n).toBytes digest
    key.n.byteLen = true ↔ _
  rw [verifyPad_iff, ← hvl]
  apply exists_congr
  intro j
  apply and_congr_right
  intro _
  constructor
  · intro h
    rw [← h, toBytes_value]
  · intro h
    exact toBytes_eq hnr.1 (paddedDigest_shortest j digest) h

/-- The verifier accepts only signatures of the encoded message that the signer makes. -/
def AcceptsOnlySigned (key : RsaPublicKey) (digest : Bytes) : Prop :=
  ∀ signature, key.verifyPkcs1v15 digest signature = true →
    ∃ em, pkcs1v15SignPad digest key.n.byteLen = .ok em
      ∧ beValue signature ^ key.e.val % key.n.val = beValue em

/-- No other encoded message has an `e`-th root modulo `n`: with a digest of a supported length,
none but the one that fills the key; with another digest, none at all. -/
def RootsFillKey (key : RsaPublicKey) (digest : Bytes) : Prop :=
  ∀ j, 8 ≤ j + (digestInfoPrefix digest).length →
    (∃ x, x ^ key.e.val % key.n.val = beValue (paddedDigest j digest)) →
      digestInfoPrefix digest ≠ []
        ∧ j + (digestInfoPrefix digest).length + digest.length + 3 = key.n.byteLen

/-- The scan is as strict as rebuilding the encoded message exactly for the keys and digests for
which no other encoded message can be signed. -/
theorem verifyPkcs1v15_strict_iff (hn : key.n.Normal) (hone : 1 < key.n.val) (digest : Bytes) :
    key.AcceptsOnlySigned digest ↔ key.RootsFillKey digest := by
  constructor
  · intro hst j hj hrt
    obtain ⟨x, hx⟩ := hrt
    -- the root, written as a signature, is accepted
    have hby : beValue (beBytes x x) = x := by
      rw [beValue_beBytes, Nat.mod_eq_of_lt (Nat.lt_pow_self (by decide))]
    obtain ⟨_, hem, hpw⟩ := hst (beBytes x x)
      ((verifyPkcs1v15_iff hn hone digest _).mpr ⟨j, hj, by rw [hby, hx]⟩)
    obtain ⟨hsp, i, hi, rfl⟩ := signPad_eq_ok_iff.mp hem
    rw [hby, hx, beValue_zero_cons] at hpw
    obtain rfl : j = i := paddedDigest_inj hpw
    exact ⟨hsp, hi⟩
  intro hrs signature hac
  obtain ⟨j, hj, hpw⟩ := (verifyPkcs1v15_iff hn hone digest signature).mp hac
  obtain ⟨hsp, hfl⟩ := hrs j hj ⟨beValue signature, hpw⟩
  refine ⟨0x00 :: paddedDigest j digest, signPad_eq_ok_iff.mpr ⟨hsp, j, hfl, rfl⟩, ?_⟩
  rw [beValue_zero_cons, hpw]

/-- The cube of `cubeRoot` starts with `01 00` and the `DigestInfo` of a 64-byte digest; the modulus
is one byte longer. -/
def cubeRoot : Nat := 0x100101a0cbaa9e01c88a2bdcff3e3980dd99beb5d * 2 ^ 64

def fullKey : RsaPublicKey := ⟨⟨List.replicate 10 0 ++ [0x10000000000]⟩, ⟨[3]⟩⟩

theorem verifyPkcs1v15_strict_full : fullKey.AcceptsOnlySigned (beBytes 64 (cubeRoot ^ 3))
    ∧ fullKey.verifyPkcs1v15 (beBytes 64 (cubeRoot ^ 3)) (beBytes 29 cubeRoot) = true := by
  refine ⟨(verifyPkcs1v15_strict_iff (by decide) (by decide +kernel) _).mpr ?_,
    (verifyPkcs1v15_iff (by decide) (by decide +kernel) _ _).mpr
      ⟨0, by decide +kernel, by decide +kernel⟩⟩
  intro j _ hrt
  obtain ⟨x, hx⟩ := hrt
  have hlg := (paddedDigest_shortest j (beBytes 64 (cubeRoot ^ 3))).pow_le
    (by rw [paddedDigest_length]; omega)
  have hlt : x ^ fullKey.e.val % fullKey.n.val < 256 ^ 85 :=
    Nat.lt_of_lt_of_eq (Nat.mod_lt _ (by decide +kernel)) (by decide +kernel)
  have hpr : (digestInfoPrefix (beBytes 64 (cubeRoot ^ 3))).length = 19 := by decide +kernel
  have hln : (beBytes 64 (cubeRoot ^ 3)).length = 64 := by decide +kernel
  rw [paddedDigest_length, hpr, hln] at hlg
  rw [hx] at hlt
  -- a padding byte more makes the message longer than the modulus
  have hj : j + 2 + 19 + 64 - 1 < 85 :=
    (Nat.pow_lt_pow_iff_right (by decide)).mp (Nat.lt_of_le_of_lt hlg hlt)
  obtain rfl : j = 0 := by omega
  exact ⟨by decide +kernel, by decide +kernel⟩

/-- A modulus of 325 bits with the public exponent `3`. -/
def cubeKey : RsaPublicKey :=
  { n := ⟨[0x1, 0x0, 0xad6000000, 0x0, 0xa1b9000000000000, 0x1b]⟩, e := ⟨[3]⟩ }

/-- The end of the cube of `0x7fffffffffffffffeab`, which starts with `01 ff ff ff ff ff ff ff ff
00`. -/
def cubeDigest : Bytes :=
  [0x40, 0x00, 0x00, 0x00, 0x00, 0x00, 0x00, 0x2a, 0x95, 0x57, 0xff, 0xff, 0xff, 0xff, 0xff, 0xfd,
    0xa2, 0xf6, 0x13]

/-- A digest of 19 bytes, which the signer refuses, is accepted with the cube root that anyone can
take; and a signature of a SHA-1 digest is accepted that has no padding byte, not three. -/
theorem verifyPkcs1v15_accepts_other : (cubeKey.verifyPkcs1v15 cubeDigest
        [0x07, 0xff, 0xff, 0xff, 0xff, 0xff, 0xff, 0xff, 0xfe, 0xab] = true
      ∧ pkcs1v15SignPad cubeDigest cubeKey.n.byteLen = .error "unsupported digest length")
    ∧ ∃ signature, cubeKey.verifyPkcs1v15 (replicate 20 0) signature = true
      ∧ ∀ em, pkcs1v15SignPad (replicate 20 0) cubeKey.n.byteLen = .ok em →
        beValue signature ^ cubeKey.e.val % cubeKey.n.val ≠ beValue em := by
  have hnr : cubeKey.n.Normal := by decide
  have hon : 1 < cubeKey.n.val := by decide +kernel
  have hun : beValue [0x01, 0x74, 0xc5, 0x77, 0x73, 0x56, 0xed, 0xb6, 0x2b, 0xa8, 0x77, 0x0c,
        0xf3, 0xb1, 0xba, 0x3b, 0x3a, 0xfd, 0x79, 0x40, 0x7d, 0x2f, 0x8a, 0xd2, 0x32, 0xb0, 0xcd, 0x5c,
        0x8b, 0x76, 0x22, 0xd5, 0x10, 0x31, 0xb2, 0x0f, 0x51, 0xb6, 0x68, 0xf0, 0xd1]
        ^ cubeKey.e.val % cubeKey.n.val
      = beValue (paddedDigest 0 (replicate 20 0)) := by decide +kernel
  refine ⟨⟨(verifyPkcs1v15_iff hnr hon _ _).mpr ⟨8, by decide, by decide +kernel⟩, rfl⟩, _,
    (verifyPkcs1v15_iff hnr hon _ _).mpr ⟨0, by decide, hun⟩, ?_⟩
  intro em hem hpw
  obtain ⟨_, j, hj, rfl⟩ := signPad_eq_ok_iff.mp hem
  rw [hun, beValue_zero_cons] at hpw
  obtain rfl : 0 = j := paddedDigest_inj hpw
  exact absurd hj (by decide +kernel)

end RsaPublicKey

/-! ## The signer -/

namespace RsaPrivateKey

variable {key : RsaPrivateKey} {p q : Nat}

lemma signPkcs1v15_eq_ok_iff {digest signature : Bytes} : key.signPkcs1v15 digest = .ok signature ↔
      ∃ em, pkcs1v15SignPad digest key.n.byteLen = .ok em ∧ signature = key.signPadded em := by
  unfold signPkcs1v15
  cases hpd : pkcs1v15SignPad digest key.n.byteLen with
  | error message => simp
  | ok em => simp [bind, Except.bind, pure, Except.pure, signPadded, eq_comm]

lemma Exponents.signPkcs1v15_verifies (hk : key.Exponents p q) {digest signature : Bytes}
    (hsg : key.signPkcs1v15 digest = .ok signature) : signature.length = key.n.byteLen
      ∧ key.publicKey.verifyPkcs1v15 digest signature = true := by
  obtain ⟨_, hem, rfl⟩ := signPkcs1v15_eq_ok_iff.mp hsg
  obtain ⟨hsp, j, _, rfl⟩ := signPad_eq_ok_iff.mp hem
  have hon := hk.one_lt_modulus
  have hlt : beValue (paddedDigest j digest) < key.n.val :=
    beValue_lt_of_length hk.normal (by omega) _ (by rw [paddedDigest_length]; omega)
  obtain ⟨hl, hnr, hvl⟩ := hk.signed (0x00 :: paddedDigest j digest) (by rwa [beValue_zero_cons])
  rw [beValue_zero_cons] at hvl
  refine ⟨hl, ?_⟩
  have hin := digestInfoPrefix_length hsp
  show pkcs1v15VerifyPad ((fromBytes (key.signPadded _)).modExp key.e key.n).toBytes digest
    key.n.byteLen = true
  rw [toBytes_eq hnr.1 (paddedDigest_shortest j digest) hvl, verifyPad_iff]
  exact ⟨j, by omega, rfl⟩

end RsaPrivateKey

end Nt61.Crypto
