/-
RsaEncryption — decryption undoes encryption.

The padded message starts with a zero byte, so it is below the modulus; that byte is lost in the
number, and the rest comes back from `decrypt` as it was.
-/
import Nt61.Crypto.RsaKey

namespace Nt61.Crypto

open Lib List BigUint

/-! ## Padding -/

lemma drawNonZero_eq (n : Nat) (random : Bytes) (hn : n ≤ (random.filter (· != 0)).length) :
    drawNonZero n random = some ((random.filter (· != 0)).take n) := by
  induction random generalizing n with
  | nil =>
    obtain rfl : n = 0 := by simpa using hn
    rfl
  | cons byte random ih =>
    cases n with
    | zero => rfl
    | succ n =>
      rw [drawNonZero]
      by_cases h0 : byte = 0
      · have hfl : (byte :: random).filter (· != 0) = random.filter (· != 0) := by simp [h0]
        rw [if_pos h0, hfl]
        rw [hfl] at hn
        exact ih (n + 1) hn
      have hfl : (byte :: random).filter (· != 0) = byte :: random.filter (· != 0) := by simp [h0]
      rw [if_neg h0, hfl]
      rw [hfl, length_cons] at hn
      rw [ih n (by omega)]
      rfl

lemma encryptPad_eq {data random : Bytes} {keyLen : Nat} (hfi : data.length + 3 ≤ keyLen)
    (hrd : keyLen - data.length - 3 ≤ (random.filter (· != 0)).length) :
    pkcs1v15EncryptPad data keyLen random = some (0x00 :: 0x02
          :: ((random.filter (· != 0)).take (keyLen - data.length - 3) ++ 0 :: data)) := by
  unfold pkcs1v15EncryptPad
  rw [Checked.sub_eq (by omega), Option.bind_some, Checked.sub_eq (by omega)]
  show (drawNonZero (keyLen - data.length - 3) random).bind _ = _
  rw [drawNonZero_eq _ _ hrd]
  simp

lemma encrypt_eq (key : RsaPublicKey) {plaintext random padded : Bytes}
    (h : pkcs1v15EncryptPad plaintext key.n.byteLen random = some padded) :
    key.encrypt plaintext random = some ((fromBytes padded).modExp key.e key.n).toBytes := by
  unfold RsaPublicKey.encrypt
  rw [h]
  rfl

lemma findIdx?_zero (padding data : Bytes) (hpd : ∀ b ∈ padding, b ≠ 0) :
    (padding ++ 0 :: data).findIdx? (· == 0x00) = some padding.length := by
  induction padding with
  | nil => rfl
  | cons b padding ih =>
    have hb : b ≠ 0 := hpd b mem_cons_self
    rw [cons_append, findIdx?_cons, ih fun c hc => hpd c (mem_cons_of_mem b hc)]
    simp [hb]

lemma unpad_padded (padding data : Bytes) (hpd : ∀ b ∈ padding, b ≠ 0) :
    pkcs1v15Unpad (0x02 :: (padding ++ 0 :: data)) = data := by
  unfold pkcs1v15Unpad
  rw [if_neg (by simp), drop_one, tail_cons, findIdx?_zero padding data hpd]
  show (0x02 :: (padding ++ 0 :: data)).drop (2 + padding.length) = data
  rw [show 2 + padding.length = padding.length + 1 + 1 by omega, drop_succ_cons,
    ← drop_drop, drop_left]
  rfl

/-! ## The round trip -/

namespace RsaPrivateKey

variable {key : RsaPrivateKey}

lemma decrypt_power (hk : key.Exponents key.p.val key.q.val) (hcr : key.Crt) {bytes : Bytes}
    (hby : BigUint.Shortest bytes) (hlt : beValue bytes < key.n.val) {ciphertext : Bytes}
    (hcp : beValue ciphertext = beValue bytes ^ key.e.val % key.n.val) :
    key.decrypt ciphertext = pkcs1v15Unpad bytes := by
  have hp : 1 < key.p.val := hk.prime_p.one_lt
  have hq : 1 < key.q.val := hk.prime_q.one_lt
  obtain ⟨h1, hval1⟩ := modExp_spec (fromBytes ciphertext) key.dp hcr.normal_p hp
  obtain ⟨h2, hval2⟩ := modExp_spec (fromBytes ciphertext) key.dq hcr.normal_q hq
  rw [fromBytes_val, hcp] at hval1 hval2
  -- modulo a prime factor of `n` the inner reduction does nothing
  have hpw : ∀ r k, r ∣ key.n.val →
      (beValue bytes ^ key.e.val % key.n.val) ^ k ≡ beValue bytes ^ (key.e.val * k) [MOD r] := by
    intro r k hr
    rw [pow_mul]
    exact ((Nat.mod_modEq _ _).of_dvd hr).pow k
  have hm1 : ((fromBytes ciphertext).modExp key.dp key.p).val ≡ beValue bytes [MOD key.p.val] := by
    rw [hval1]
    have hdp : key.dp.val ≡ key.d.val [MOD key.p.val - 1] := by
      rw [hcr.dp_eq]
      exact Nat.mod_modEq _ _
    exact (Nat.mod_modEq _ _).trans ((hpw _ _ (hk.modulus ▸ Nat.dvd_mul_right _ _)).trans
      (hk.pow_mod_p hdp _))
  have hm2 : ((fromBytes ciphertext).modExp key.dq key.q).val = beValue bytes % key.q.val := by
    rw [hval2]
    have hdq : key.dq.val ≡ key.d.val [MOD key.q.val - 1] := by
      rw [hcr.dq_eq]
      exact Nat.mod_modEq _ _
    exact (hpw _ _ (hk.modulus ▸ Nat.dvd_mul_left _ _)).trans (hk.symm.pow_mod_p hdq _)
  obtain ⟨hnr, hvl⟩ := recombine_eq hk hcr h1 h2 hlt hm1 hm2
  show pkcs1v15Unpad (key.recombine ((fromBytes ciphertext).modExp key.dp key.p)
    ((fromBytes ciphertext).modExp key.dq key.q)).toBytes = pkcs1v15Unpad bytes
  rw [toBytes_eq hnr.1 hby hvl]

/-- Every plaintext that fits comes back, whatever non-zero bytes the generator pads it with. -/
theorem decrypt_encrypt (hkey : key.Exponents key.p.val key.q.val) (hcrt : key.Crt)
    {plaintext random : Bytes} (hfits : plaintext.length + 3 ≤ key.n.byteLen)
    (hrandom : key.n.byteLen - plaintext.length - 3 ≤ (random.filter (· != 0)).length) :
    (key.publicKey.encrypt plaintext random).map key.decrypt = some plaintext := by
  have hon := hkey.one_lt_modulus
  generalize hp : (random.filter (· != 0)).take (key.n.byteLen - plaintext.length - 3) = padding
  have hl : padding.length = key.n.byteLen - plaintext.length - 3 := by
    rw [← hp, length_take, Nat.min_eq_left hrandom]
  have hpd : ∀ b ∈ padding, b ≠ 0 := by
    intro b hb
    rw [← hp] at hb
    simpa using of_mem_filter (mem_of_mem_take hb)
  have hpa : pkcs1v15EncryptPad plaintext key.n.byteLen random
      = some (0x00 :: 0x02 :: (padding ++ 0 :: plaintext)) := by
    rw [encryptPad_eq hfits hrandom, hp]
  have hsh : BigUint.Shortest (0x02 :: (padding ++ 0 :: plaintext)) := by simp [BigUint.Shortest]
  have hlt : beValue (0x02 :: (padding ++ 0 :: plaintext)) < key.n.val :=
    beValue_lt_of_length hkey.normal (by omega) _ (by simp; omega)
  obtain ⟨_, hvl⟩ := modExp_spec
    (fromBytes (0x00 :: 0x02 :: (padding ++ 0 :: plaintext))) key.e hkey.normal hon
  rw [fromBytes_val, beValue_zero_cons] at hvl
  rw [encrypt_eq key.publicKey hpa, Option.map_some,
    decrypt_power hkey hcrt hsh hlt (by rw [toBytes_value]; exact hvl),
    unpad_padded padding plaintext hpd]

theorem decrypt_encrypt_byte :
    (mersenne.publicKey.encrypt [0x41] (List.replicate 70 0xc5)).map mersenne.decrypt
      = some [0x41] :=
  decrypt_encrypt mersenne_exponents mersenne_crt (by decide +kernel) (by decide +kernel)

end RsaPrivateKey

end Nt61.Crypto
