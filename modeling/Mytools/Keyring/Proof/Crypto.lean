import Mytools.Keyring.Crypto

/-!
# A secret that is encrypted is decrypted

The bits that `PKCS7Unpad` accumulates vanish exactly if the last bytes are all the padding
(`paddingCheck_eq_zero`), so that what it accepts are the padded texts. With a cipher that is
inverted, a session returns what was given to it.
-/

namespace Keyring

open Lib

/-! ## Padding -/

/-- The difference of two bytes that are not equal does not reach the sign bit. -/
theorem constantTimeByteEq_eq (x y : UInt8) :
    constantTimeByteEq x y = if x = y then 1 else 0 := by
  unfold constantTimeByteEq
  split
  · rename_i h
    rw [h, UInt8.xor_self]
    rfl
  · rename_i h
    have hd : x ^^^ y ≠ 0 := fun he => h (UInt8.xor_eq_zero_iff.1 he)
    generalize x ^^^ y = d at hd
    have hpos : 1 ≤ d.toNat := by
      rw [Nat.one_le_iff_ne_zero]
      exact fun h0 => hd (UInt8.toNat_inj.1 h0)
    have hlt := d.toNat_lt
    have hsub : (d.toUInt32 - 1).toNat = d.toNat - 1 := by
      rw [UInt32.toNat_sub_of_le]
      · simp
      · rw [UInt32.le_iff_toNat_le]
        simpa using hpos
    have hshift : (d.toUInt32 - 1) >>> 31 = 0 := by
      apply UInt32.toNat_inj.1
      rw [UInt32.toNat_shiftRight, hsub]
      simp [Nat.shiftRight_eq_div_pow]
      omega
    rw [hshift]
    rfl

theorem paddingCheck_eq_zero {padding : UInt8} : ∀ {data : Bytes} {check : BitVec 64},
    paddingCheck padding check data = 0#64 ↔ check = 0#64 ∧ ∀ b ∈ data, b = padding
  | [], check => by simp [paddingCheck]
  | b :: data, check => by
    have hstep : paddingCheck padding check (b :: data) =
        paddingCheck padding (check ||| (constantTimeByteEq b padding - 1)) data := rfl
    have hb : constantTimeByteEq b padding - 1 = 0#64 ↔ b = padding := by
      rw [constantTimeByteEq_eq]
      split <;> simp [*]
    rw [hstep, paddingCheck_eq_zero, BitVec.or_eq_zero_iff, hb, and_assoc, List.forall_mem_cons]

/-- What `PKCS7Unpad` accepts. -/
theorem pkcs7Unpad_ok {data m : Bytes} : pkcs7Unpad data = .ok m ↔
    ∃ padding : UInt8, 0 < padding.toNat ∧ padding.toNat ≤ blockSize ∧
      data = m ++ List.replicate padding.toNat padding := by
  constructor
  · intro h
    unfold pkcs7Unpad at h
    split at h
    · cases h
    rename_i last hlast
    dsimp only at h
    split at h
    · cases h
    rename_i hsize
    split at h
    · cases h
    rename_i hlen
    split at h
    · cases h
    rename_i hcheck
    obtain rfl := Except.ok.inj h
    rw [not_not, UInt8.ofNat_toNat] at hcheck
    have hall := (paddingCheck_eq_zero.1 hcheck).2
    refine ⟨last, by omega, by omega, ?_⟩
    have hdrop : data.drop (data.length - last.toNat) = List.replicate last.toNat last := by
      rw [List.eq_replicate_iff, List.length_drop]
      exact ⟨by omega, hall⟩
    rw [← hdrop, List.take_append_drop]
  · rintro ⟨padding, hpos, hle, rfl⟩
    obtain ⟨k, hk⟩ : ∃ k, padding.toNat = k + 1 := ⟨padding.toNat - 1, by omega⟩
    have hlast : (m ++ List.replicate padding.toNat padding).getLast? = some padding := by
      rw [hk, List.replicate_succ', ← List.append_assoc, List.getLast?_concat]
    have hlen : (m ++ List.replicate padding.toNat padding).length - padding.toNat = m.length := by
      simp
    have hcheck : paddingCheck (UInt8.ofNat padding.toNat) 0
        ((m ++ List.replicate padding.toNat padding).drop m.length) = 0 := by
      rw [List.drop_left, UInt8.ofNat_toNat]
      exact paddingCheck_eq_zero.2 ⟨rfl, fun b => List.eq_of_mem_replicate⟩
    simp only [pkcs7Unpad, hlast, hlen, hcheck]
    rw [if_neg (by omega), if_neg (by simp), if_neg (by simp), List.take_left]

theorem dvd_pkcs7Pad (m : Bytes) : blockSize ∣ (pkcs7Pad m blockSize).length := by
  simp only [pkcs7Pad, blockSize, List.length_append, List.length_replicate]
  omega

/-- A text of whole blocks is accepted exactly if it is a padded one. -/
theorem pkcs7Unpad_iff {data : Bytes} (h : blockSize ∣ data.length) (m : Bytes) :
    pkcs7Unpad data = .ok m ↔ data = pkcs7Pad m blockSize := by
  rw [pkcs7Unpad_ok, pkcs7Pad]
  constructor
  · rintro ⟨padding, hpos, hle, rfl⟩
    -- The padding is what the text lacks of whole blocks.
    have hpadding : blockSize - m.length % blockSize = padding.toNat := by
      rw [List.length_append, List.length_replicate] at h
      simp only [blockSize] at h hle ⊢
      omega
    simp only [hpadding, UInt8.ofNat_toNat]
  · intro hdata
    have hpadding : (UInt8.ofNat (blockSize - m.length % blockSize)).toNat =
        blockSize - m.length % blockSize := by
      rw [UInt8.toNat_ofNat']
      simp only [blockSize]
      omega
    refine ⟨UInt8.ofNat (blockSize - m.length % blockSize), ?_, ?_, ?_⟩
    · rw [hpadding]
      simp only [blockSize]
      omega
    · rw [hpadding]
      simp only [blockSize]
      omega
    · rw [hpadding]
      exact hdata

/-! ## Sessions -/

theorem checkKey_ok {key : Bytes} (h : key.length = 16) : checkKey key = .ok () := by
  rw [checkKey, require_eq_ok, h]
  decide

theorem aesCBCDecrypt_encrypt {C : Cipher} (hC : C.Inverts) {key : Bytes} (hkey : key.length = 16)
    (iv : IV) (plaintext : Bytes) :
    aesCBCDecrypt C key iv.bytes (C.encryptCBC key iv.bytes (pkcs7Pad plaintext blockSize)) =
      .ok plaintext := by
  have hdvd := dvd_pkcs7Pad plaintext
  have hlen :
      (C.encryptCBC key iv.bytes (pkcs7Pad plaintext blockSize)).length % blockSize = 0 := by
    rw [hC.length hkey iv.length hdvd]
    exact Nat.mod_eq_zero_of_dvd hdvd
  rw [aesCBCDecrypt, check_ok_iff, require_eq_ok, check_ok_iff, checkKey,
    hC.inverse hkey iv.length hdvd, pkcs7Unpad_iff hdvd]
  exact ⟨hlen, checkKey_ok hkey, rfl⟩

/-! ## Round trips -/

/-- A session decrypts what it has encrypted, and the texts of whole blocks that `PKCS7Unpad`
accepts are those of `PKCS7Pad`. -/
theorem secret_roundtrip {C : Cipher} (hC : C.Inverts) {s : ServiceObject}
    (hs : s.aesCBCDecrypt = aesCBCDecrypt C) :
    (∀ (sess : SessionState) (iv : IV) (plaintext : Bytes),
      (sess.algorithm = algorithmDH → ∀ key, sess.aesKey = some key → key.length = 16) →
      ∃ params value, ServiceObject.encryptSecret C (.ok iv) sess plaintext = .ok (params, value) ∧
        s.decryptSecret sess params value = .ok plaintext) ∧
    ∀ data : Bytes, 0 < data.length → data.length % 16 = 0 →
      ∀ m, pkcs7Unpad data = .ok m ↔ data = pkcs7Pad m 16 := by
  constructor
  · intro sess iv plaintext hkey
    unfold ServiceObject.encryptSecret ServiceObject.decryptSecret
    cases hk : sess.aesKey with
    | none => exact ⟨[], plaintext, rfl, rfl⟩
    | some key =>
      by_cases ha : sess.algorithm = algorithmDH
      · have hlen := hkey ha key hk
        refine ⟨iv.bytes, C.encryptCBC key iv.bytes (pkcs7Pad plaintext blockSize), ?_, ?_⟩
        · simp only [if_pos ha, aesCBCEncrypt, checkKey_ok hlen]
          rfl
        · simp only [if_pos ha, iv.length, hs]
          exact aesCBCDecrypt_encrypt hC hlen iv plaintext
      · exact ⟨[], plaintext, by simp only [if_neg ha], by simp only [if_neg ha]⟩
  · intro data _ hmod m
    exact pkcs7Unpad_iff (Nat.dvd_of_mod_eq_zero hmod) m

/-- AES in CBC mode, over the cipher of one block. -/
def Cipher.ofBlock (E D : Bytes → Bytes → Bytes) : Cipher where
  encryptCBC key := Cbc.encrypt blockSize (E key)
  decryptCBC key := Cbc.decrypt blockSize (D key)

theorem Cipher.ofBlock_inverts {E D : Bytes → Bytes → Bytes}
    (h : ∀ key, key.length = 16 → Cbc.Inverts blockSize (E key) (D key)) :
    (Cipher.ofBlock E D).Inverts where
  length hkey := Cbc.encrypt_length (h _ hkey)
  inverse hkey := Cbc.decrypt_encrypt (h _ hkey)

/-- A cipher that combines a block with the key. -/
def xorCipher : Cipher := .ofBlock (fun key b => Cbc.xor b key) fun key b => Cbc.xor b key

theorem xorCipher_inverts : xorCipher.Inverts :=
  Cipher.ofBlock_inverts fun _ hkey =>
    ⟨fun _ hb => (Cbc.xor_length (hb.trans hkey.symm)).trans hb,
      fun _ hb => Cbc.xor_xor (hb.trans hkey.symm)⟩

def dhService : ServiceObject where
  sessions := .empty
  aesCBCDecrypt := aesCBCDecrypt xorCipher
  exportItem _ := .ok ()

/-- A secret that takes up two blocks. -/
def passphrase : Bytes := Bytes.ofString "correct horse battery"

theorem secret_roundtrip_xor :
    (∃ params value, ServiceObject.encryptSecret xorCipher (.ok ⟨List.replicate 16 1, rfl⟩)
        ⟨algorithmDH, some (List.replicate 16 7)⟩ passphrase = .ok (params, value) ∧
      dhService.decryptSecret ⟨algorithmDH, some (List.replicate 16 7)⟩ params value =
        .ok passphrase) ∧
    (pkcs7Unpad (passphrase ++ List.replicate 11 11) = .ok passphrase ↔
      passphrase ++ List.replicate 11 11 = pkcs7Pad passphrase 16) := by
  have h := secret_roundtrip xorCipher_inverts (s := dhService) rfl
  refine ⟨h.1 _ _ _ fun _ key hkey => ?_, h.2 _ (by decide) (by decide) passphrase⟩
  rw [← Option.some.inj hkey]
  rfl

end Keyring
