import Mytools.Lib.Bytes

/-!
# Cipher block chaining

Blocks of `n` bytes, each combined with the encryption of the block before it. Decryption inverts
encryption if the block cipher is inverted (`decrypt_encrypt`).
-/

namespace Lib.Cbc

variable {n : Nat} {E D : Bytes → Bytes}

def xor (a b : Bytes) : Bytes := List.zipWith (· ^^^ ·) a b

/-- The encryption of `k` blocks; `prev` is the block that the first one is combined with. -/
def encryptBlocks (n : Nat) (E : Bytes → Bytes) : (k : Nat) → (prev text : Bytes) → Bytes
  | 0, _, _ => []
  | k + 1, prev, text =>
    let c := E (xor (text.take n) prev)
    c ++ encryptBlocks n E k c (text.drop n)

def decryptBlocks (n : Nat) (D : Bytes → Bytes) : (k : Nat) → (prev text : Bytes) → Bytes
  | 0, _, _ => []
  | k + 1, prev, text =>
    xor (D (text.take n)) prev ++ decryptBlocks n D k (text.take n) (text.drop n)

def encrypt (n : Nat) (E : Bytes → Bytes) (iv text : Bytes) : Bytes :=
  encryptBlocks n E (text.length / n) iv text

def decrypt (n : Nat) (D : Bytes → Bytes) (iv text : Bytes) : Bytes :=
  decryptBlocks n D (text.length / n) iv text

theorem xor_length {a b : Bytes} (h : a.length = b.length) : (xor a b).length = a.length := by
  rw [xor, List.length_zipWith, h, Nat.min_self]

theorem xor_xor : ∀ {a b : Bytes}, a.length = b.length → xor (xor a b) b = a
  | [], _, _ => by simp [xor]
  | x :: a, [], h => by simp at h
  | x :: a, y :: b, h => by
    have ih : xor (xor a b) b = a := xor_xor (Nat.succ.inj h)
    have hx : x ^^^ y ^^^ y = x := by rw [UInt8.xor_assoc, UInt8.xor_self, UInt8.xor_zero]
    exact congrArg₂ List.cons hx ih

/-- The block cipher keeps the length of a block, and `D` inverts it. -/
structure Inverts (n : Nat) (E D : Bytes → Bytes) : Prop where
  length : ∀ b, b.length = n → (E b).length = n
  inverse : ∀ b, b.length = n → D (E b) = b

/-- A text of more than one block, at the end of its first block. -/
theorem length_take_drop {k : Nat} {text : Bytes} (h : text.length = (k + 1) * n) :
    (text.take n).length = n ∧ (text.drop n).length = k * n := by
  rw [Nat.succ_mul] at h
  rw [List.length_take, List.length_drop]
  omega

theorem encryptBlocks_length (h : Inverts n E D) : ∀ {k : Nat} {prev text : Bytes},
    prev.length = n → text.length = k * n → (encryptBlocks n E k prev text).length = k * n
  | 0, _, _, _, _ => by simp [encryptBlocks]
  | k + 1, prev, text, hprev, htext => by
    obtain ⟨htake, hrest⟩ := length_take_drop htext
    have hc : (E (xor (text.take n) prev)).length = n :=
      h.length _ ((xor_length (htake.trans hprev.symm)).trans htake)
    rw [encryptBlocks, List.length_append, hc, encryptBlocks_length h hc hrest, Nat.succ_mul]
    omega

theorem decryptBlocks_encryptBlocks (h : Inverts n E D) : ∀ {k : Nat} {prev text : Bytes},
    prev.length = n → text.length = k * n →
      decryptBlocks n D k prev (encryptBlocks n E k prev text) = text
  | 0, _, text, _, htext => by
    rw [Nat.zero_mul] at htext
    rw [List.length_eq_zero_iff.1 htext]
    rfl
  | k + 1, prev, text, hprev, htext => by
    obtain ⟨htake, hrest⟩ := length_take_drop htext
    have hxor : (xor (text.take n) prev).length = n :=
      (xor_length (htake.trans hprev.symm)).trans htake
    have hc : (E (xor (text.take n) prev)).length = n := h.length _ hxor
    rw [encryptBlocks, decryptBlocks, List.take_left' hc, List.drop_left' hc, h.inverse _ hxor,
      xor_xor (htake.trans hprev.symm), decryptBlocks_encryptBlocks h hc hrest,
      List.take_append_drop]

theorem encrypt_length (h : Inverts n E D) {iv text : Bytes} (hiv : iv.length = n)
    (htext : n ∣ text.length) : (encrypt n E iv text).length = text.length := by
  have hk : text.length = text.length / n * n := (Nat.div_mul_cancel htext).symm
  rw [encrypt, encryptBlocks_length h hiv hk, ← hk]

theorem decrypt_encrypt (h : Inverts n E D) {iv text : Bytes} (hiv : iv.length = n)
    (htext : n ∣ text.length) : decrypt n D iv (encrypt n E iv text) = text := by
  rw [decrypt, encrypt_length h hiv htext]
  exact decryptBlocks_encryptBlocks h hiv (Nat.div_mul_cancel htext).symm

end Lib.Cbc
