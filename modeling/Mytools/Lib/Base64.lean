import Mytools.Lib.Bytes

/-!
# Base64

Three bytes become four digits, a last group of one or two bytes becomes two or three. The decoder
skips line breaks and ignores the bits that a short last group leaves over. The encodings of the
package (`Encoding`) differ in two digits and in the padding of the last group. Their texts are not
ambiguous: a decoder that accepts a text written with another encoding reads the same bytes
(`Encoding.eq_of_decode`).
-/

namespace Lib.Base64

/-- The bytes of a list of digit values; one digit left over is an error. -/
def decodeValues : List Nat → Option Bytes
  | v₀ :: v₁ :: v₂ :: v₃ :: rest => (decodeValues rest).map fun s =>
    UInt8.ofNat (v₀ * 4 + v₁ / 16) :: UInt8.ofNat (v₁ % 16 * 16 + v₂ / 4) ::
      UInt8.ofNat (v₂ % 4 * 64 + v₃) :: s
  | [v₀, v₁, v₂] => some [UInt8.ofNat (v₀ * 4 + v₁ / 16), UInt8.ofNat (v₁ % 16 * 16 + v₂ / 4)]
  | [v₀, v₁] => some [UInt8.ofNat (v₀ * 4 + v₁ / 16)]
  | [_] => none
  | [] => some []

/-- A carriage return or a line feed, which the decoder skips. -/
def isLineBreak (b : UInt8) : Bool := b == 10 || b == 13

/-- The digit values of a byte string. -/
def values : Bytes → List Nat
  | a :: b :: c :: rest =>
    a.toNat / 4 :: (a.toNat % 4 * 16 + b.toNat / 16) :: (b.toNat % 16 * 4 + c.toNat / 64) ::
      c.toNat % 64 :: values rest
  | [a, b] => [a.toNat / 4, a.toNat % 4 * 16 + b.toNat / 16, b.toNat % 16 * 4]
  | [a] => [a.toNat / 4, a.toNat % 4 * 16]
  | [] => []

theorem values_lt (s : Bytes) : ∀ v ∈ values s, v < 64 := by
  induction s using values.induct with
  | case1 a b c rest ih =>
    have ha := a.toNat_lt
    have hb := b.toNat_lt
    have hc := c.toNat_lt
    simp only [values, List.forall_mem_cons]
    exact ⟨by omega, by omega, by omega, by omega, ih⟩
  | case2 a b =>
    have ha := a.toNat_lt
    have hb := b.toNat_lt
    simp only [values, List.forall_mem_cons]
    exact ⟨by omega, by omega, by omega, by simp⟩
  | case3 a =>
    have ha := a.toNat_lt
    simp only [values, List.forall_mem_cons]
    exact ⟨by omega, by omega, by simp⟩
  | case4 => simp [values]

theorem ofNat_eq {b : UInt8} {n : Nat} (h : n = b.toNat) : UInt8.ofNat n = b := by
  rw [h, UInt8.ofNat_toNat]

theorem decodeValues_values (s : Bytes) : decodeValues (values s) = some s := by
  induction s using values.induct with
  | case1 a b c rest ih =>
    have ha := a.toNat_lt
    have hb := b.toNat_lt
    have hc := c.toNat_lt
    simp only [values, decodeValues, ih, Option.map_some]
    rw [ofNat_eq (b := a) (by omega), ofNat_eq (b := b) (by omega), ofNat_eq (b := c) (by omega)]
  | case2 a b =>
    have ha := a.toNat_lt
    have hb := b.toNat_lt
    simp only [values, decodeValues]
    rw [ofNat_eq (b := a) (by omega), ofNat_eq (b := b) (by omega)]
  | case3 a =>
    have ha := a.toNat_lt
    simp only [values, decodeValues]
    rw [ofNat_eq (b := a) (by omega)]
  | case4 => rfl

/-! ## Alphabets -/

/-- The standard alphabet ends in `+` and `/`, the one for URLs in `-` and `_`. -/
inductive Alphabet
  | std
  | url
  deriving DecidableEq, Repr

namespace Alphabet

def digit62 : Alphabet → UInt8
  | std => 43
  | url => 45

def digit63 : Alphabet → UInt8
  | std => 47
  | url => 95

def digit (a : Alphabet) (n : Nat) : UInt8 :=
  if n < 26 then UInt8.ofNat (65 + n)
  else if n < 52 then UInt8.ofNat (71 + n)
  else if n < 62 then UInt8.ofNat (n - 4)
  else if n = 62 then a.digit62
  else a.digit63

def value? (a : Alphabet) (b : UInt8) : Option Nat :=
  if 65 ≤ b.toNat ∧ b.toNat ≤ 90 then some (b.toNat - 65)
  else if 97 ≤ b.toNat ∧ b.toNat ≤ 122 then some (b.toNat - 71)
  else if 48 ≤ b.toNat ∧ b.toNat ≤ 57 then some (b.toNat + 4)
  else if b = a.digit62 then some 62
  else if b = a.digit63 then some 63
  else none

theorem value?_digit (a : Alphabet) : ∀ n < 64, a.value? (a.digit n) = some n := by
  cases a <;> decide

/-- A digit of one alphabet has no other value in another. -/
theorem value?_digit_other (a a' : Alphabet) :
    ∀ n < 64, a'.value? (a.digit n) = some n ∨ a'.value? (a.digit n) = none := by
  cases a <;> cases a' <;> decide

/-- The digits of one alphabet that another one reads are read with their values. -/
theorem eq_of_mapM_value? (a a' : Alphabet) : ∀ {vs ws : List Nat}, (∀ v ∈ vs, v < 64) →
    (vs.map a.digit).mapM a'.value? = some ws → ws = vs
  | [], ws, _, h => by simpa using h.symm
  | v :: vs, ws, hv, h => by
    obtain ⟨hv, hvs⟩ := List.forall_mem_cons.1 hv
    rw [List.map_cons, List.mapM_cons] at h
    obtain ⟨w, hw, h⟩ := Option.bind_eq_some_iff.1 h
    obtain ⟨ws', hws, h⟩ := Option.bind_eq_some_iff.1 h
    cases h
    rw [eq_of_mapM_value? a a' hvs hws]
    rcases value?_digit_other a a' v hv with he | he
    · rw [he] at hw
      cases hw
      rfl
    · rw [he] at hw
      cases hw

theorem mapM_value?_map_digit (a : Alphabet) : ∀ {vs : List Nat}, (∀ v ∈ vs, v < 64) →
    (vs.map a.digit).mapM a.value? = some vs
  | [], _ => rfl
  | v :: vs, h => by
    obtain ⟨hv, hvs⟩ := List.forall_mem_cons.1 h
    rw [List.map_cons, List.mapM_cons, a.value?_digit v hv, a.mapM_value?_map_digit hvs]
    rfl

end Alphabet

/-! ## Padding -/

/-- `=`, which pads the last group. -/
def pad : UInt8 := 61

theorem digit_ne_pad (a : Alphabet) : ∀ n < 64, a.digit n ≠ pad := by
  cases a <;> decide

theorem value?_pad (a : Alphabet) : a.value? pad = none := by
  cases a <;> rfl

theorem digit_not_lineBreak (a : Alphabet) : ∀ n < 64, isLineBreak (a.digit n) = false := by
  cases a <;> decide

structure Encoding where
  alphabet : Alphabet
  padded : Bool
  deriving DecidableEq, Repr

namespace Encoding

/-- `base64.RawURLEncoding` -/
def rawURL : Encoding := ⟨.url, false⟩

/-- `base64.URLEncoding` -/
def url : Encoding := ⟨.url, true⟩

/-- `base64.RawStdEncoding` -/
def rawStd : Encoding := ⟨.std, false⟩

/-- `base64.StdEncoding` -/
def std : Encoding := ⟨.std, true⟩

/-- The padding of a group that lacks `n` bytes. -/
def padding (e : Encoding) (n : Nat) : Bytes := if e.padded then List.replicate n pad else []

/-- `EncodeToString` -/
def encode (e : Encoding) : Bytes → Bytes
  | a :: b :: c :: rest =>
    e.alphabet.digit (a.toNat / 4) :: e.alphabet.digit (a.toNat % 4 * 16 + b.toNat / 16) ::
      e.alphabet.digit (b.toNat % 16 * 4 + c.toNat / 64) :: e.alphabet.digit (c.toNat % 64) ::
      encode e rest
  | [a, b] =>
    e.alphabet.digit (a.toNat / 4) :: e.alphabet.digit (a.toNat % 4 * 16 + b.toNat / 16) ::
      e.alphabet.digit (b.toNat % 16 * 4) :: e.padding 1
  | [a] =>
    e.alphabet.digit (a.toNat / 4) :: e.alphabet.digit (a.toNat % 4 * 16) :: e.padding 2
  | [] => []

/-- A group of four before `rest`, whose bytes are `tail`. Padding ends the text. -/
def decodeGroup (e : Encoding) (a b c d : UInt8) (rest : Bytes) (tail : Option Bytes) :
    Option Bytes :=
  match e.alphabet.value? a, e.alphabet.value? b, e.alphabet.value? c, e.alphabet.value? d with
  | some v₀, some v₁, some v₂, some v₃ => tail.map fun s =>
    UInt8.ofNat (v₀ * 4 + v₁ / 16) :: UInt8.ofNat (v₁ % 16 * 16 + v₂ / 4) ::
      UInt8.ofNat (v₂ % 4 * 64 + v₃) :: s
  | some v₀, some v₁, some v₂, none =>
    if e.padded ∧ d = pad ∧ rest = [] then decodeValues [v₀, v₁, v₂] else none
  | some v₀, some v₁, none, _ =>
    if e.padded ∧ c = pad ∧ d = pad ∧ rest = [] then decodeValues [v₀, v₁] else none
  | _, _, _, _ => none

/-- The bytes of a text without line breaks, group by group. A text that ends within a group has no
padding. -/
def decodeGroups (e : Encoding) : Bytes → Option Bytes
  | a :: b :: c :: d :: rest => e.decodeGroup a b c d rest (decodeGroups e rest)
  | s => if e.padded ∧ s ≠ [] then none else do
    let vs ← s.mapM e.alphabet.value?
    decodeValues vs

theorem decodeGroups_cons (e : Encoding) (a b c d : UInt8) (rest : Bytes) :
    e.decodeGroups (a :: b :: c :: d :: rest) =
      e.decodeGroup a b c d rest (e.decodeGroups rest) := rfl

/-- `DecodeString` -/
def decode (e : Encoding) (s : Bytes) : Option Bytes :=
  e.decodeGroups (s.filter fun b => !isLineBreak b)

/-! ## What is written is read back -/

variable (e e' : Encoding) {s t : Bytes}

theorem encode_eq (s : Bytes) :
    e.encode s = (values s).map e.alphabet.digit ++ e.padding ((3 - s.length % 3) % 3) := by
  induction s using Encoding.encode.induct with
  | case1 a b c rest ih =>
    have hlen : (a :: b :: c :: rest).length % 3 = rest.length % 3 := by simp; omega
    rw [hlen]
    simp [encode, values, ih]
  | case2 a b => rfl
  | case3 a => rfl
  | case4 => simp [encode, values, padding]

theorem not_lineBreak_encode (s : Bytes) : ∀ b ∈ e.encode s, isLineBreak b = false := by
  intro b hb
  rw [encode_eq, List.mem_append, List.mem_map] at hb
  rcases hb with ⟨v, hv, rfl⟩ | hb
  · exact digit_not_lineBreak _ v (values_lt s v hv)
  · unfold padding at hb
    split at hb
    · rw [List.eq_of_mem_replicate hb]
      rfl
    · cases hb

theorem decodeGroups_nil : e.decodeGroups [] = some [] := by
  cases hp : e.padded <;> simp [decodeGroups, hp, decodeValues]

/-- Four digits that are accepted are a group. -/
theorem decodeGroups_digits (a : Alphabet) {v₀ v₁ v₂ v₃ : Nat} (h₀ : v₀ < 64) (h₁ : v₁ < 64)
    (h₂ : v₂ < 64) (h₃ : v₃ < 64) {rest : Bytes}
    (h : e'.decodeGroups (a.digit v₀ :: a.digit v₁ :: a.digit v₂ :: a.digit v₃ :: rest) = some t) :
    ∃ s, e'.decodeGroups rest = some s ∧
      t = UInt8.ofNat (v₀ * 4 + v₁ / 16) :: UInt8.ofNat (v₁ % 16 * 16 + v₂ / 4) ::
        UInt8.ofNat (v₂ % 4 * 64 + v₃) :: s := by
  rw [decodeGroups_cons, decodeGroup] at h
  rcases Alphabet.value?_digit_other a e'.alphabet v₀ h₀ with e₀ | e₀ <;> rw [e₀] at h
  · rcases Alphabet.value?_digit_other a e'.alphabet v₁ h₁ with e₁ | e₁ <;> rw [e₁] at h
    · rcases Alphabet.value?_digit_other a e'.alphabet v₂ h₂ with e₂ | e₂ <;> rw [e₂] at h
      · rcases Alphabet.value?_digit_other a e'.alphabet v₃ h₃ with e₃ | e₃ <;> rw [e₃] at h
        · obtain ⟨s, hs, rfl⟩ := Option.map_eq_some_iff.1 h
          exact ⟨s, hs, rfl⟩
        · simp [digit_ne_pad a v₃ h₃] at h
      · simp [digit_ne_pad a v₂ h₂] at h
    · simp at h
  · simp at h

/-- Three digits and the padding of their group, if they are accepted. -/
theorem decodeGroups_three (a : Alphabet) {v₀ v₁ v₂ : Nat} (h₀ : v₀ < 64) (h₁ : v₁ < 64)
    (h₂ : v₂ < 64)
    (h : e'.decodeGroups (a.digit v₀ :: a.digit v₁ :: a.digit v₂ :: e.padding 1) = some t) :
    decodeValues [v₀, v₁, v₂] = some t := by
  unfold padding at h
  split at h
  · rw [List.replicate_one, decodeGroups_cons, decodeGroup, value?_pad] at h
    rcases Alphabet.value?_digit_other a e'.alphabet v₀ h₀ with e₀ | e₀ <;> rw [e₀] at h
    · rcases Alphabet.value?_digit_other a e'.alphabet v₁ h₁ with e₁ | e₁ <;> rw [e₁] at h
      · rcases Alphabet.value?_digit_other a e'.alphabet v₂ h₂ with e₂ | e₂ <;> rw [e₂] at h
        · exact (Option.ite_none_right_eq_some.1 h).2
        · simp [digit_ne_pad a v₂ h₂] at h
      · simp at h
    · simp at h
  · obtain ⟨-, h⟩ := Option.ite_none_left_eq_some.1 h
    obtain ⟨ws, hws, h⟩ := Option.bind_eq_some_iff.1 h
    have hlt : ∀ v ∈ [v₀, v₁, v₂], v < 64 := by simp [h₀, h₁, h₂]
    rw [← Alphabet.eq_of_mapM_value? a e'.alphabet hlt hws]
    exact h

theorem decodeGroups_two (a : Alphabet) {v₀ v₁ : Nat} (h₀ : v₀ < 64) (h₁ : v₁ < 64)
    (h : e'.decodeGroups (a.digit v₀ :: a.digit v₁ :: e.padding 2) = some t) :
    decodeValues [v₀, v₁] = some t := by
  unfold padding at h
  split at h
  · have hpad : List.replicate 2 pad = [pad, pad] := rfl
    rw [hpad, decodeGroups_cons, decodeGroup, value?_pad] at h
    rcases Alphabet.value?_digit_other a e'.alphabet v₀ h₀ with e₀ | e₀ <;> rw [e₀] at h
    · rcases Alphabet.value?_digit_other a e'.alphabet v₁ h₁ with e₁ | e₁ <;> rw [e₁] at h
      · exact (Option.ite_none_right_eq_some.1 h).2
      · simp at h
    · simp at h
  · obtain ⟨-, h⟩ := Option.ite_none_left_eq_some.1 h
    obtain ⟨ws, hws, h⟩ := Option.bind_eq_some_iff.1 h
    have hlt : ∀ v ∈ [v₀, v₁], v < 64 := by simp [h₀, h₁]
    rw [← Alphabet.eq_of_mapM_value? a e'.alphabet hlt hws]
    exact h

theorem eq_of_decodeGroups (h : e'.decodeGroups (e.encode s) = some t) : t = s := by
  -- On the groups of the text; the last one has its digits and its padding in one step.
  induction s using Encoding.encode.induct generalizing t with
  | case1 a b c rest ih =>
    have ha := a.toNat_lt
    have hb := b.toNat_lt
    have hc := c.toNat_lt
    obtain ⟨s, hs, rfl⟩ :=
      decodeGroups_digits e' _ (by omega) (by omega) (by omega) (by omega) h
    rw [ih hs, ofNat_eq (b := a) (by omega), ofNat_eq (b := b) (by omega),
      ofNat_eq (b := c) (by omega)]
  | case2 a b =>
    have ha := a.toNat_lt
    have hb := b.toNat_lt
    have hv := decodeGroups_three e e' _ (by omega) (by omega) (by omega) h
    exact (Option.some.inj ((decodeValues_values [a, b]).symm.trans hv)).symm
  | case3 a =>
    have ha := a.toNat_lt
    have hv := decodeGroups_two e e' _ (by omega) (by omega) h
    exact (Option.some.inj ((decodeValues_values [a]).symm.trans hv)).symm
  | case4 =>
    rw [encode, decodeGroups_nil] at h
    exact (Option.some.inj h).symm

/-- A decoder accepts the texts of its own encoding. -/
theorem exists_decodeGroups_encode (s : Bytes) : ∃ t, e.decodeGroups (e.encode s) = some t := by
  induction s using Encoding.encode.induct with
  | case1 a b c rest ih =>
    have ha := a.toNat_lt
    have hb := b.toNat_lt
    have hc := c.toNat_lt
    obtain ⟨t, ht⟩ := ih
    rw [encode, decodeGroups_cons, decodeGroup, e.alphabet.value?_digit _ (by omega),
      e.alphabet.value?_digit _ (by omega), e.alphabet.value?_digit _ (by omega),
      e.alphabet.value?_digit _ (by omega), ht]
    exact ⟨_, rfl⟩
  | case2 a b =>
    have ha := a.toNat_lt
    have hb := b.toNat_lt
    rw [encode, padding]
    split
    · next hp =>
      rw [List.replicate_one, decodeGroups_cons, decodeGroup, value?_pad,
        e.alphabet.value?_digit _ (by omega), e.alphabet.value?_digit _ (by omega),
        e.alphabet.value?_digit _ (by omega)]
      exact ⟨_, if_pos ⟨hp, rfl, rfl⟩⟩
    · next hp =>
      have hm := e.alphabet.mapM_value?_map_digit (values_lt [a, b])
      refine ⟨[a, b], (if_neg fun h => hp h.1).trans ?_⟩
      exact Option.bind_eq_some_iff.2 ⟨_, hm, decodeValues_values [a, b]⟩
  | case3 a =>
    have ha := a.toNat_lt
    rw [encode, padding]
    split
    · next hp =>
      have hpad : List.replicate 2 pad = [pad, pad] := rfl
      rw [hpad, decodeGroups_cons, decodeGroup, value?_pad, e.alphabet.value?_digit _ (by omega),
        e.alphabet.value?_digit _ (by omega)]
      exact ⟨_, if_pos ⟨hp, rfl, rfl, rfl⟩⟩
    · next hp =>
      have hm := e.alphabet.mapM_value?_map_digit (values_lt [a])
      refine ⟨[a], (if_neg fun h => hp h.1).trans ?_⟩
      exact Option.bind_eq_some_iff.2 ⟨_, hm, decodeValues_values [a]⟩
  | case4 => exact ⟨[], decodeGroups_nil e⟩

theorem decode_encode_eq (s : Bytes) : e'.decode (e.encode s) = e'.decodeGroups (e.encode s) := by
  rw [decode, List.filter_eq_self.2]
  intro b hb
  simp [not_lineBreak_encode e s b hb]

/-- Whichever encoding wrote a text, a decoder that accepts it reads what was written. -/
theorem eq_of_decode (h : e'.decode (e.encode s) = some t) : t = s := by
  rw [decode_encode_eq] at h
  exact eq_of_decodeGroups e e' h

theorem decode_encode (s : Bytes) : e.decode (e.encode s) = some s := by
  obtain ⟨t, ht⟩ := exists_decodeGroups_encode e s
  rw [decode_encode_eq, ht, eq_of_decodeGroups e e ht]

theorem encode_ne_nil (hs : s ≠ []) : e.encode s ≠ [] := by
  intro he
  have hd := e.decode_encode s
  rw [he, decode, List.filter_nil, decodeGroups_nil] at hd
  exact hs (Option.some.inj hd).symm

/-- Without padding no byte outside the alphabet is written. -/
theorem not_mem_encode {b : UInt8} (hp : e.padded = false) (hb : e.alphabet.value? b = none)
    (s : Bytes) : b ∉ e.encode s := by
  intro hm
  rw [encode_eq, padding, if_neg (by simp [hp]), List.append_nil] at hm
  obtain ⟨v, hv, rfl⟩ := List.mem_map.1 hm
  rw [e.alphabet.value?_digit v (values_lt s v hv)] at hb
  cases hb

end Encoding

end Lib.Base64
