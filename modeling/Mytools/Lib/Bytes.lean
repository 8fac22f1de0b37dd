import Mathlib.Data.List.Sort
import Mytools.Lib.Text

/-!
# Byte strings

The strings of Go: lists of bytes, cut and joined as the `strings` package does. A byte string is
valid when it encodes characters in UTF-8; `toValid` is what an encoder makes of any other one.
-/

namespace Lib

abbrev Bytes := List UInt8

namespace Bytes

def ofChars (cs : List Char) : Bytes := cs.flatMap String.utf8EncodeChar

def ofString (s : String) : Bytes := ofChars s.toList

/-! ## Cutting and joining -/

/-- `strings.Cut` at one byte. -/
def cut (sep : UInt8) : Bytes → Option (Bytes × Bytes)
  | [] => none
  | b :: s => if b = sep then some ([], s) else (cut sep s).map fun x => (b :: x.1, x.2)

/-- `strings.CutPrefix` -/
def cutPrefix (p s : Bytes) : Option Bytes :=
  if p.isPrefixOf s then some (s.drop p.length) else none

/-- `strings.Join` with one byte. -/
def join (sep : UInt8) (ps : List Bytes) : Bytes := [sep].intercalate ps

/-- `strings.Split` at one byte. -/
def split (sep : UInt8) (s : Bytes) : List Bytes := s.splitOn sep

/-- The order of byte strings. -/
def le : Bytes → Bytes → Bool
  | [], _ => true
  | _ :: _, [] => false
  | a :: s, b :: t => a.toNat < b.toNat || (a == b && le s t)

theorem le_cons_iff {a b : UInt8} {s t : Bytes} :
    le (a :: s) (b :: t) = true ↔ a.toNat < b.toNat ∨ a = b ∧ le s t = true := by
  simp [le]

theorem le_total : ∀ s t : Bytes, le s t = true ∨ le t s = true
  | [], _ => .inl (by simp [le])
  | _ :: _, [] => .inr (by simp [le])
  | a :: s, b :: t => by
    rw [le_cons_iff, le_cons_iff]
    rcases lt_trichotomy a.toNat b.toNat with h | h | h
    · exact .inl (.inl h)
    · have hab := UInt8.toNat_inj.1 h
      exact (le_total s t).imp (fun hs => .inr ⟨hab, hs⟩) fun ht => .inr ⟨hab.symm, ht⟩
    · exact .inr (.inl h)

theorem le_trans : ∀ {s t u : Bytes}, le s t = true → le t u = true → le s u = true
  | [], _, _, _, _ => by simp [le]
  | _ :: _, [], _, h, _ => by simp [le] at h
  | _ :: _, _ :: _, [], _, h => by simp [le] at h
  | a :: s, b :: t, c :: u, hst, htu => by
    rw [le_cons_iff] at hst htu ⊢
    rcases hst with hab | ⟨rfl, hst⟩
    · rcases htu with hbc | ⟨rfl, -⟩
      · exact .inl (hab.trans hbc)
      · exact .inl hab
    · exact htu.imp_right fun ⟨hac, htu⟩ => ⟨hac, le_trans hst htu⟩

theorem le_antisymm : ∀ {s t : Bytes}, le s t = true → le t s = true → s = t
  | [], [], _, _ => rfl
  | [], _ :: _, _, h => by simp [le] at h
  | _ :: _, [], h, _ => by simp [le] at h
  | a :: s, b :: t, hst, hts => by
    rw [le_cons_iff] at hst hts
    rcases hst with hab | ⟨rfl, hst⟩
    · rcases hts with hba | ⟨rfl, -⟩
      · omega
      · omega
    · rcases hts with hlt | ⟨-, hts⟩
      · omega
      · rw [le_antisymm hst hts]

/-- Sorted byte strings without repetitions are determined by what is in the list. -/
theorem insertionSort_eq {l l' : List Bytes} (hl : l.Nodup) (hl' : l'.Nodup)
    (h : ∀ s, s ∈ l ↔ s ∈ l') :
    (l.insertionSort fun a b => le a b = true) = l'.insertionSort fun a b => le a b = true := by
  have htotal : Std.Total fun a b : Bytes => le a b = true := ⟨le_total⟩
  have htrans : IsTrans Bytes fun a b => le a b = true := ⟨fun _ _ _ => le_trans⟩
  have hperm : l.Perm l' := (List.perm_ext_iff_of_nodup hl hl').2 h
  refine List.Perm.eq_of_pairwise (fun _ _ _ _ => le_antisymm)
    (List.pairwise_insertionSort _ l) (List.pairwise_insertionSort _ l') ?_
  exact (List.perm_insertionSort _ l).trans (hperm.trans (List.perm_insertionSort _ l').symm)

theorem cut_append {sep : UInt8} {t : Bytes} : ∀ {s : Bytes}, sep ∉ s →
    cut sep (s ++ sep :: t) = some (s, t)
  | [], _ => by simp [cut]
  | b :: s, h => by
    have hb : b ≠ sep := fun he => h (he ▸ List.mem_cons_self)
    have ih := cut_append (t := t) fun hm => h (List.mem_cons_of_mem b hm)
    rw [List.cons_append, cut, if_neg hb, ih]
    rfl

theorem cutPrefix_append (p s : Bytes) : cutPrefix p (p ++ s) = some s := by
  rw [cutPrefix, if_pos (List.isPrefixOf_iff_prefix.2 (List.prefix_append p s)), List.drop_left]

theorem split_join {sep : UInt8} {ps : List Bytes} (hp : ∀ p ∈ ps, sep ∉ p) (hne : ps ≠ []) :
    split sep (join sep ps) = ps :=
  List.splitOn_intercalate sep hp hne

theorem not_mem_of_mem_split {sep : UInt8} {s p : Bytes} (h : p ∈ split sep s) : sep ∉ p :=
  not_mem_of_mem_splitOn h

/-! ## UTF-8 -/

/-- The character that a byte string begins with. -/
def decodeRune (s : Bytes) : Option Char := s.toByteArray.utf8DecodeChar? 0

def runeError : Char := Char.ofNat 0xfffd

def runesOf : Nat → Bytes → List Char
  | 0, _ => []
  | _ + 1, [] => []
  | n + 1, b :: s =>
    match decodeRune (b :: s) with
    | some c => c :: runesOf n ((b :: s).drop c.utf8Size)
    | none => runeError :: runesOf n s

/-- The characters that `range` goes over: each byte at which no encoding begins gives U+FFFD. -/
def runes (s : Bytes) : List Char := runesOf s.length s

/-- `strings.ToValidUTF8` byte by byte, as `encoding/json` writes a string. -/
def toValid (s : Bytes) : Bytes := ofChars (runes s)

def Valid (s : Bytes) : Prop := ∃ cs, s = ofChars cs

theorem ofChars_cons (c : Char) (cs : List Char) :
    ofChars (c :: cs) = String.utf8EncodeChar c ++ ofChars cs := rfl

theorem decodeRune_ofChars (c : Char) (cs : List Char) :
    decodeRune (ofChars (c :: cs)) = some c := by
  rw [decodeRune, ofChars_cons, List.toByteArray_append]
  exact ByteArray.utf8DecodeChar?_utf8EncodeChar_append

theorem runesOf_ofChars : ∀ (cs : List Char) {n : Nat}, (ofChars cs).length ≤ n →
    runesOf n (ofChars cs) = cs
  | [], 0, _ => rfl
  | [], _ + 1, _ => rfl
  | c :: cs, n, hn => by
    have hlen := String.length_utf8EncodeChar c
    have hpos := c.utf8Size_pos
    rw [ofChars_cons, List.length_append, hlen] at hn
    have hdec := decodeRune_ofChars c cs
    have hdrop : (ofChars (c :: cs)).drop c.utf8Size = ofChars cs := by
      rw [ofChars_cons, ← hlen, List.drop_left]
    -- an encoding has a first byte, which the fuel counts
    cases n with
    | zero => omega
    | succ n =>
      cases hs : ofChars (c :: cs) with
      | nil => simp [ofChars_cons, String.utf8EncodeChar_ne_nil] at hs
      | cons b s =>
        rw [hs] at hdec hdrop
        simp only [runesOf, hdec, hdrop]
        rw [runesOf_ofChars cs (by omega)]

theorem toValid_of_valid {s : Bytes} (h : Valid s) : toValid s = s := by
  obtain ⟨cs, rfl⟩ := h
  rw [toValid, runes, runesOf_ofChars cs (Nat.le_refl _)]

theorem valid_iff {s : Bytes} : Valid s ↔ toValid s = s :=
  ⟨toValid_of_valid, fun h => ⟨runes s, h.symm⟩⟩

theorem utf8EncodeChar_ascii :
    ∀ n < 128, String.utf8EncodeChar (Char.ofNat n) = [UInt8.ofNat n] := by
  decide

theorem valid_of_ascii : ∀ {s : Bytes}, (∀ b ∈ s, b.toNat < 128) → Valid s
  | [], _ => ⟨[], rfl⟩
  | b :: s, h => by
    obtain ⟨cs, hcs⟩ := valid_of_ascii fun x hx => h x (List.mem_cons_of_mem b hx)
    have hb := utf8EncodeChar_ascii b.toNat (h b List.mem_cons_self)
    refine ⟨Char.ofNat b.toNat :: cs, ?_⟩
    rw [ofChars_cons, hb, UInt8.ofNat_toNat, ← hcs]
    rfl

end Bytes

end Lib
