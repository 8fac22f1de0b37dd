import Mytools.Lib.Words
import Mytools.Tabinfo.Label

/-!
# What normalization does to a label

A normalized label is `Settled`: one line of words with single spaces and without the characters
that `blank` replaces. Normalizing it again changes nothing. Its length is another matter: a last
part in brackets is never cut, so a label that is too long keeps a part that is at least as long as
the maximum, behind one more character (`length_shortened_le_iff`). And `blank` replaces the
control characters of ASCII alone.
-/

namespace Tabinfo

open Lib

/-! ## Cleaning -/

structure Settled (cs : List Char) : Prop where
  spaced : Spaced isSpace cs
  spaces : ∀ c ∈ cs, isSpace c = true → c = ' '
  blank : ∀ c ∈ cs, blank c = c

theorem blank_blank (c : Char) : blank (blank c) = blank c := by
  unfold blank
  split
  · rfl
  · rfl

theorem cleaned_settled (label : List Char) : Settled (cleaned label) := by
  have hwords : ∀ w ∈ fieldsOf (label.map blank),
      (w ≠ [] ∧ ∀ c ∈ w, isSpace c = false) ∧ w ⊆ label.map blank := fun w hw => mem_words hw
  refine ⟨spaced_intercalate fun w hw => (hwords w hw).1, ?_, ?_⟩
  · intro c hc hs
    rcases mem_intercalate hc with rfl | ⟨w, hw, hc⟩
    · rfl
    · rw [(hwords w hw).1.2 c hc] at hs
      cases hs
  · intro c hc
    rcases mem_intercalate hc with rfl | ⟨w, hw, hc⟩
    · rfl
    · obtain ⟨d, -, rfl⟩ := List.mem_map.1 ((hwords w hw).2 hc)
      exact blank_blank d

theorem Settled.cleaned_eq {cs : List Char} (h : Settled cs) : cleaned cs = cs := by
  have hmap : cs.map Tabinfo.blank = cs := (List.map_congr_left h.blank).trans (List.map_id cs)
  rw [cleaned, hmap]
  exact intercalate_words h.spaced h.spaces

/-! ## The part in brackets -/

theorem suffixStart_append (pre : List Char) {suffix : List Char}
    (h : suffixStart suffix = some 0) : suffixStart (pre ++ suffix) = some pre.length := by
  induction pre with
  | nil => exact h
  | cons c pre ih =>
    rw [List.cons_append, suffixStart, ih]
    rfl

theorem suffixStart_drop : ∀ {cs : List Char} {i : Nat}, suffixStart cs = some i →
    i ≤ cs.length ∧ suffixStart (cs.drop i) = some 0
  | c :: cs, i, h => by
    have hself := h
    rw [suffixStart] at h
    split at h
    · next j hj =>
      cases h
      obtain ⟨hle, hdrop⟩ := suffixStart_drop hj
      exact ⟨Nat.succ_le_succ hle, hdrop⟩
    · split at h
      · cases h
        exact ⟨Nat.zero_le _, hself⟩
      · cases h

theorem head_of_suffixStart {suffix : List Char} (h : suffixStart suffix = some 0) :
    suffix.head? = some ' ' := by
  cases suffix with
  | nil => cases h
  | cons c cs =>
    rw [suffixStart] at h
    split at h
    · cases h
    · split at h
      · next hc => rw [hc.1, List.head?_cons]
      · cases h

theorem getLast?_drop {cs : List Char} {i : Nat} (h : suffixStart (cs.drop i) = some 0) :
    (cs.drop i).getLast? = cs.getLast? := by
  have hne : cs.drop i ≠ [] := by
    intro he
    rw [he] at h
    cases h
  rw [← List.getLast?_append_of_ne_nil (cs.take i) hne, List.take_append_drop]

/-- A text that ends in a part in brackets. -/
structure Bracketed (cs base suffix : List Char) : Prop where
  eq : cs = base ++ suffix
  start : suffixStart suffix = some 0
  bracket : suffix.getLast? = some ']'

variable {cs base suffix : List Char} {m : Nat}

theorem Bracketed.suffix_ne (h : Bracketed cs base suffix) : suffix ≠ [] := by
  intro he
  have := h.bracket
  rw [he] at this
  cases this

theorem Bracketed.shortened_eq (h : Bracketed cs base suffix) :
    shortened m cs = trim isSpace (base.take (max (m - suffix.length - 1) 1)) ++ suffix := by
  have hlast : cs.getLast? = some ']' := by
    rw [h.eq, List.getLast?_append_of_ne_nil _ h.suffix_ne, h.bracket]
  unfold shortened
  rw [h.eq, suffixStart_append base h.start]
  rw [h.eq] at hlast
  simp [hlast]

theorem shortened_cases (m : Nat) (cs : List Char) :
    (shortened m cs = trim isSpace (cs.take m) ∧ ¬ ∃ base suffix, Bracketed cs base suffix) ∨
      ∃ base suffix, Bracketed cs base suffix := by
  by_cases h : ∃ base suffix, Bracketed cs base suffix
  · exact .inr h
  · refine .inl ⟨?_, h⟩
    unfold shortened
    split
    · rfl
    · next i hi =>
      split
      · rfl
      · next hlast =>
        obtain ⟨hle, hdrop⟩ := suffixStart_drop hi
        refine absurd ⟨cs.take i, cs.drop i, (List.take_append_drop i cs).symm, hdrop, ?_⟩ h
        rw [getLast?_drop hdrop]
        simpa using hlast

/-- Before the part in brackets a settled text has a character that is not a space. -/
theorem Bracketed.exists_cons (h : Bracketed cs base suffix) (hs : Settled cs) :
    ∃ c rest, base = c :: rest ∧ isSpace c = false := by
  cases base with
  | nil =>
    have hhead := hs.spaced.head ' '
    rw [h.eq, List.nil_append, head_of_suffixStart h.start] at hhead
    exact absurd (hhead rfl) (by decide)
  | cons c rest =>
    refine ⟨c, rest, rfl, hs.spaced.head c ?_⟩
    rw [h.eq]
    rfl

/-- What is left of the text before the brackets is not empty. -/
theorem Bracketed.trim_ne_nil (h : Bracketed cs base suffix) (hs : Settled cs) {n : Nat}
    (hn : 1 ≤ n) : trim isSpace (base.take n) ≠ [] := by
  obtain ⟨c, rest, hb, hc⟩ := h.exists_cons hs
  obtain ⟨k, rfl⟩ := Nat.exists_eq_add_of_le' hn
  rw [hb, List.take_succ_cons, trim_cons hc]
  exact List.cons_ne_nil _ _

/-! ## Cutting -/

theorem Settled.trim_take (hs : Settled cs) (n : Nat) : Settled (trim isSpace (cs.take n)) := by
  have hsub : ∀ c ∈ trim isSpace (cs.take n), c ∈ cs :=
    fun c hc => List.mem_of_mem_take (trim_subset _ _ hc)
  exact ⟨hs.spaced.trim_infix (List.take_prefix n cs).isInfix,
    fun c hc => hs.spaces c (hsub c hc), fun c hc => hs.blank c (hsub c hc)⟩

theorem Bracketed.settled (h : Bracketed cs base suffix) (hs : Settled cs) {n : Nat} (hn : 1 ≤ n) :
    Settled (trim isSpace (base.take n) ++ suffix) := by
  have hinfix : base.take n <:+: cs := by
    rw [h.eq]
    exact (List.take_prefix n base).isInfix.trans (List.prefix_append base suffix).isInfix
  have hsuffix : suffix <:+: cs := by
    rw [h.eq]
    exact (List.suffix_append base suffix).isInfix
  have hsub : ∀ c ∈ trim isSpace (base.take n) ++ suffix, c ∈ cs := by
    intro c hc
    rcases List.mem_append.1 hc with hc | hc
    · exact hinfix.subset (trim_subset _ _ hc)
    · exact hsuffix.subset hc
  refine ⟨?_, fun c hc => hs.spaces c (hsub c hc), fun c hc => hs.blank c (hsub c hc)⟩
  apply (hs.spaced.trim_infix hinfix).append (h.trim_ne_nil hs hn)
  · exact hs.spaced.single.infix hsuffix
  · intro c hc
    rw [h.bracket] at hc
    cases hc
    rfl

theorem shortened_settled (hs : Settled cs) (m : Nat) : Settled (shortened m cs) := by
  rcases shortened_cases m cs with ⟨he, -⟩ | ⟨base, suffix, h⟩
  · rw [he]
    exact hs.trim_take m
  · rw [h.shortened_eq]
    exact h.settled hs (Nat.le_max_right _ _)

theorem normalizeRunes_settled (m : Nat) (label : List Char) :
    Settled (normalizeRunes m label) := by
  unfold normalizeRunes
  split
  · exact cleaned_settled label
  · exact shortened_settled (cleaned_settled label) m

/-! ## Lengths -/

theorem length_trim_le (p : Char → Bool) (cs : List Char) : (trim p cs).length ≤ cs.length :=
  trim_infix.length_le

/-- The brackets are kept, with at least one character before them. -/
theorem Bracketed.length_shortened_le_iff (h : Bracketed cs base suffix) (hs : Settled cs) :
    (shortened m cs).length ≤ m ↔ suffix.length < m := by
  have hpos := List.length_pos_iff.2
    (h.trim_ne_nil hs (Nat.le_max_right (m - suffix.length - 1) 1))
  have hle := length_trim_le isSpace (base.take (max (m - suffix.length - 1) 1))
  have htake := List.length_take_le (max (m - suffix.length - 1) 1) base
  rw [h.shortened_eq, List.length_append]
  omega

/-- A text that is too long and ends in brackets leaves room for one more character. -/
def SuffixFits (m : Nat) (cs : List Char) : Prop :=
  ∀ i, m < cs.length → suffixStart cs = some i → cs.getLast? = some ']' → (cs.drop i).length < m

theorem suffixFits_iff (hs : Settled cs) (hm : m < cs.length) :
    SuffixFits m cs ↔ (shortened m cs).length ≤ m := by
  rcases shortened_cases m cs with ⟨he, hnone⟩ | ⟨base, suffix, h⟩
  · have hlen : (shortened m cs).length ≤ m := by
      rw [he]
      exact (length_trim_le _ _).trans (List.length_take_le m cs)
    refine iff_of_true ?_ hlen
    intro i _ hi hlast
    obtain ⟨-, hdrop⟩ := suffixStart_drop hi
    refine absurd ⟨cs.take i, cs.drop i, (List.take_append_drop i cs).symm, hdrop, ?_⟩ hnone
    rw [getLast?_drop hdrop, hlast]
  · have hstart : suffixStart cs = some base.length := by
      rw [h.eq, suffixStart_append base h.start]
    have hdrop : cs.drop base.length = suffix := by
      rw [h.eq, List.drop_left]
    have hlast : cs.getLast? = some ']' := by
      rw [h.eq, List.getLast?_append_of_ne_nil _ h.suffix_ne, h.bracket]
    rw [h.length_shortened_le_iff hs]
    constructor
    · intro hf
      rw [← hdrop]
      exact hf base.length hm hstart hlast
    · intro hlt i _ hi _
      rw [hstart] at hi
      cases hi
      rw [hdrop]
      exact hlt

theorem length_normalizeRunes_le_iff (m : Nat) (label : List Char) :
    (normalizeRunes m label).length ≤ m ↔ SuffixFits m (cleaned label) := by
  unfold normalizeRunes
  split
  · next h => exact iff_of_true h fun i hm => absurd hm (by omega)
  · next h => exact (suffixFits_iff (cleaned_settled label) (by omega)).symm

/-! ## Normalizing again -/

theorem normalizeRunes_of_length_le (hs : Settled cs) (h : cs.length ≤ m) :
    normalizeRunes m cs = cs := by
  rw [normalizeRunes, hs.cleaned_eq, if_pos h]

/-- A text that is too long for its brackets has been cut to one character before them. -/
theorem Bracketed.shortened_shortened (h : Bracketed cs base suffix) (hs : Settled cs)
    (hm : m ≤ suffix.length) : shortened m (shortened m cs) = shortened m cs := by
  obtain ⟨c, rest, hb, hc⟩ := h.exists_cons hs
  have hmax : max (m - suffix.length - 1) 1 = 1 := by omega
  have htrim : trim isSpace ((c :: rest).take 1) = [c] := trim_cons hc
  have hcut : shortened m cs = [c] ++ suffix := by
    rw [h.shortened_eq, hmax, hb, htrim]
  have hagain : Bracketed ([c] ++ suffix) [c] suffix := ⟨rfl, h.start, h.bracket⟩
  rw [hcut, hagain.shortened_eq, hmax]
  exact congrArg (· ++ suffix) (trim_cons hc)

theorem normalizeRunes_normalizeRunes (m : Nat) (label : List Char) :
    normalizeRunes m (normalizeRunes m label) = normalizeRunes m label := by
  have hs := normalizeRunes_settled m label
  by_cases hle : (normalizeRunes m label).length ≤ m
  · exact normalizeRunes_of_length_le hs hle
  · have hc := cleaned_settled label
    have hlong : ¬ (cleaned label).length ≤ m := by
      intro h
      rw [normalizeRunes, if_pos h] at hle
      exact hle h
    have hcut : normalizeRunes m label = shortened m (cleaned label) := if_neg hlong
    rw [normalizeRunes, hs.cleaned_eq, if_neg hle, hcut]
    rw [hcut] at hle
    rcases shortened_cases m (cleaned label) with ⟨he, -⟩ | ⟨base, suffix, h⟩
    · rw [he] at hle
      exact absurd ((length_trim_le _ _).trans (List.length_take_le m _)) hle
    · rw [h.length_shortened_le_iff hc] at hle
      exact h.shortened_shortened hc (by omega)

/-! ## Labels -/

/-- `unicode.IsControl` -/
def isControl (c : Char) : Bool := c.toNat < 0x20 || (0x7f ≤ c.toNat && c.toNat < 0xa0)

/-- What a tab label is to be, for a maximum. -/
structure Respects (maxLabel : Nat) (label : Bytes) : Prop where
  length : (Bytes.runes label).length ≤ maxLabel
  control : ∀ c ∈ Bytes.runes label, isControl c = false
  head : ∀ c ∈ (Bytes.runes label).head?, isSpace c = false
  last : ∀ c ∈ (Bytes.runes label).getLast?, isSpace c = false
  single : Single isSpace (Bytes.runes label)
  stable : normalizeLabel maxLabel label = label

theorem runes_normalizeLabel (m : Nat) (label : Bytes) :
    Bytes.runes (normalizeLabel m label) = normalizeRunes m (Bytes.runes label) :=
  Bytes.runesOf_ofChars _ (le_refl _)

theorem normalizeLabel_normalizeLabel (m : Nat) (label : Bytes) :
    normalizeLabel m (normalizeLabel m label) = normalizeLabel m label := by
  rw [normalizeLabel, runes_normalizeLabel, normalizeRunes_normalizeRunes]
  rfl

/-- The control characters that are not of ASCII. -/
def IsC1 (c : Char) : Prop := 0x80 ≤ c.toNat ∧ c.toNat < 0xa0

theorem isControl_iff_isC1 {c : Char} (h : blank c = c) : isControl c = true ↔ IsC1 c := by
  have hne : ¬ (c.toNat < 0x20 ∨ c.toNat = 0x7f) := by
    intro hc
    rw [blank, if_pos hc] at h
    rw [← h] at hc
    exact absurd hc (by decide)
  simp only [isControl, IsC1, Bool.or_eq_true, Bool.and_eq_true, decide_eq_true_eq]
  omega

/-! ## The characters that are kept -/

/-- The positions of a text that a label keeps: all of them, the first `m`, or the part in brackets
and what fits before it with room for one more character, at least the first. -/
def Kept (m : Nat) (cs : List Char) (i : Nat) : Prop :=
  cs.length ≤ m ∨
    match suffixStart cs, cs.getLast? with
    | some start, some ']' => start ≤ i ∨ i < max (m - (cs.length - start) - 1) 1
    | _, _ => i < m

/-- No control character beyond ASCII stands at a position that is kept. -/
def KeepsNoC1 (m : Nat) (cs : List Char) : Prop :=
  ∀ i c, Kept m cs i → cs[i]? = some c → ¬ IsC1 c

theorem mem_trim_iff {p : Char → Bool} {c : Char} (hc : p c = false) :
    c ∈ trim p cs ↔ c ∈ cs := by
  refine ⟨fun h => trim_subset p cs h, fun h => ?_⟩
  rw [← List.takeWhile_append_dropWhile (p := p) (l := cs)] at h
  obtain ⟨s, hs, hdrop⟩ := exists_eq_trimRight_append p (cs.dropWhile p)
  rw [hdrop, List.mem_append, List.mem_append] at h
  rcases h with h | h | h
  · rw [List.all_eq_true.1 List.all_takeWhile c h] at hc
    cases hc
  · exact h
  · rw [hs c h] at hc
    cases hc

theorem mem_take_iff {c : Char} (n : Nat) : c ∈ cs.take n ↔ ∃ i, i < n ∧ cs[i]? = some c := by
  simp [List.mem_iff_getElem?, List.getElem?_take]

theorem Bracketed.kept_iff (h : Bracketed cs base suffix) (hm : m < cs.length) {i : Nat} :
    Kept m cs i ↔ base.length ≤ i ∨ i < max (m - suffix.length - 1) 1 := by
  have hlast : cs.getLast? = some ']' := by
    rw [h.eq, List.getLast?_append_of_ne_nil _ h.suffix_ne, h.bracket]
  have hstart : suffixStart cs = some base.length := by
    rw [h.eq, suffixStart_append base h.start]
  have hlen : cs.length - base.length = suffix.length := by
    rw [h.eq, List.length_append, Nat.add_sub_cancel_left]
  rw [Kept, hstart, hlast]
  simp only [hlen, Nat.not_le.2 hm, false_or]

theorem kept_iff_of_not_bracketed (h : ¬ ∃ base suffix, Bracketed cs base suffix)
    (hm : m < cs.length) {i : Nat} : Kept m cs i ↔ i < m := by
  rw [Kept, or_iff_right (Nat.not_le.2 hm)]
  split
  · next start hstart hlast =>
    obtain ⟨-, hdrop⟩ := suffixStart_drop hstart
    refine absurd ⟨cs.take start, cs.drop start, (List.take_append_drop start cs).symm, hdrop, ?_⟩ h
    rw [getLast?_drop hdrop, hlast]
  · rfl

theorem Bracketed.mem_shortened_iff (h : Bracketed cs base suffix) (hm : m < cs.length) {c : Char}
    (hc : isSpace c = false) : c ∈ shortened m cs ↔ ∃ i, Kept m cs i ∧ cs[i]? = some c := by
  rw [h.shortened_eq, List.mem_append, mem_trim_iff hc, mem_take_iff, List.mem_iff_getElem?]
  simp only [h.kept_iff hm]
  constructor
  · rintro (⟨i, hi, hget⟩ | ⟨i, hget⟩)
    · refine ⟨i, .inr hi, ?_⟩
      rw [h.eq, List.getElem?_append_left (List.getElem?_eq_some_iff.1 hget).1, hget]
    · refine ⟨base.length + i, .inl (Nat.le_add_right _ _), ?_⟩
      rw [h.eq, List.getElem?_append_right (Nat.le_add_right _ _), Nat.add_sub_cancel_left, hget]
  · rintro ⟨i, hi, hget⟩
    rw [h.eq] at hget
    rcases Nat.lt_or_ge i base.length with hlt | hge
    · rw [List.getElem?_append_left hlt] at hget
      exact .inl ⟨i, hi.resolve_left (Nat.not_le.2 hlt), hget⟩
    · rw [List.getElem?_append_right hge] at hget
      exact .inr ⟨_, hget⟩

theorem mem_normalizeRunes_iff {c : Char} (hc : isSpace c = false) (label : List Char) :
    c ∈ normalizeRunes m label ↔ ∃ i, Kept m (cleaned label) i ∧ (cleaned label)[i]? = some c := by
  unfold normalizeRunes
  split
  · next hle =>
    rw [List.mem_iff_getElem?]
    exact exists_congr fun i => (and_iff_right (.inl hle)).symm
  · next hlong =>
    have hm := Nat.not_le.1 hlong
    rcases shortened_cases m (cleaned label) with ⟨he, hnone⟩ | ⟨base, suffix, h⟩
    · rw [he, mem_trim_iff hc, mem_take_iff]
      simp only [kept_iff_of_not_bracketed hnone hm]
    · exact h.mem_shortened_iff hm hc

/-- U+0085 is a space and no cleaned text has it; the other ones are not trimmed. -/
theorem keepsNoC1_iff (label : List Char) :
    KeepsNoC1 m (cleaned label) ↔ ∀ c ∈ normalizeRunes m label, ¬ IsC1 c := by
  have hspace : ∀ cs, Settled cs → ∀ c ∈ cs, IsC1 c → isSpace c = false := by
    intro cs hs c hc hc1
    rw [← Bool.not_eq_true]
    intro hsp
    rw [hs.spaces c hc hsp] at hc1
    exact absurd hc1.1 (by decide)
  constructor
  · intro h c hc hc1
    obtain ⟨i, hi, hget⟩ := (mem_normalizeRunes_iff
      (hspace _ (normalizeRunes_settled m label) c hc hc1) label).1 hc
    exact h i c hi hget hc1
  · intro h i c hi hget hc1
    have hc := hspace _ (cleaned_settled label) c (List.mem_of_getElem? hget) hc1
    exact h c ((mem_normalizeRunes_iff hc label).2 ⟨i, hi, hget⟩) hc1

/-- Every normalized label is one line with single spaces and is its own normal form. It respects
the maximum just when the part in brackets of a label that is too long is shorter than the maximum,
and it is free of control characters just when none beyond ASCII stands where the cut keeps it. -/
theorem normalizeLabel_respects_iff (maxLabel : Nat) (label : Bytes) :
    (Spaced isSpace (Bytes.runes (normalizeLabel maxLabel label)) ∧
      (∀ c ∈ Bytes.runes (normalizeLabel maxLabel label), isControl c = true → IsC1 c) ∧
      normalizeLabel maxLabel (normalizeLabel maxLabel label) = normalizeLabel maxLabel label) ∧
    (Respects maxLabel (normalizeLabel maxLabel label) ↔
      SuffixFits maxLabel (cleaned (Bytes.runes label)) ∧
        KeepsNoC1 maxLabel (cleaned (Bytes.runes label))) := by
  have hs : Settled (Bytes.runes (normalizeLabel maxLabel label)) := by
    rw [runes_normalizeLabel]
    exact normalizeRunes_settled maxLabel _
  have hlen : (Bytes.runes (normalizeLabel maxLabel label)).length ≤ maxLabel ↔
      SuffixFits maxLabel (cleaned (Bytes.runes label)) := by
    rw [runes_normalizeLabel]
    exact length_normalizeRunes_le_iff maxLabel _
  have hc1 : KeepsNoC1 maxLabel (cleaned (Bytes.runes label)) ↔
      ∀ c ∈ Bytes.runes (normalizeLabel maxLabel label), ¬ IsC1 c := by
    rw [runes_normalizeLabel]
    exact keepsNoC1_iff _
  refine ⟨⟨hs.spaced, fun c hc => (isControl_iff_isC1 (hs.blank c hc)).1,
    normalizeLabel_normalizeLabel maxLabel label⟩, ?_, ?_⟩
  · intro h
    refine ⟨hlen.1 h.length, hc1.2 fun c hc hmem => ?_⟩
    have := h.control c hc
    rw [(isControl_iff_isC1 (hs.blank c hc)).2 hmem] at this
    cases this
  · intro h
    refine ⟨hlen.2 h.1, fun c hc => ?_, hs.spaced.head, hs.spaced.last, hs.spaced.single,
      normalizeLabel_normalizeLabel maxLabel label⟩
    rw [← Bool.not_eq_true, isControl_iff_isC1 (hs.blank c hc)]
    exact hc1.1 h.2 c hc

/-- With a maximum of 3, `abc [defgh]` becomes `a [defgh]`, which has nine characters. -/
theorem normalizeLabel_brackets :
    ¬ ∀ (atoi : String → Option Int) (value : String) (label : Bytes),
      Respects (maxLabel atoi value) (normalizeLabel (maxLabel atoi value) label) := by
  intro h
  have hrunes : Bytes.runes (normalizeLabel 3 (Bytes.ofString "abc [defgh]")) =
      normalizeRunes 3 "abc [defgh]".toList := by
    rw [runes_normalizeLabel]
    exact congrArg _ (Bytes.runesOf_ofChars _ (le_refl _))
  have hmax : maxLabel (fun _ => some 3) "3" = 3 := by decide
  have hlen := (h (fun _ => some 3) "3" (Bytes.ofString "abc [defgh]")).length
  rw [hmax, hrunes] at hlen
  exact absurd hlen (by decide)

end Tabinfo
