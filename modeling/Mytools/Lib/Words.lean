import Mathlib.Data.List.Chain
import Mytools.Lib.Text

/-!
# Words with single spaces between them

A text is `Spaced` when it has no space at its ends and no two spaces in a row. Words that are
joined by one space make such a text (`spaced_intercalate`), and it is split and joined again
without a change (`intercalate_words`). What makes the texts of this form easy to cut: a piece of
one is `Spaced` once it is trimmed (`Spaced.trim_infix`).
-/

namespace Lib

variable {p : Char → Bool} {sp : Char} {cs ds : List Char}

/-- No two characters in a row satisfy `p`. -/
def Single (p : Char → Bool) (cs : List Char) : Prop :=
  cs.IsChain fun a b => p a = true → p b = false

structure Spaced (p : Char → Bool) (cs : List Char) : Prop where
  head : ∀ c ∈ cs.head?, p c = false
  last : ∀ c ∈ cs.getLast?, p c = false
  single : Single p cs

theorem Spaced.nil : Spaced p [] := ⟨by simp, by simp, List.isChain_nil⟩

/-- The pieces between the characters that satisfy `p`, without the empty ones. -/
def words (p : Char → Bool) (cs : List Char) : List (List Char) := (cs.splitOnP p).filter (· ≠ [])

/-! ## Splitting -/

theorem subset_of_mem_splitOnP {w : List Char} (h : w ∈ cs.splitOnP p) : w ⊆ cs := by
  induction cs generalizing w with
  | nil =>
    rw [List.splitOnP_nil, List.mem_singleton] at h
    simp [h]
  | cons c cs ih =>
    rw [List.splitOnP_cons_eq_if_modifyHead] at h
    split at h
    · rcases List.mem_cons.1 h with rfl | h
      · simp
      · exact List.subset_cons_of_subset c (ih h)
    · obtain ⟨x, xs, hx⟩ := List.exists_cons_of_ne_nil (List.splitOnP_ne_nil p cs)
      rw [hx, List.modifyHead_cons] at h
      rw [hx] at ih
      rcases List.mem_cons.1 h with rfl | h
      · exact List.cons_subset_cons c (ih List.mem_cons_self)
      · exact List.subset_cons_of_subset c (ih (List.mem_cons_of_mem _ h))

theorem mem_words {w : List Char} (h : w ∈ words p cs) :
    (w ≠ [] ∧ ∀ c ∈ w, p c = false) ∧ w ⊆ cs := by
  obtain ⟨hw, hne⟩ := List.mem_filter.1 h
  exact ⟨⟨by simpa using hne, forall_mem_splitOnP hw⟩, subset_of_mem_splitOnP hw⟩

/-- A text whose spaces are all the same is put together from its pieces. -/
theorem intercalate_splitOnP (h : ∀ c ∈ cs, p c = true → c = sp) :
    [sp].intercalate (cs.splitOnP p) = cs := by
  induction cs with
  | nil => simp [List.splitOnP_nil]
  | cons c cs ih =>
    obtain ⟨hc, hcs⟩ := List.forall_mem_cons.1 h
    have ih := ih hcs
    obtain ⟨x, xs, hx⟩ := List.exists_cons_of_ne_nil (List.splitOnP_ne_nil p cs)
    rw [List.splitOnP_cons_eq_if_modifyHead, hx]
    rw [hx] at ih
    split
    · next hp =>
      rw [List.intercalate_cons_cons, ih, hc hp]
      rfl
    · rw [List.modifyHead_cons]
      cases xs with
      | nil => simpa using ih
      | cons y ys =>
        rw [List.intercalate_cons_cons] at ih ⊢
        simp only [List.cons_append]
        rw [ih]

/-- A text with single spaces has no empty piece. -/
theorem Spaced.ne_nil_of_mem_splitOnP : ∀ {cs : List Char}, Spaced p cs → cs ≠ [] →
    ∀ w ∈ cs.splitOnP p, w ≠ []
  | [c], h, _ => by
    have hc := h.head c rfl
    rw [List.splitOnP_cons_eq_if_modifyHead, if_neg (by simp [hc]), List.splitOnP_nil]
    simp
  | c :: d :: cs, h, _ => by
    have hc := h.head c rfl
    have hchain := (List.isChain_cons_cons.1 h.single).2
    rw [List.splitOnP_cons_eq_if_modifyHead, if_neg (by simp [hc])]
    cases hd : p d with
    | false =>
      have htail : Spaced p (d :: cs) :=
        ⟨by simpa using hd, fun x hx => h.last x (by simpa using hx), hchain⟩
      have ih := htail.ne_nil_of_mem_splitOnP (by simp)
      obtain ⟨x, xs, hx⟩ := List.exists_cons_of_ne_nil (List.splitOnP_ne_nil p (d :: cs))
      rw [hx, List.modifyHead_cons]
      rw [hx] at ih
      intro w hw
      rcases List.mem_cons.1 hw with rfl | hw
      · simp
      · exact ih w (List.mem_cons_of_mem _ hw)
    | true =>
      -- The space is followed by a character of the next word.
      cases cs with
      | nil =>
        have := h.last d rfl
        rw [hd] at this
        cases this
      | cons e cs =>
        obtain ⟨hde, hchain⟩ := List.isChain_cons_cons.1 hchain
        have htail : Spaced p (e :: cs) :=
          ⟨by simpa using hde hd, fun x hx => h.last x (by simpa using hx), hchain⟩
        have ih := htail.ne_nil_of_mem_splitOnP (by simp)
        rw [List.splitOnP_cons_eq_if_modifyHead, if_pos hd, List.modifyHead_cons]
        intro w hw
        rcases List.mem_cons.1 hw with rfl | hw
        · simp
        · exact ih w hw

theorem intercalate_words (h : Spaced p cs) (hsp : ∀ c ∈ cs, p c = true → c = sp) :
    [sp].intercalate (words p cs) = cs := by
  by_cases hnil : cs = []
  · subst hnil
    simp [words, List.splitOnP_nil]
  · have hall : words p cs = cs.splitOnP p := by
      apply List.filter_eq_self.2
      intro w hw
      simpa using h.ne_nil_of_mem_splitOnP hnil w hw
    rw [hall, intercalate_splitOnP hsp]

/-! ## Joining -/

theorem mem_intercalate {c : Char} : ∀ {ws : List (List Char)}, c ∈ [sp].intercalate ws →
    c = sp ∨ ∃ w ∈ ws, c ∈ w
  | [], h => by simp at h
  | [w], h => .inr ⟨w, List.mem_cons_self, by simpa using h⟩
  | w :: w' :: ws, h => by
    rw [List.intercalate_cons_cons, List.append_assoc, List.mem_append, List.singleton_append,
      List.mem_cons] at h
    rcases h with h | h | h
    · exact .inr ⟨w, List.mem_cons_self, h⟩
    · exact .inl h
    · exact (mem_intercalate h).imp_right fun ⟨x, hx, hc⟩ => ⟨x, List.mem_cons_of_mem _ hx, hc⟩

theorem single_of_forall (h : ∀ c ∈ cs, p c = false) : Single p cs := by
  induction cs with
  | nil => exact List.isChain_nil
  | cons c cs ih =>
    obtain ⟨hc, hcs⟩ := List.forall_mem_cons.1 h
    apply List.isChain_cons.2
    exact ⟨fun b _ hp => absurd hp (by simp [hc]), ih hcs⟩

/-- Behind a text with single spaces a space does no harm. -/
theorem Spaced.append (hc : Spaced p cs) (hne : cs ≠ []) (hd : Single p ds)
    (hl : ∀ c ∈ ds.getLast?, p c = false) : Spaced p (cs ++ ds) := by
  refine ⟨?_, ?_, ?_⟩
  · rw [List.head?_append_of_ne_nil _ hne]
    exact hc.head
  · intro c hm
    rw [List.getLast?_append] at hm
    cases hds : ds.getLast? with
    | some x =>
      rw [hds] at hm
      exact hl c (by rw [hds]; exact hm)
    | none =>
      rw [hds] at hm
      exact hc.last c hm
  · apply List.isChain_append.2
    refine ⟨hc.single, hd, ?_⟩
    intro x hx y hy hp
    rw [hc.last x hx] at hp
    cases hp

theorem spaced_of_forall (h : ∀ c ∈ cs, p c = false) : Spaced p cs :=
  ⟨fun c hc => h c (List.mem_of_head? hc), fun c hc => h c (List.mem_of_getLast? hc),
    single_of_forall h⟩

theorem spaced_intercalate : ∀ {ws : List (List Char)},
    (∀ w ∈ ws, w ≠ [] ∧ ∀ c ∈ w, p c = false) → Spaced p ([sp].intercalate ws)
  | [], _ => Spaced.nil
  | [w], h => by
    rw [List.intercalate_singleton]
    exact spaced_of_forall (h w List.mem_cons_self).2
  | w :: w' :: ws, h => by
    obtain ⟨hw, hws⟩ := List.forall_mem_cons.1 h
    have ih : Spaced p ([sp].intercalate (w' :: ws)) := spaced_intercalate hws
    have hne : [sp].intercalate (w' :: ws) ≠ [] := by
      have := (hws w' List.mem_cons_self).1
      cases ws <;> simp [List.intercalate_cons_cons, this]
    rw [List.intercalate_cons_cons, List.append_assoc]
    apply (spaced_of_forall hw.2).append hw.1
    · apply List.isChain_cons.2
      exact ⟨fun b hb _ => ih.head b hb, ih.single⟩
    · intro c hc
      rw [List.getLast?_append_of_ne_nil _ hne] at hc
      exact ih.last c hc

/-! ## Cutting -/

/-- A text that begins with a character to be kept keeps it. -/
theorem trim_cons {c : Char} (hc : p c = false) : trim p (c :: cs) = c :: trimRight p cs := by
  rw [trim_eq_trimRight (by simpa using hc)]
  exact trimRight_append_cons hc [] cs

theorem head_trim : ∀ c ∈ (trim p cs).head?, p c = false := by
  intro c hc
  obtain ⟨s, -, hs⟩ := exists_eq_trimRight_append p (cs.dropWhile p)
  have hs : cs.dropWhile p = trim p cs ++ s := hs
  have hne : trim p cs ≠ [] := by
    intro he
    rw [he] at hc
    cases hc
  have hd : (cs.dropWhile p).head? = some c := by
    rw [hs, List.head?_append_of_ne_nil _ hne]
    exact hc
  have hnot := List.head?_dropWhile_not p cs
  rw [hd] at hnot
  simpa using hnot

theorem last_trim : ∀ c ∈ (trim p cs).getLast?, p c = false := by
  intro c hc
  rw [trim, trimRight, List.getLast?_reverse] at hc
  have hnot := List.head?_dropWhile_not p (cs.dropWhile p).reverse
  rw [Option.mem_def.1 hc] at hnot
  simpa using hnot

theorem trim_infix : trim p cs <:+: cs := by
  obtain ⟨s, -, hs⟩ := exists_eq_trimRight_append p (cs.dropWhile p)
  have hpre : trim p cs <+: cs.dropWhile p := ⟨s, hs.symm⟩
  exact hpre.isInfix.trans (List.dropWhile_suffix p).isInfix

/-- A piece of a text with single spaces has single spaces once it is trimmed. -/
theorem Spaced.trim_infix (h : Spaced p cs) (hd : ds <:+: cs) : Spaced p (trim p ds) :=
  ⟨head_trim, last_trim, h.single.infix (Lib.trim_infix.trans hd)⟩

end Lib
