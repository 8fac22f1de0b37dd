import Mytools.Lib.Path

/-!
# Paths taken from the root

A relative path is taken from the root directory (`rooted`): its clean form is some `..`, which lead
nowhere there, and then the elements of the path from the root. `texts_of_overlap` says for which
paths the texts show that one directory contains another.
-/

namespace Lib.Path

def dots : List Char := ['.', '.']

/-- The elements of the absolute path that a path stands for in the root directory. -/
def rooted (p : String) : List (List Char) := elements ("/" ++ p)

/-- How often a relative path climbs before it descends. -/
def climb (p : String) : Nat := ((elements p).takeWhile (· = dots)).length

theorem rooted_eq (p : String) :
    rooted p = ((p.toList.splitOn '/').foldl (push true) []).reverse := by
  have hp : ("/" ++ p).toList = '/' :: p.toList := by
    rw [String.toList_append]
    rfl
  have habs : isAbs ("/" ++ p) = true := isAbs_iff.2 ⟨_, hp⟩
  rw [rooted, elements, habs, hp, List.splitOn_cons_eq_if_modifyHead, if_pos (by simp),
    List.foldl_cons]
  rfl

theorem rooted_of_isAbs {p : String} (h : isAbs p = true) : rooted p = elements p := by
  rw [rooted_eq, elements, h]

theorem kept_rooted (p : String) : ∀ e ∈ rooted p, Kept e :=
  kept_elements (isAbs_iff.2 ⟨p.toList, by rw [String.toList_append]; rfl⟩)

/-- One more element of a relative path: what is below the first `..` goes as in the root. -/
theorem push_relative {a : List (List Char)} (ha : ∀ x ∈ a, x ≠ dots) (n : Nat) (e : List Char) :
    ∃ m, push false (a ++ List.replicate n dots) e = push true a e ++ List.replicate m dots ∧
      ∀ x ∈ push true a e, x ≠ dots := by
  unfold push
  by_cases he : e = [] ∨ e = ['.']
  · exact ⟨n, by rw [if_pos he, if_pos he], by rwa [if_pos he]⟩
  simp only [if_neg he]
  by_cases hd : e = ['.', '.']
  · simp only [if_pos hd]
    cases a with
    | nil =>
      refine ⟨n + 1, ?_, by simp⟩
      cases n with
      | zero => simp [hd, dots]
      | succ n => simp [hd, dots, List.replicate_succ]
    | cons t s =>
      have ht : t ≠ ['.', '.'] := ha t List.mem_cons_self
      refine ⟨n, by simp [ht], ?_⟩
      simp only [ht, if_false]
      exact fun x hx => ha x (List.mem_cons_of_mem _ hx)
  · simp only [if_neg hd]
    refine ⟨n, by simp, fun x hx => ?_⟩
    rcases List.mem_cons.1 hx with rfl | hx
    · exact hd
    · exact ha x hx

theorem foldl_relative : ∀ (es : List (List Char)) {a : List (List Char)} (n : Nat),
    (∀ x ∈ a, x ≠ dots) → ∃ m, es.foldl (push false) (a ++ List.replicate n dots) =
      es.foldl (push true) a ++ List.replicate m dots
  | [], _, n, _ => ⟨n, rfl⟩
  | e :: es, a, n, ha => by
    obtain ⟨k, hk, ha'⟩ := push_relative ha n e
    obtain ⟨m, hm⟩ := foldl_relative es k ha'
    exact ⟨m, by rw [List.foldl_cons, List.foldl_cons, hk, hm]⟩

/-- The elements of a relative path, in order. -/
theorem elements_relative {p : String} (h : isAbs p = false) :
    elements p = List.replicate (climb p) dots ++ rooted p := by
  obtain ⟨m, hm⟩ := foldl_relative (p.toList.splitOn '/') (a := []) 0 (by simp)
  have he : elements p = List.replicate m dots ++ rooted p := by
    rw [elements, h, rooted_eq]
    simpa using congrArg List.reverse hm
  have hc : climb p = m := by
    have htake : (rooted p).takeWhile (· = dots) = [] := by
      cases hr : rooted p with
      | nil => rfl
      | cons e es =>
        have hk := kept_rooted p e (hr ▸ List.mem_cons_self)
        exact List.takeWhile_cons_of_neg fun hd => hk.ne_dots (of_decide_eq_true hd)
    rw [climb, he, List.takeWhile_append_of_pos (by simp), htake]
    simp
  rw [hc, he]

/-! ## Clean texts -/

theorem foldl_dots (n m : Nat) :
    (List.replicate n dots).foldl (push false) (List.replicate m dots) =
      List.replicate (n + m) dots := by
  induction n generalizing m with
  | zero => simp
  | succ n ih =>
    have hp : push false (List.replicate m dots) dots = List.replicate (m + 1) dots := by
      cases m with
      | zero => rfl
      | succ m => rfl
    rw [List.replicate_succ, List.foldl_cons, hp, ih]
    congr 1
    omega

theorem foldl_kept {es : List (List Char)} (h : ∀ e ∈ es, Kept e) (rooted : Bool)
    (stack : List (List Char)) : es.foldl (push rooted) stack = es.reverse ++ stack := by
  induction es generalizing stack with
  | nil => rfl
  | cons e es ih =>
    rw [List.foldl_cons, push_kept (h e List.mem_cons_self),
      ih fun e' h' => h e' (List.mem_cons_of_mem _ h')]
    simp

theorem clean_relative {p : String} (h : isAbs p = false) (hne : elements p ≠ []) :
    (clean p).toList = ['/'].intercalate (elements p) := by
  have htext : ['/'].intercalate (elements p) ≠ [] := by
    obtain ⟨e, es, he⟩ := List.exists_cons_of_ne_nil hne
    have hnil := (ne_nil_of_mem_elements e (he ▸ List.mem_cons_self)).1
    cases es <;> simp [he, List.intercalate_cons_cons, hnil]
  simp [clean, h, htext]

theorem isAbs_clean (p : String) : isAbs (clean p) = isAbs p := by
  cases h : isAbs p with
  | true => exact isAbs_clean_self h
  | false =>
    by_contra hc
    rw [isAbs_of_clean (by simpa using hc)] at h
    cases h

theorem elements_clean (p : String) : elements (clean p) = elements p := by
  cases h : isAbs p with
  | true => exact elements_of_kept (clean_eq h) (kept_elements h)
  | false =>
    by_cases hne : elements p = []
    · have hc : clean p = "." := by simp [clean, h, hne]
      rw [hc, hne]
      rfl
    · have habs : isAbs (clean p) = false := by rw [isAbs_clean, h]
      rw [elements, habs, clean_relative h hne,
        List.splitOn_intercalate '/' (fun e he => (ne_nil_of_mem_elements e he).2) hne,
        elements_relative h, List.foldl_append]
      have hd := foldl_dots (climb p) 0
      rw [List.replicate_zero] at hd
      rw [hd, foldl_kept (kept_rooted p)]
      simp

theorem clean_idem (p : String) : clean (clean p) = clean p := by
  have h : ∀ q, clean q = if (if isAbs q then ['/'] else []) ++ ['/'].intercalate (elements q) = []
      then "." else String.ofList ((if isAbs q then ['/'] else []) ++
        ['/'].intercalate (elements q)) := fun q => rfl
  rw [h (clean p), isAbs_clean, elements_clean, ← h p]

/-! ## Containment -/

/-- One of the directories is the other or contains it. -/
def Overlap (a b : List (List Char)) : Prop := a <+: b ∨ b <+: a

instance (a b : List (List Char)) : Decidable (Overlap a b) := inferInstanceAs (Decidable (_ ∨ _))

theorem Overlap.symm {a b : List (List Char)} (h : Overlap a b) : Overlap b a := Or.symm h

/-- The paths start from the same directory. -/
def Alike (p q : String) : Prop := isAbs p = isAbs q ∧ climb p = climb q

instance (p q : String) : Decidable (Alike p q) := inferInstanceAs (Decidable (_ ∧ _))

theorem intercalate_append {α : Type} (sep : List α) {es fs : List (List α)} (he : es ≠ [])
    (hf : fs ≠ []) :
    sep.intercalate (es ++ fs) = sep.intercalate es ++ sep ++ sep.intercalate fs := by
  induction es with
  | nil => exact absurd rfl he
  | cons e es ih =>
    by_cases hes : es = []
    · subst hes
      rw [List.singleton_append, List.intercalate_cons_of_ne_nil hf, List.intercalate_singleton]
    · rw [List.cons_append, List.intercalate_cons_of_ne_nil (by simp [hes]),
        List.intercalate_cons_of_ne_nil hes, ih hes]
      simp

/-- A path inside another one, neither the root, has its text and a slash as a start. -/
theorem clean_of_prefix {p q : String} (habs : isAbs p = isAbs q) (hne : elements p ≠ [])
    (h : elements p <+: elements q) :
    clean p = clean q ∨ hasPrefix (clean q) (clean p ++ "/") = true := by
  obtain ⟨rest, hrest⟩ := h
  have htext : ∀ r, elements r ≠ [] →
      (clean r).toList = (if isAbs r then ['/'] else []) ++ ['/'].intercalate (elements r) := by
    intro r hr
    cases hra : isAbs r with
    | true => exact clean_eq hra
    | false => exact clean_relative hra hr
  have hq : elements q ≠ [] := by
    rw [← hrest]
    simp [hne]
  by_cases hr : rest = []
  · left
    apply String.toList_injective
    rw [htext p hne, htext q hq, habs, ← hrest, hr, List.append_nil]
  · right
    rw [hasPrefix_iff, String.toList_append, htext p hne, htext q hq, ← habs, ← hrest,
      intercalate_append _ hne hr]
    exact ⟨['/'].intercalate rest, by simp⟩

/-- Paths that are taken from one directory and are not the root overlap as their texts do. -/
theorem texts_of_overlap {p q : String} (h : Alike p q) (hp : rooted p ≠ []) (hq : rooted q ≠ [])
    (ho : Overlap (rooted p) (rooted q)) :
    clean p = clean q ∨ hasPrefix (clean p) (clean q ++ "/") = true ∨
      hasPrefix (clean q) (clean p ++ "/") = true := by
  have hel : ∃ n, elements p = List.replicate n dots ++ rooted p ∧
      elements q = List.replicate n dots ++ rooted q := by
    cases hp : isAbs p with
    | true =>
      exact ⟨0, by simp [rooted_of_isAbs hp], by simp [rooted_of_isAbs (h.1 ▸ hp)]⟩
    | false =>
      exact ⟨climb p, elements_relative hp, by rw [h.2]; exact elements_relative (h.1 ▸ hp)⟩
  obtain ⟨n, hep, heq⟩ := hel
  rcases ho with ho | ho
  · have hpre : elements p <+: elements q := by
      rw [hep, heq]
      exact (List.prefix_append_right_inj _).2 ho
    rcases clean_of_prefix h.1 (by simp [hep, hp]) hpre with he | he
    · exact .inl he
    · exact .inr (.inr he)
  · have hpre : elements q <+: elements p := by
      rw [hep, heq]
      exact (List.prefix_append_right_inj _).2 ho
    rcases clean_of_prefix h.1.symm (by simp [heq, hq]) hpre with he | he
    · exact .inl he.symm
    · exact .inr (.inl he)

end Lib.Path
