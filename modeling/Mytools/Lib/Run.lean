import Mathlib.Data.List.Basic

/-!
# Labelled runs

`Runs step s ls t`: the steps labelled `ls`, taken in order, lead from `s` to `t`. A run grows at
its end, so an invariant is carried by induction on the run itself (`Runs.inv`). A condition on the
steps of a run is put into the step relation.
-/

namespace Lib

variable {S L : Type*}

inductive Runs (step : S → L → S → Prop) (s : S) : List L → S → Prop
  | nil : Runs step s [] s
  | snoc {ls : List L} {l : L} {t u : S} :
      Runs step s ls t → step t l u → Runs step s (ls ++ [l]) u

/-- Where a list that has grown at its end can be cut. -/
theorem snoc_eq_append_cons {α : Type*} {l pre post : List α} {a x : α}
    (h : l ++ [a] = pre ++ x :: post) :
    (pre = l ∧ x = a ∧ post = []) ∨ ∃ mid, post = mid ++ [a] ∧ l = pre ++ x :: mid := by
  rcases List.eq_nil_or_concat post with rfl | ⟨mid, y, rfl⟩
  · obtain ⟨hl, hx⟩ := List.append_inj' h rfl
    exact .inl ⟨hl.symm, (List.singleton_inj.1 hx).symm, rfl⟩
  · rw [List.concat_eq_append, ← List.cons_append, ← List.append_assoc] at h
    obtain ⟨hl, hx⟩ := List.append_inj' h rfl
    exact .inr ⟨mid, by rw [List.concat_eq_append, List.singleton_inj.1 hx], hl⟩

namespace Runs

variable {step step' : S → L → S → Prop} {s t u : S} {ls ks : List L} {l : L}

theorem one (h : step s l t) : Runs step s [l] t := by
  simpa using Runs.nil.snoc h

theorem append (h : Runs step s ls t) (k : Runs step t ks u) : Runs step s (ls ++ ks) u := by
  induction k with
  | nil => simpa using h
  | snoc _ hs ih => rw [← List.append_assoc]; exact ih.snoc hs

/-- An invariant kept by every step holds at the end of every run. -/
theorem inv {I : S → Prop} (hs : ∀ s l t, I s → step s l t → I t) (h : Runs step s ls t)
    (h0 : I s) : I t := by
  induction h with
  | nil => exact h0
  | snoc _ hl ih => exact hs _ _ _ ih hl

theorem mono (hs : ∀ s l t, step s l t → step' s l t) (h : Runs step s ls t) :
    Runs step' s ls t := by
  induction h with
  | nil => exact .nil
  | snoc _ hl ih => exact ih.snoc (hs _ _ _ hl)

end Runs

end Lib
