import Mathlib.Data.List.Forall2

/-!
# Lists related element by element

A member of one of two related lists has a partner in the other.
-/

namespace Lib

variable {α β : Type _} {r : α → β → Prop} {as : List α} {bs : List β}

theorem forall₂_mem_left (h : List.Forall₂ r as bs) {a : α} (ha : a ∈ as) : ∃ b ∈ bs, r a b := by
  induction h with
  | nil => simp at ha
  | cons hab _ ih =>
    rcases List.mem_cons.1 ha with rfl | ha
    · exact ⟨_, List.mem_cons_self, hab⟩
    · obtain ⟨b, hb, hr⟩ := ih ha
      exact ⟨b, List.mem_cons_of_mem _ hb, hr⟩

theorem forall₂_mem_right (h : List.Forall₂ r as bs) {b : β} (hb : b ∈ bs) : ∃ a ∈ as, r a b :=
  forall₂_mem_left h.flip hb

/-- A relation may be weakened with the knowledge of what stands on the right. -/
theorem forall₂_imp_mem {s : α → β → Prop} (h : List.Forall₂ r as bs)
    (himp : ∀ a, ∀ b ∈ bs, r a b → s a b) : List.Forall₂ s as bs := by
  induction h with
  | nil => exact .nil
  | cons hab _ ih =>
    exact .cons (himp _ _ List.mem_cons_self hab)
      (ih fun a b hb => himp a b (List.mem_cons_of_mem _ hb))

theorem forall₂_and {s : α → β → Prop} (h : List.Forall₂ r as bs) (h' : List.Forall₂ s as bs) :
    List.Forall₂ (fun a b => r a b ∧ s a b) as bs := by
  induction h with
  | nil => exact .nil
  | cons hab _ ih =>
    cases h' with
    | cons hab' ht' => exact .cons ⟨hab, hab'⟩ (ih ht')

end Lib
