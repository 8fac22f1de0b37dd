import Mytools.Lib.Text

/-!
# Records of fields

A sequence of records is written as its fields, each with a mark at its end. The records are found
again if no field holds the mark, the records of a kind have one length and the first field says of
which kind a record is.
-/

namespace Lib

/-- Texts one after the other, each with a mark at its end. -/
def terminated {α : Type _} (mark : α) (fields : List (List α)) : List α :=
  fields.flatMap (· ++ [mark])

/-- Texts without the mark are found again. -/
theorem terminated_injective {α : Type _} {mark : α} : ∀ {fs gs : List (List α)},
    (∀ f ∈ fs, mark ∉ f) → (∀ g ∈ gs, mark ∉ g) → terminated mark fs = terminated mark gs → fs = gs
  | [], [], _, _, _ => rfl
  | [], g :: gs, _, _, h => by simp [terminated] at h
  | f :: fs, [], _, _, h => by simp [terminated] at h
  | f :: fs, g :: gs, hf, hg, h => by
    simp only [terminated, List.flatMap_cons, List.append_assoc, List.singleton_append] at h
    obtain ⟨he, hr⟩ := cut_first (hf f List.mem_cons_self) (hg g List.mem_cons_self) h
    rw [he, terminated_injective (fun f hm => hf f (List.mem_cons_of_mem _ hm))
      (fun g hm => hg g (List.mem_cons_of_mem _ hm)) hr]

/-- Records of one length, one after the other, are found again. -/
theorem flatMap_injective {α γ : Type _} {f : α → List γ} {n : Nat}
    (hlen : ∀ a, (f a).length = n + 1) (hinj : Function.Injective f) :
    ∀ {xs xs' : List α}, xs.flatMap f = xs'.flatMap f → xs = xs'
  | [], [], _ => rfl
  | [], x :: xs, h => by
    have hl := congrArg List.length h
    simp only [List.flatMap_cons, List.flatMap_nil, List.length_nil, List.length_append, hlen] at hl
    omega
  | x :: xs, [], h => by
    have hl := congrArg List.length h
    simp only [List.flatMap_cons, List.flatMap_nil, List.length_nil, List.length_append, hlen] at hl
    omega
  | x :: xs, x' :: xs', h => by
    rw [List.flatMap_cons, List.flatMap_cons] at h
    obtain ⟨he, hr⟩ := List.append_inj h (by rw [hlen, hlen])
    rw [hinj he, flatMap_injective hlen hinj hr]

/-- So are records of two kinds, if the first field tells them apart. -/
theorem records_injective {α β γ : Type _} {f : α → List γ} {g : β → List γ} {m n : Nat}
    (hf : ∀ a, (f a).length = m + 1) (hg : ∀ b, (g b).length = n + 1)
    (hfi : Function.Injective f) (hgi : Function.Injective g)
    (hne : ∀ a b, (f a).head? ≠ (g b).head?) : ∀ {xs xs' : List α} {ys ys' : List β},
    xs.flatMap f ++ ys.flatMap g = xs'.flatMap f ++ ys'.flatMap g → xs = xs' ∧ ys = ys' := by
  have hhead : ∀ a (l : List γ), (f a ++ l).head? = (f a).head? := fun a l =>
    List.head?_append_of_ne_nil _ fun h => absurd (hf a) (by simp [h])
  have hghead : ∀ b (l : List γ), (g b ++ l).head? = (g b).head? := fun b l =>
    List.head?_append_of_ne_nil _ fun h => absurd (hg b) (by simp [h])
  have hstart : ∀ (a : α) (xs : List α) (ys ys' : List β),
      ys.flatMap g ≠ (a :: xs).flatMap f ++ ys'.flatMap g := by
    intro a xs ys ys' h
    rw [List.flatMap_cons, List.append_assoc] at h
    cases ys with
    | nil =>
      have hl := congrArg List.length h
      simp only [List.flatMap_nil, List.length_nil, List.length_append, hf] at hl
      omega
    | cons b ys =>
      rw [List.flatMap_cons] at h
      have hh := congrArg List.head? h
      rw [hhead, hghead] at hh
      exact hne a b hh.symm
  intro xs
  induction xs with
  | nil =>
    intro xs' ys ys' h
    cases xs' with
    | nil => exact ⟨rfl, flatMap_injective hg hgi h⟩
    | cons a xs' => exact absurd h (hstart a xs' ys ys')
  | cons a xs ih =>
    intro xs' ys ys' h
    cases xs' with
    | nil => exact absurd h.symm (hstart a xs ys' ys)
    | cons a' xs' =>
      rw [List.flatMap_cons, List.flatMap_cons, List.append_assoc, List.append_assoc] at h
      obtain ⟨he, hr⟩ := List.append_inj h (by rw [hf, hf])
      obtain ⟨hxs, hys⟩ := ih hr
      exact ⟨by rw [hfi he, hxs], hys⟩

end Lib
