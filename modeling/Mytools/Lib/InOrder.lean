import Mathlib.Data.List.Pairwise
import Mathlib.Data.List.Sort

/-!
# Rows in sequence order

`inOrder seq l`: the rows of `l` in the order of their sequence numbers. When the numbers are
distinct, this is the only strictly increasing arrangement of `l` (`inOrder_eq`), which gives the
view after an insertion at the end, a deletion, and a renumbering that keeps the order.
-/

namespace Lib

variable {α : Type} {seq : α → Int} {l l' : List α}

def inOrder (seq : α → Int) (l : List α) : List α := l.insertionSort fun a b => seq a ≤ seq b

/-- No two rows have the same number. -/
def Distinct (seq : α → Int) (l : List α) : Prop := l.Pairwise fun a b => seq a ≠ seq b

theorem inOrder_perm : (inOrder seq l).Perm l := List.perm_insertionSort _ _

@[simp] theorem mem_inOrder {a : α} : a ∈ inOrder seq l ↔ a ∈ l := inOrder_perm.mem_iff

theorem Distinct.perm (h : Distinct seq l) (hp : l.Perm l') : Distinct seq l' :=
  (hp.pairwise_iff fun hne => Ne.symm hne).1 h

theorem Distinct.inj (h : Distinct seq l) {a b : α} (ha : a ∈ l) (hb : b ∈ l)
    (he : seq a = seq b) : a = b := by
  have hsymm : Std.Symm fun a b : α => seq a ≠ seq b := ⟨fun _ _ hn => Ne.symm hn⟩
  by_contra hne
  exact List.Pairwise.forall h ha hb hne he

theorem inOrder_sorted (h : Distinct seq l) : (inOrder seq l).Pairwise (seq · < seq ·) := by
  have htotal : Std.Total fun a b : α => seq a ≤ seq b := ⟨fun a b => Int.le_total _ _⟩
  have htrans : IsTrans α fun a b => seq a ≤ seq b := ⟨fun _ _ _ => Int.le_trans⟩
  have hle : (inOrder seq l).Pairwise (seq · ≤ seq ·) := List.pairwise_insertionSort _ l
  refine (hle.and (h.perm inOrder_perm.symm)).imp fun h => ?_
  omega

/-- In an increasing list, what holds between each row and those after it holds between rows with
increasing numbers. -/
theorem rel_of_lt {R : α → α → Prop} (hs : l.Pairwise (seq · < seq ·)) (hr : l.Pairwise R) {a b : α}
    (ha : a ∈ l) (hb : b ∈ l) (hlt : seq a < seq b) : R a b := by
  induction l with
  | nil => cases ha
  | cons x l ih =>
    obtain ⟨hx, hs⟩ := List.pairwise_cons.1 hs
    obtain ⟨hxr, hr⟩ := List.pairwise_cons.1 hr
    rcases List.mem_cons.1 ha with rfl | ha'
    · rcases List.mem_cons.1 hb with rfl | hb'
      · omega
      · exact hxr b hb'
    · rcases List.mem_cons.1 hb with rfl | hb'
      · have := hx a ha'
        omega
      · exact ih hs hr ha' hb'

/-- The only increasing arrangement. -/
theorem inOrder_eq (hp : l'.Perm l) (hs : l'.Pairwise (seq · < seq ·)) : inOrder seq l = l' := by
  have hd : Distinct seq l := Distinct.perm (hs.imp fun h => by omega) hp
  refine (inOrder_perm.trans hp.symm).eq_of_pairwise ?_ (inOrder_sorted hd) hs
  intro a b _ _ hab hba
  omega

theorem inOrder_append (h : Distinct seq l) {r : α} (hr : ∀ x ∈ l, seq x < seq r) :
    inOrder seq (l ++ [r]) = inOrder seq l ++ [r] := by
  refine inOrder_eq (inOrder_perm.append_right _) ?_
  rw [List.pairwise_append]
  refine ⟨inOrder_sorted h, List.pairwise_singleton _ _, ?_⟩
  intro x hx y hy
  rw [List.mem_singleton.1 hy]
  exact hr x (mem_inOrder.1 hx)

theorem inOrder_filter (h : Distinct seq l) (p : α → Bool) :
    inOrder seq (l.filter p) = (inOrder seq l).filter p :=
  inOrder_eq (inOrder_perm.filter p) ((inOrder_sorted h).filter p)

/-- A renumbering that keeps the order. -/
theorem inOrder_map {β : Type} {seq' : β → Int} (h : Distinct seq l) {g : α → β}
    (hg : ∀ x ∈ l, ∀ y ∈ l, seq x < seq y → seq' (g x) < seq' (g y)) :
    inOrder seq' (l.map g) = (inOrder seq l).map g := by
  refine inOrder_eq (inOrder_perm.map g) ?_
  rw [List.pairwise_map]
  exact (inOrder_sorted h).imp_of_mem fun hx hy hlt =>
    hg _ (mem_inOrder.1 hx) _ (mem_inOrder.1 hy) hlt

/-- The row with the lowest number comes first. -/
theorem inOrder_eq_cons (h : Distinct seq l) {r : α} (hr : r ∈ l) (hmin : ∀ x ∈ l, seq r ≤ seq x) :
    ∃ rest, inOrder seq l = r :: rest := by
  cases he : inOrder seq l with
  | nil =>
    have hm : r ∈ inOrder seq l := mem_inOrder.2 hr
    simp [he] at hm
  | cons a rest =>
    have hs := inOrder_sorted h
    rw [he, List.pairwise_cons] at hs
    have ha : a ∈ l := mem_inOrder.1 (he ▸ List.mem_cons_self)
    have hra : r ∈ a :: rest := he ▸ mem_inOrder.2 hr
    refine ⟨rest, ?_⟩
    rcases List.mem_cons.1 hra with rfl | hm
    · rfl
    · have := hs.1 r hm
      have := hmin a ha
      omega

end Lib
