import Mathlib.Data.List.Basic
import Mathlib.Logic.Function.Basic

/-!
# Keyed first-in first-out queues

One queue for each key, and the operations on them as data: append items at the tails, remove a
head, put several items in the place of a head. A `Ledger` keeps, beside the queues, everything
that was appended and everything that was removed. `Conserved`: what was removed and what still
waits, in this order, is what was appended, up to items put in by an expansion (`Conserved.apply`).
-/

namespace Lib

variable {K A : Type} [DecidableEq K] [DecidableEq A]

inductive QueueOp (K A : Type)
  | append (items : List (K × A))
  | pop (k : K)
  /-- The head of the queue, which must be `a`, gives way to `new`. -/
  | expand (k : K) (a : A) (new : List A)

namespace QueueOp

/-- What the operation appends to a queue. -/
def appended : QueueOp K A → K → List A
  | append items, k => (items.filter (·.1 = k)).map (·.2)
  | _, _ => []

/-- What the operation removes from a queue for good. -/
def removed (q : K → List A) : QueueOp K A → K → List A
  | pop k', k => if k = k' then (q k).take 1 else []
  | _, _ => []

/-- The queues after the operation, if the head that it needs is there. -/
def apply (q : K → List A) : QueueOp K A → Option (K → List A)
  | append items => some fun k => q k ++ (append items).appended k
  | pop k =>
    match q k with
    | [] => none
    | _ :: rest => some (Function.update q k rest)
  | expand k a new =>
    match q k with
    | [] => none
    | b :: rest => if b = a then some (Function.update q k (new ++ rest)) else none

/-- One queue before and after the operation. -/
theorem apply_cases {q q' : K → List A} {op : QueueOp K A} (h : op.apply q = some q') (k : K) :
    q' k = q k ++ op.appended k ∨ (op = pop k ∧ ∃ a, q k = a :: q' k) ∨
      ∃ a new rest, op = expand k a new ∧ q k = a :: rest ∧ q' k = new ++ rest := by
  cases op with
  | append items =>
    cases h
    exact .inl rfl
  | pop k' =>
    simp only [apply] at h
    split at h
    · cases h
    rename_i a rest hr
    cases h
    by_cases hk : k = k'
    · subst hk
      exact .inr (.inl ⟨rfl, a, by rw [hr, Function.update_self]⟩)
    · exact .inl (by simp [appended, Function.update_of_ne hk])
  | expand k' a new =>
    simp only [apply] at h
    split at h
    · cases h
    rename_i b rest hr
    split at h
    swap
    · cases h
    rename_i hba
    cases h
    by_cases hk : k = k'
    · subst hk hba
      exact .inr (.inr ⟨b, new, rest, rfl, hr, Function.update_self ..⟩)
    · exact .inl (by simp [appended, Function.update_of_ne hk])

/-- The head stays among the items that replace it, and they have no other that satisfies `p`. -/
def Keeps (p : A → Bool) : QueueOp K A → Prop
  | expand _ a new => [a].Sublist new ∧ new.filter p = [a].filter p
  | _ => True

end QueueOp

structure Ledger (K A : Type) where
  queues : K → List A
  appended : K → List A
  removed : K → List A

namespace Ledger

def empty : Ledger K A := ⟨fun _ => [], fun _ => [], fun _ => []⟩

def apply (L : Ledger K A) (op : QueueOp K A) : Option (Ledger K A) :=
  (op.apply L.queues).map fun queues =>
    ⟨queues, fun k => L.appended k ++ op.appended k, fun k => L.removed k ++ op.removed L.queues k⟩

/-- Nothing is lost, nothing comes twice and nothing overtakes: of the items that satisfy `p`,
those removed and those waiting are exactly those appended, in order; and the others that were
appended are still there in order. -/
def Conserved (p : A → Bool) (L : Ledger K A) : Prop :=
  ∀ k, (L.appended k).Sublist (L.removed k ++ L.queues k) ∧
    (L.removed k ++ L.queues k).filter p = (L.appended k).filter p

variable {p : A → Bool} {L L' : Ledger K A} {op : QueueOp K A}

omit [DecidableEq K] [DecidableEq A] in
theorem conserved_empty : (empty : Ledger K A).Conserved p := fun _ => ⟨.refl _, rfl⟩

theorem Conserved.apply (h : L.Conserved p) (hk : op.Keeps p) (ha : L.apply op = some L') :
    L'.Conserved p := by
  obtain ⟨q, hq, rfl⟩ := Option.map_eq_some_iff.1 ha
  intro k
  obtain ⟨hs, hf⟩ := h k
  cases op with
  | append items =>
    cases hq
    simp only [QueueOp.removed, List.append_nil]
    rw [← List.append_assoc]
    exact ⟨hs.append (.refl _), by rw [List.filter_append, hf, List.filter_append]⟩
  | pop k' =>
    simp only [QueueOp.apply] at hq
    split at hq
    · cases hq
    rename_i a rest hr
    cases hq
    -- the head moves from the front of the queue to the end of what was removed
    have hmove : (L.removed k ++ (QueueOp.pop k').removed L.queues k) ++
        Function.update L.queues k' rest k = L.removed k ++ L.queues k := by
      simp only [QueueOp.removed]
      by_cases hkk : k = k'
      · subst hkk
        simp [hr]
      · simp [hkk]
    simp only [QueueOp.appended, List.append_nil]
    rw [hmove]
    exact ⟨hs, hf⟩
  | expand k' a new =>
    simp only [QueueOp.apply] at hq
    split at hq
    · cases hq
    rename_i b rest hr
    split at hq
    swap
    · cases hq
    rename_i hba
    cases hq
    subst hba
    simp only [QueueOp.appended, QueueOp.removed, List.append_nil]
    by_cases hkk : k = k'
    · subst hkk
      rw [hr] at hs hf
      rw [Function.update_self]
      constructor
      · refine hs.trans (List.Sublist.append_left ?_ _)
        exact hk.1.append (.refl rest)
      · rw [← hf]
        simp only [List.filter_append, hk.2, List.filter_cons]
        split <;> simp
    · rw [Function.update_of_ne hkk]
      exact ⟨hs, hf⟩

end Ledger

end Lib
