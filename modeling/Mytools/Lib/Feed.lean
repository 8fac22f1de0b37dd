import Mathlib.Data.List.Basic
import Mathlib.Logic.Relation

/-!
# Reading a feed with a stored cursor

A consumer reads the items of a log in the order of their times. It stores the time of an item as
its cursor with the work for the item, and connects again from the cursor it has stored, or from
before it. Items may be handled twice, and a cursor may go back; but no stored cursor has passed an
item that is not handled (`Consumer.covered`).
-/

namespace Lib

/-- `stored` are the cursors stored so far, the newest first. An item that is handled is kept with
the cursors that had been stored before. -/
structure Consumer (α : Type) where
  stored : List Int := []
  done : List (α × List Int) := []
  /-- What the connection still delivers. -/
  feed : Option (List α) := none

namespace Consumer

variable {α : Type} (time : α → Int) (log : List α)

/-- A connection from `start`: every item since then, in order. -/
structure Delivers (start : Int) (feed : List α) : Prop where
  sorted : feed.Pairwise fun x y => time x ≤ time y
  mem : ∀ x ∈ feed, x ∈ log
  since : ∀ x ∈ feed, start ≤ time x
  complete : ∀ x ∈ log, start ≤ time x → x ∈ feed

inductive Step : Consumer α → Consumer α → Prop
  | connect {c : Consumer α} {start : Int} {feed : List α} (h : Delivers time log start feed)
      (hs : ∀ v ∈ c.stored.head?, start ≤ v) : Step c { c with feed := some feed }
  /-- The item is handled, and its time is stored. -/
  | handle {c : Consumer α} {x : α} {rest : List α} (h : c.feed = some (x :: rest)) :
      Step c ⟨time x :: c.stored, (x, c.stored) :: c.done, some rest⟩
  /-- The time of the item is stored, but the consumer does not learn of it. -/
  | lose {c : Consumer α} {x : α} {rest : List α} (h : c.feed = some (x :: rest)) :
      Step c ⟨time x :: c.stored, c.done, none⟩
  | drop {c : Consumer α} : Step c { c with feed := none }

/-- The item was handled before any later cursor was stored. -/
def Done (c : Consumer α) (x : α) : Prop := ∃ d ∈ c.done, d.1 = x ∧ ∀ v ∈ d.2, v ≤ time x

/-- What the connection still delivers is sorted, and with what is handled it is complete since the
first cursor. Before there is a cursor, it is complete from its start. -/
structure Pending (c : Consumer α) (feed : List α) : Prop where
  sorted : feed.Pairwise fun x y => time x ≤ time y
  mem : ∀ x ∈ feed, x ∈ log
  complete : ∀ first, c.stored.getLast? = some first → ∀ x ∈ log, first < time x →
    c.Done time x ∨ x ∈ feed
  fresh : c.stored = [] → ∃ start, Delivers time log start feed

structure Inv (c : Consumer α) : Prop where
  covered : ∀ first, c.stored.getLast? = some first → ∀ x ∈ log, first < time x →
    ∀ v ∈ c.stored, time x < v → c.Done time x
  pending : ∀ feed, c.feed = some feed → c.Pending time log feed

variable {time log} {c c' : Consumer α} {x : α} {rest : List α}

theorem Inv.init : Inv time log {} where
  covered := by intro first h; cases h
  pending := by intro feed h; cases h

/-- The first cursor stays the first. -/
theorem getLast?_stored {v first : Int} {stored : List Int}
    (h : (v :: stored).getLast? = some first) :
    (stored = [] ∧ first = v) ∨ stored.getLast? = some first := by
  cases stored with
  | nil => exact .inl ⟨rfl, (Option.some.inj h).symm⟩
  | cons u us => exact .inr (by rwa [List.getLast?_cons_cons] at h)

/-- When the time of the next item is stored, what it passes is handled. -/
theorem Inv.covered_next (hi : Inv time log c) (h : c.feed = some (x :: rest)) {first : Int}
    (hf : (time x :: c.stored).getLast? = some first) {y : α} (hy : y ∈ log)
    (hlt : first < time y) {v : Int} (hv : v ∈ time x :: c.stored) (hyv : time y < v) :
    c.Done time y := by
  rcases getLast?_stored hf with ⟨he, rfl⟩ | hf
  · rw [he, List.mem_singleton] at hv
    omega
  rcases List.mem_cons.1 hv with rfl | hv
  · -- an item that is neither handled nor next comes after the next one
    have hp := hi.pending _ h
    rcases hp.complete first hf y hy hlt with hd | hy'
    · exact hd
    rcases List.mem_cons.1 hy' with rfl | hy'
    · omega
    · have := (List.pairwise_cons.1 hp.sorted).1 y hy'
      omega
  · exact hi.covered first hf y hy hlt v hv hyv

theorem Inv.handle (hi : Inv time log c) (h : c.feed = some (x :: rest)) :
    Inv time log ⟨time x :: c.stored, (x, c.stored) :: c.done, some rest⟩ := by
  have hmono : ∀ y, c.Done time y →
      Done time ⟨time x :: c.stored, (x, c.stored) :: c.done, some rest⟩ y := by
    rintro y ⟨d, hd, he, hv⟩
    exact ⟨d, List.mem_cons_of_mem _ hd, he, hv⟩
  have hp := hi.pending _ h
  constructor
  · intro first hf y hy hlt v hv hyv
    exact hmono y (hi.covered_next h hf hy hlt hv hyv)
  · intro feed hfeed
    cases hfeed
    refine ⟨hp.sorted.tail, fun y hy => hp.mem y (List.mem_cons_of_mem _ hy), ?_, ?_⟩
    · intro first hf y hy hlt
      rcases getLast?_stored hf with ⟨he, rfl⟩ | hf'
      · -- the connection was complete from a start that is not after the next item
        obtain ⟨start, hs⟩ := hp.fresh he
        have hx := hs.since x List.mem_cons_self
        rcases List.mem_cons.1 (hs.complete y hy (by omega)) with rfl | hy'
        · omega
        · exact .inr hy'
      · rcases hp.complete first hf' y hy hlt with hd | hy'
        · exact .inl (hmono y hd)
        rcases List.mem_cons.1 hy' with rfl | hy'
        · left
          by_cases hv : ∀ v ∈ c.stored, v ≤ time y
          · exact ⟨_, List.mem_cons_self, rfl, hv⟩
          · simp only [not_forall, Int.not_le] at hv
            obtain ⟨v, hv, hyv⟩ := hv
            exact hmono y (hi.covered first hf' y hy hlt v hv hyv)
        · exact .inr hy'
    · intro he
      cases he

theorem Inv.step (hi : Inv time log c) (h : Step time log c c') : Inv time log c' := by
  cases h with
  | @connect start feed h hs =>
    refine ⟨hi.covered, ?_⟩
    intro feed' hfeed
    cases hfeed
    refine ⟨h.sorted, h.mem, ?_, fun _ => ⟨start, h⟩⟩
    intro first hf y hy hlt
    obtain ⟨v, vs, he⟩ : ∃ v vs, c.stored = v :: vs := by
      cases hc : c.stored with
      | nil => rw [hc] at hf; cases hf
      | cons v vs => exact ⟨v, vs, rfl⟩
    have hv := hs v (by rw [he]; rfl)
    by_cases hst : start ≤ time y
    · exact .inr (h.complete y hy hst)
    · exact .inl (hi.covered first hf y hy hlt v (by rw [he]; exact List.mem_cons_self) (by omega))
  | handle h => exact hi.handle h
  | lose h =>
    refine ⟨fun first hf y hy hlt v hv hyv => hi.covered_next h hf hy hlt hv hyv, ?_⟩
    intro feed hfeed
    cases hfeed
  | drop =>
    refine ⟨hi.covered, ?_⟩
    intro feed hfeed
    cases hfeed

/-- No stored cursor has passed an item that is not handled. -/
theorem covered {first v : Int} (hr : Relation.ReflTransGen (Step time log) {} c)
    (hf : c.stored.getLast? = some first) (hv : v ∈ c.stored) (hx : x ∈ log)
    (hlt : first < time x) (hxv : time x < v) : c.Done time x := by
  have hi : Inv time log c := by
    clear hf hv
    induction hr with
    | refl => exact .init
    | tail _ h ih => exact ih.step h
  exact hi.covered first hf x hx hlt v hv hxv

end Consumer

end Lib
