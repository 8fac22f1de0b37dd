import Mathlib.Data.List.Nodup

/-!
# Updates with a unique key

A statement that updates the rows of a table one after the other, in an order that is not its own
choice, with a uniqueness constraint that is checked after every single row. `Apart` says that no
new key meets an old or a new key of another row; then the statement succeeds in every order
(`run_of_apart`).
-/

namespace Lib.Update

variable {ρ ι κ : Type} [DecidableEq ι] [DecidableEq κ] (id : ρ → ι) (key : ρ → κ) (f : ρ → ρ)

/-- The rows after a visit of row `i`. -/
def visit (i : ι) (rows : List ρ) : List ρ := rows.map fun r => if id r = i then f r else r

/-- The visits of a statement; it fails at the first one after which two rows have one key. -/
def run : (order : List ι) → (rows : List ρ) → Option (List ρ)
  | [], rows => some rows
  | i :: order, rows =>
    if ((visit id f i rows).map key).Nodup then run order (visit id f i rows) else none

/-- The rows after the visits of `done`, if each row keeps its id. -/
def visited (done : List ι) (rows : List ρ) : List ρ :=
  rows.map fun r => if id r ∈ done then f r else r

/-- Different rows have different keys, before and after the update, and one before the other. -/
structure Apart (rows : List ρ) : Prop where
  old : ∀ r ∈ rows, ∀ q ∈ rows, id r ≠ id q → key r ≠ key q
  new : ∀ r ∈ rows, ∀ q ∈ rows, id r ≠ id q → key (f r) ≠ key (f q)
  cross : ∀ r ∈ rows, ∀ q ∈ rows, id r ≠ id q → key (f r) ≠ key q

variable {id key f} {rows : List ρ} {order done : List ι}

theorem visited_nil : visited id f [] rows = rows := by
  simp [visited]

theorem visit_visited (hid : ∀ r, id (f r) = id r) {i : ι} (hi : i ∉ done) :
    visit id f i (visited id f done rows) = visited id f (done ++ [i]) rows := by
  simp only [visit, visited, List.map_map]
  apply List.map_congr_left
  intro r _
  simp only [Function.comp_apply, List.mem_append, List.mem_singleton]
  by_cases hd : id r ∈ done
  · have hne : id r ≠ i := fun he => hi (he ▸ hd)
    simp [hd, hid, hne]
  · simp [hd]

omit [DecidableEq κ] in
/-- The rows that are visited have their new keys, the others their old ones; no two agree. -/
theorem Apart.nodup_visited (h : Apart id key f rows) (hids : (rows.map id).Nodup) :
    ((visited id f done rows).map key).Nodup := by
  rw [visited, List.map_map]
  apply List.pairwise_map.2
  apply (List.pairwise_map.1 hids).imp_of_mem
  intro r q hr hq hne
  simp only [Function.comp_apply]
  split <;> split
  · exact h.new r hr q hq hne
  · exact h.cross r hr q hq hne
  · exact (h.cross q hq r hr (Ne.symm hne)).symm
  · exact h.old r hr q hq hne

theorem run_visited (h : Apart id key f rows) (hids : (rows.map id).Nodup)
    (hid : ∀ r, id (f r) = id r) (hn : (done ++ order).Nodup) :
    run id key f order (visited id f done rows) = some (visited id f (done ++ order) rows) := by
  -- On the rows still to be visited; `done` grows by the row of each visit.
  induction order generalizing done with
  | nil => simp [run]
  | cons i order ih =>
    have hi : i ∉ done := fun hd => (List.nodup_append.1 hn).2.2 i hd i List.mem_cons_self rfl
    have happ : done ++ i :: order = (done ++ [i]) ++ order := by simp
    rw [run, visit_visited hid hi, if_pos (h.nodup_visited hids), happ]
    exact ih (happ ▸ hn)

/-- Whatever the order, the statement succeeds and has the same result, if it visits every row that
it changes. -/
theorem run_of_apart (h : Apart id key f rows) (hids : (rows.map id).Nodup)
    (hid : ∀ r, id (f r) = id r) (hn : order.Nodup) (hall : ∀ r ∈ rows, f r ≠ r → id r ∈ order) :
    run id key f order rows = some (rows.map f) := by
  have hrun : run id key f order (visited id f [] rows) = some (visited id f ([] ++ order) rows) :=
    run_visited h hids hid hn
  rw [visited_nil, List.nil_append] at hrun
  rw [hrun]
  apply congrArg some
  apply List.map_congr_left
  intro r hr
  split
  · rfl
  · next hv => exact (Classical.not_not.1 fun hc => hv (hall r hr hc)).symm

end Lib.Update
