import Mathlib.Data.List.Nodup
import Mytools.Lib.Result

/-!
# The outbox table

The rows of `outbox` with the constraints of its schema: an id that is never used twice, one row
for an aggregate and a sequence number, and an operation out of three. A statement whose result
would break a constraint fails. SQLite checks the uniqueness of `(aggregate_key, sequence)` row by
row, so an update that permutes numbers can fail on the way (`updateRows`).
-/

namespace Bridge

open Lib

/-! ## Errors of the store -/

/-- The errors of the store's operations; `constraint` is a violated constraint of the schema,
`database` any other failure of the database. -/
inductive StoreErr
  | claimLost
  | invalidLease
  | outboxFull
  | purgePending
  | purgeConflict
  | authorMismatch
  | invalidOutboxPayload
  | sourceScopeMismatch
  | noDeleteMapping
  | invalidPurgeDeletion
  | purgeDoesNotCover
  | publisherNotRegistered
  | claimToken
  | constraint
  | database
  deriving DecidableEq, Repr

/-! ## Rows -/

/-- `OutboxOperation` is a string; `other` is any that the schema does not admit. -/
inductive OutboxOperation
  | allowPublisher
  | publishEvent
  | unallowPublisher
  | other (name : String)
  deriving DecidableEq, Repr

/-- The `CHECK` of the column. -/
def OutboxOperation.Known : OutboxOperation → Prop
  | .other _ => False
  | _ => True

instance : DecidablePred OutboxOperation.Known := fun op =>
  match op with
  | .allowPublisher | .publishEvent | .unallowPublisher => .isTrue trivial
  | .other _ => .isFalse id

structure OutboxRow where
  id : Nat
  aggregateKey : String
  sequence : Int
  operation : OutboxOperation
  pubKey : String
  payload : String
  attempts : Nat := 0
  availableAt : Int
  lastError : String := ""
  claimToken : String := ""
  claimedUntil : Int := 0
  deriving DecidableEq, Repr

def OutboxRow.key (r : OutboxRow) : String × Int := (r.aggregateKey, r.sequence)

/-! ## The table -/

/-- The constraints of the schema; the rows are kept in the order of their ids. -/
structure OutboxValid (rows : List OutboxRow) (nextID : Nat) : Prop where
  ids : rows.Pairwise fun r q => r.id < q.id
  fresh : ∀ r ∈ rows, r.id < nextID
  unique : (rows.map OutboxRow.key).Nodup
  known : ∀ r ∈ rows, r.operation.Known

instance (rows : List OutboxRow) (nextID : Nat) : Decidable (OutboxValid rows nextID) :=
  decidable_of_iff (rows.Pairwise (fun r q => r.id < q.id) ∧ (∀ r ∈ rows, r.id < nextID) ∧
      (rows.map OutboxRow.key).Nodup ∧ ∀ r ∈ rows, r.operation.Known)
    ⟨fun ⟨h1, h2, h3, h4⟩ => ⟨h1, h2, h3, h4⟩, fun ⟨h1, h2, h3, h4⟩ => ⟨h1, h2, h3, h4⟩⟩

/-- `nextID` is the `AUTOINCREMENT` counter. -/
structure Outbox where
  rows : List OutboxRow
  nextID : Nat
  valid : OutboxValid rows nextID

namespace Outbox

def empty : Outbox := ⟨[], 1, by decide⟩

/-- The result of a statement, if it keeps the constraints. -/
def ofRows (rows : List OutboxRow) (nextID : Nat) : Except StoreErr Outbox :=
  if h : OutboxValid rows nextID then .ok ⟨rows, nextID, h⟩ else .error .constraint

/-- `INSERT`: `row` is given the next id. -/
def insert (o : Outbox) (row : Nat → OutboxRow) : Except StoreErr Outbox :=
  ofRows (o.rows ++ [{ row o.nextID with id := o.nextID }]) (o.nextID + 1)

/-- `DELETE` of the rows that satisfy `p`. -/
def delete (o : Outbox) (p : OutboxRow → Bool) : Outbox where
  rows := o.rows.filter fun r => !p r
  nextID := o.nextID
  valid :=
    ⟨o.valid.ids.filter _, fun r hr => o.valid.fresh r (List.mem_of_mem_filter hr),
      o.valid.unique.sublist (List.filter_sublist.map _),
      fun r hr => o.valid.known r (List.mem_of_mem_filter hr)⟩

/-- The rows of an `UPDATE`, one after the other; each new row must not have the key of another
row, updated or not. -/
def updateRows (f : OutboxRow → OutboxRow) :
    (done todo : List OutboxRow) → Option (List OutboxRow)
  | done, [] => some done
  | done, r :: todo =>
    if (f r).key ∈ (done ++ todo).map OutboxRow.key then none
    else updateRows f (done ++ [f r]) todo

/-- `UPDATE`: `f` is the new row, or the old one where the statement's condition fails. -/
def update (o : Outbox) (f : OutboxRow → OutboxRow) : Except StoreErr Outbox :=
  match updateRows f [] o.rows with
  | none => .error .constraint
  | some rows => ofRows rows o.nextID

/-! ## Statements that succeed -/

variable {o o' : Outbox} {f : OutboxRow → OutboxRow}

theorem ofRows_ok {rows : List OutboxRow} {n : Nat} (h : ofRows rows n = .ok o) :
    o.rows = rows ∧ o.nextID = n := by
  unfold ofRows at h
  split at h
  · cases h; exact ⟨rfl, rfl⟩
  · cases h

theorem insert_ok {row : Nat → OutboxRow} (h : o.insert row = .ok o') :
    o'.rows = o.rows ++ [{ row o.nextID with id := o.nextID }] ∧ o'.nextID = o.nextID + 1 :=
  ofRows_ok h

theorem updateRows_eq_some : ∀ {todo done rows : List OutboxRow},
    updateRows f done todo = some rows → rows = done ++ todo.map f
  | [], done, rows, h => by
    cases h
    simp
  | r :: todo, done, rows, h => by
    unfold updateRows at h
    split at h
    · cases h
    · rw [updateRows_eq_some h]
      simp

theorem update_ok (h : o.update f = .ok o') : o'.rows = o.rows.map f ∧ o'.nextID = o.nextID := by
  unfold update at h
  split at h
  · cases h
  · rename_i rows hr
    obtain ⟨h1, h2⟩ := ofRows_ok h
    exact ⟨by rw [h1, updateRows_eq_some hr]; rfl, h2⟩

theorem nodup_ids (o : Outbox) : (o.rows.map OutboxRow.id).Nodup :=
  List.pairwise_map.2 (o.valid.ids.imp fun h => Nat.ne_of_lt h)

/-- A row is determined by its id. -/
theorem eq_of_id {r q : OutboxRow} (hr : r ∈ o.rows) (hq : q ∈ o.rows) (h : r.id = q.id) :
    r = q :=
  List.inj_on_of_nodup_map o.nodup_ids hr hq h

/-- A row is determined by its aggregate and its sequence number. -/
theorem eq_of_key {r q : OutboxRow} (hr : r ∈ o.rows) (hq : q ∈ o.rows) (h : r.key = q.key) :
    r = q :=
  List.inj_on_of_nodup_map o.valid.unique hr hq h

end Outbox

end Bridge
