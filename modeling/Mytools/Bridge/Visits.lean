import Mathlib.Data.List.Dedup
import Mytools.Bridge.StoreOps
import Mytools.Lib.Update

/-!
# Updates of the outbox in any order

SQLite visits the rows of an `UPDATE` in the order of the index or the table scan that its planner
chose, and checks `UNIQUE(aggregate_key, sequence)` after each of them. `Outbox.update` visits them
in the order of their ids; here the order is left open, and the recovery of a registration is
written over it.
-/

namespace Bridge

open Lib

/-- The order in which a statement visits the rows of the outbox, by their ids: none twice, and
every row that it changes. -/
structure Plan (f : OutboxRow → OutboxRow) where
  order : List OutboxRow → List Nat
  once : ∀ rows, (order rows).Nodup
  complete : ∀ rows, ∀ r ∈ rows, f r ≠ r → r.id ∈ order rows

/-- The order of the ids. -/
def Plan.byID (f : OutboxRow → OutboxRow) : Plan f where
  order rows := (rows.map OutboxRow.id).dedup
  once _ := List.nodup_dedup _
  complete _ _ hr _ := List.mem_dedup.2 (List.mem_map_of_mem hr)

/-- `UPDATE`, in the order of the plan. -/
def Outbox.updateIn (o : Outbox) {f : OutboxRow → OutboxRow} (p : Plan f) :
    Except StoreErr Outbox :=
  match Update.run OutboxRow.id OutboxRow.key f (p.order o.rows) o.rows with
  | none => .error .constraint
  | some rows => ofRows rows o.nextID

namespace OutboxTables

def updateOutboxIn (t : OutboxTables) {f : OutboxRow → OutboxRow} (p : Plan f) :
    Except StoreErr OutboxTables := do
  let outbox ← t.outbox.updateIn p
  pure { t with outbox }

/-- A plan for each update of `RecoverPublisherRegistration`, whatever its arguments. -/
structure RecoverPlans where
  reset : ∀ availableAt id, Plan (resetRejectedPublishAsRegistration availableAt id)
  negate : ∀ aggregateKey sequence, Plan (negateLaterOutboxSequences aggregateKey sequence)
  shift : ∀ aggregateKey, Plan (shiftNegatedOutboxSequences aggregateKey)

def RecoverPlans.byID : RecoverPlans where
  reset _ _ := .byID _
  negate _ _ := .byID _
  shift _ := .byID _

/-- `recoverPublish` with the updates in the order of the plans. -/
def recoverPublishIn (p : RecoverPlans) (t : OutboxTables) (claimed : OutboxRow) (pubKey : String)
    (now : Int) : Except StoreErr OutboxTables := do
  let t ← t.updateOutboxIn (p.reset now claimed.id)
  let t ← t.updateOutboxIn (p.negate claimed.aggregateKey claimed.sequence)
  let t ← t.updateOutboxIn (p.shift claimed.aggregateKey)
  let t := t.incrementOutboxLastSequence claimed.aggregateKey
  let outbox ← t.outbox.insert fun id =>
    { id, aggregateKey := claimed.aggregateKey, sequence := claimed.sequence + 1,
      operation := .publishEvent, pubKey, payload := claimed.payload, availableAt := unix now }
  pure { t with outbox }

end OutboxTables

namespace SQLiteStore

/-- `recoverPublisherRegistration` with the updates in the order of the plans. -/
def recoverPublisherRegistrationIn (p : OutboxTables.RecoverPlans) (db : DB) (id : Nat)
    (token pubKey : String) (now : Int) : Except StoreErr DB :=
  match db.out.claimedPublishEvent id token now with
  | none => .error .claimLost
  | some claimed => do
    require (claimed.aggregateKey = pubKey) .authorMismatch
    let db := db.clearPublisherRegistration pubKey
    let out ← db.out.recoverPublishIn p claimed pubKey now
    pure { db with out }

end SQLiteStore

end Bridge
