import Mytools.Bridge.Nostr
import Mytools.Lib.Result
import Mytools.Lib.Table

/-!
# The relay's store (`nostr-relay/store/sqlite.go`)

The tables `events` and `deletion_tombstones`, and the transaction that stores an event and applies
the deletions that it asks for.
-/

namespace Relay

open Lib

/-- A row of `events` beside its key. -/
structure EventRow where
  pubkey : String
  createdAt : Int
  kind : Nat
  eventJSON : String
  deriving DecidableEq, Repr

/-- A row of `deletion_tombstones` beside its key, the owner and the target. -/
structure Tombstone where
  deletionEventID : String
  createdAt : Int
  deriving DecidableEq, Repr

structure DB where
  events : Table String EventRow
  tombstones : Table (String × String) Tombstone

def DB.empty : DB := ⟨.empty, .empty⟩

inductive StoreErr
  | decodeStoredEvent
  deriving DecidableEq, Repr

/-! ## Queries -/

namespace DB

def eventTombstoned (db : DB) (owner target : String) : Bool :=
  (db.tombstones.get? (owner, target)).isSome

/-- `EventsByPubKeyAndKind` -/
def eventsByPubKeyAndKind (db : DB) (pubkey : String) (kind : Nat) : List (String × String) :=
  (db.events.rows.filter fun x => x.2.pubkey = pubkey ∧ x.2.kind = kind).map fun x =>
    (x.1, x.2.eventJSON)

def deleteEventByID (db : DB) (id : String) : DB := { db with events := db.events.erase id }

/-- `INSERT OR IGNORE` -/
def insertEvent (db : DB) (id : String) (row : EventRow) : DB :=
  if (db.events.get? id).isSome then db else { db with events := db.events.set id row }

/-- `INSERT OR IGNORE` -/
def insertDeletionTombstone (db : DB) (owner target : String) (t : Tombstone) : DB :=
  if db.eventTombstoned owner target then db
  else { db with tombstones := db.tombstones.set (owner, target) t }

def deleteOwnedEvent (db : DB) (id pubkey : String) : DB :=
  { db with events := db.events.filter fun k row => !(k = id ∧ row.pubkey = pubkey) }

end DB

/-! ## Transactions -/

variable (N : Nostr.Library)

def eventRow (e : Nostr.Event) : EventRow := ⟨e.pubKey, e.createdAt, e.kind, N.marshal e⟩

/-- The loop over the events that a replaceable event competes with: the ids to delete, and whether
the event is to be stored. -/
def scanReplaced (e : Nostr.Event) :
    List (String × String) → (deleteIDs : List String) → (storeIncoming : Bool) →
      Except StoreErr (List String × Bool)
  | [], deleteIDs, storeIncoming => .ok (deleteIDs, storeIncoming)
  | (id, json) :: rows, deleteIDs, storeIncoming =>
    match N.unmarshal json with
    | none => .error .decodeStoredEvent
    | some previous =>
      if N.isAddressable e.kind ∧ N.getD previous.tags ≠ N.getD e.tags then
        scanReplaced e rows deleteIDs storeIncoming
      else if N.isOlder previous e then scanReplaced e rows (deleteIDs ++ [id]) storeIncoming
      else scanReplaced e rows deleteIDs false

def saveEventTx (db : DB) (e : Nostr.Event) : Except StoreErr DB :=
  if db.eventTombstoned e.pubKey e.id then .ok db
  else if N.isReplaceable e.kind ∨ N.isAddressable e.kind then do
    let (deleteIDs, storeIncoming) ←
      scanReplaced N e (db.eventsByPubKeyAndKind e.pubKey e.kind) [] true
    if storeIncoming then
      pure ((deleteIDs.foldl DB.deleteEventByID db).insertEvent e.id (eventRow N e))
    else pure db
  else .ok (db.insertEvent e.id (eventRow N e))

/-- The events that the `e` tags name. -/
def targets (e : Nostr.Event) : List String :=
  e.tags.filterMap fun
    | "e" :: id :: _ => N.idFromHex id
    | _ => none

/-- One target of a deletion. -/
def applyDeletion (e : Nostr.Event) (db : DB) (id : String) : DB :=
  (db.insertDeletionTombstone e.pubKey id ⟨e.id, e.createdAt⟩).deleteOwnedEvent id e.pubKey

def saveEventAndApplyDeletion (db : DB) (e : Nostr.Event) : Except StoreErr DB := do
  let db ← saveEventTx N db e
  pure (if e.kind = 5 then (targets N e).foldl (applyDeletion e) db else db)

def saveEvent (db : DB) (e : Nostr.Event) : Except StoreErr DB := saveEventTx N db e

/-- The two calls that store events. -/
inductive Call
  | saveEvent (e : Nostr.Event)
  | saveEventAndApplyDeletion (e : Nostr.Event)
  deriving DecidableEq, Repr

namespace Call

def event : Call → Nostr.Event
  | .saveEvent e => e
  | .saveEventAndApplyDeletion e => e

def exec (db : DB) : Call → Except StoreErr DB
  | .saveEvent e => Relay.saveEvent N db e
  | .saveEventAndApplyDeletion e => Relay.saveEventAndApplyDeletion N db e

end Call

/-- The database after a call: the transaction of a failed call is rolled back. -/
def DB.after (db : DB) (c : Call) : DB :=
  match c.exec N db with
  | .ok db' => db'
  | .error _ => db

end Relay
