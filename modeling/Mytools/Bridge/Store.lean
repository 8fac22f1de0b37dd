import Mathlib.Algebra.Ring.Int.Defs
import Mathlib.Algebra.Ring.Nat
import Mathlib.Data.List.Sort
import Mytools.Bridge.Nostr
import Mytools.Bridge.Outbox
import Mytools.Lib.Table

/-!
# The bridge's store: tables and queries (`schema.sql`, `query.sql`)

The tables that the operations of `sqlite.go` read or write, and their queries under the names of
`query.sql`. Times are nanoseconds since the epoch. The sequence counters and the outbox are kept
together (`OutboxTables`), apart from the tables that an enqueue writes beside them.
-/

namespace Bridge

open Lib

/-! ## Values -/

/-- `time.Time.Unix` -/
def unix (t : Int) : Int := t / 1000000000

/-- `time.Time.UnixNano`, an `int64`. -/
def unixNano (t : Int) : Int := t.bmod (2 ^ 64)

structure SourceScope where
  provider : String
  account : String
  deriving DecidableEq, Repr

structure SourceRef where
  scope : SourceScope
  uri : String
  deriving DecidableEq, Repr

structure EventMapping where
  source : SourceRef
  nostrEventID : String
  sourceKind : String
  authorPubKey : String
  updatedAt : Int
  deriving DecidableEq, Repr

structure OutboxRequest where
  aggregateKey : String
  operation : OutboxOperation
  pubKey : String
  payload : String := ""
  availableAt : Int
  deriving DecidableEq, Repr

structure OutboxItem where
  id : Nat
  aggregateKey : String
  sequence : Int
  operation : OutboxOperation
  pubKey : String
  payload : String
  attempts : Nat
  availableAt : Int
  lastError : String
  claimToken : String
  claimedUntil : Int
  deriving DecidableEq, Repr

structure CursorUpdate where
  name : String
  value : String
  deriving DecidableEq, Repr

structure EventEnqueueRequest where
  mapping : EventMapping
  event : OutboxRequest
  limit : Int
  cursor : Option CursorUpdate := none
  sourceOperation : String := ""
  deriving DecidableEq, Repr

structure ReconciliationBatchRequest where
  targetScope : SourceScope
  targets : List String
  eventScopes : List SourceScope
  events : List EventEnqueueRequest
  cursorScope : SourceScope
  cursor : Option CursorUpdate := none
  limit : Int
  deriving DecidableEq, Repr

structure DeleteEnqueueRequest where
  source : SourceRef
  event : OutboxRequest
  limit : Int
  cursor : Option CursorUpdate := none
  deriving DecidableEq, Repr

structure UpdateEnqueueRequest where
  mapping : EventMapping
  deletion : OutboxRequest
  replacement : OutboxRequest
  sourceOperation : String := ""
  limit : Int
  cursor : Option CursorUpdate := none
  deriving DecidableEq, Repr

structure PurgeRequest where
  pubKey : String
  payload : String
  availableAt : Int
  limit : Int
  deriving DecidableEq, Repr

/-! ## Tables -/

/-- A row of `bridge_events` beside its key. -/
structure BridgeEvent where
  nostrEventID : String
  sourceKind : String
  authorPubKey : String
  updatedAt : Int
  deriving DecidableEq, Repr

def EventMapping.row (m : EventMapping) : BridgeEvent :=
  ⟨m.nostrEventID, m.sourceKind, m.authorPubKey, m.updatedAt⟩

/-- `outbox_sequences` and `outbox`. -/
structure OutboxTables where
  sequences : Table String Int
  outbox : Outbox

/-- A row of `publisher_purges` beside its key. -/
structure PublisherPurge where
  deletionEventID : String
  createdAt : Int
  deriving DecidableEq, Repr

structure DB where
  bridgeEvents : Table SourceRef BridgeEvent
  registrations : Table String Int
  purges : Table String PublisherPurge
  syncTargets : Table (SourceScope × String) Unit
  out : OutboxTables
  cursors : Table (SourceScope × String) String
  operations : Table SourceRef String

def DB.empty : DB where
  bridgeEvents := .empty
  registrations := .empty
  purges := .empty
  syncTargets := .empty
  out := ⟨.empty, .empty⟩
  cursors := .empty
  operations := .empty

/-! ## Queries of the outbox -/

namespace OutboxTables

def advanceOutboxSequence (t : OutboxTables) (aggregateKey : String) : OutboxTables :=
  { t with
    sequences := t.sequences.set aggregateKey
      (match t.sequences.get? aggregateKey with
        | none => 1
        | some n => n + 1) }

/-- The query `EnqueueOutbox`: `INSERT … SELECT` from the aggregate's counter. -/
def insertOutbox (t : OutboxTables) (r : OutboxRequest) : Except StoreErr OutboxTables :=
  match t.sequences.get? r.aggregateKey with
  | none => .ok t
  | some sequence => do
    let outbox ← t.outbox.insert fun id =>
      { id, aggregateKey := r.aggregateKey, sequence, operation := r.operation,
        pubKey := r.pubKey, payload := r.payload, availableAt := unix r.availableAt }
    pure { t with outbox }

/-- `enqueueOutbox` -/
def enqueueOutbox (t : OutboxTables) (r : OutboxRequest) : Except StoreErr OutboxTables :=
  (t.advanceOutboxSequence r.aggregateKey).insertOutbox r

def outboxCount (t : OutboxTables) : Int := t.outbox.rows.length

/-- The row is the one that a claim with this id and token owns at `now`. -/
def OwnedBy (r : OutboxRow) (id : Nat) (token : String) (now : Int) : Prop :=
  r.id = id ∧ r.claimToken = token ∧ r.claimToken ≠ "" ∧ unixNano now < r.claimedUntil

instance (r : OutboxRow) (id : Nat) (token : String) (now : Int) :
    Decidable (OwnedBy r id token now) :=
  inferInstanceAs (Decidable (_ ∧ _))

/-- The query `CompleteOutbox` with `requireClaimOwner`. -/
def completeOutbox (t : OutboxTables) (id : Nat) (token : String) (now : Int) :
    Except StoreErr OutboxTables :=
  if t.outbox.rows.any fun r => OwnedBy r id token now then
    .ok { t with outbox := t.outbox.delete fun r => OwnedBy r id token now }
  else .error .claimLost

/-- The query `RetryOutbox` with `requireClaimOwner`. -/
def retryOutbox (t : OutboxTables) (id : Nat) (token : String) (now availableAt : Int)
    (lastError : String) : Except StoreErr OutboxTables :=
  if t.outbox.rows.any fun r => OwnedBy r id token now then do
    let outbox ← t.outbox.update fun r =>
      if OwnedBy r id token now then
        { r with attempts := r.attempts + 1, availableAt := unix availableAt, lastError,
                 claimToken := "", claimedUntil := 0 }
      else r
    pure { t with outbox }
  else .error .claimLost

/-- No row of its aggregate comes before `r`. -/
def Head (rows : List OutboxRow) (r : OutboxRow) : Prop :=
  ∀ prior ∈ rows, prior.aggregateKey = r.aggregateKey → ¬ prior.sequence < r.sequence

instance (rows : List OutboxRow) (r : OutboxRow) : Decidable (Head rows r) :=
  inferInstanceAs (Decidable (∀ prior ∈ rows, _))

def Unclaimed (r : OutboxRow) (now : Int) : Prop :=
  r.claimToken = "" ∨ r.claimedUntil ≤ unixNano now

instance (r : OutboxRow) (now : Int) : Decidable (Unclaimed r now) :=
  inferInstanceAs (Decidable (_ ∨ _))

/-- `ORDER BY available_at, id` -/
def claimOrder (a b : OutboxRow) : Prop :=
  a.availableAt < b.availableAt ∨ (a.availableAt = b.availableAt ∧ a.id ≤ b.id)

instance : DecidableRel claimOrder := fun _ _ =>
  inferInstanceAs (Decidable (_ ∨ (_ ∧ _)))

/-- The rows that the query `ClaimOutbox` claims, in order. -/
def claimable (t : OutboxTables) (now : Int) (limit : Nat) : List OutboxRow :=
  ((t.outbox.rows.filter fun r =>
    Unclaimed r now ∧ r.availableAt ≤ unix now ∧ Head t.outbox.rows r).insertionSort
      claimOrder).take limit

/-- The query `ClaimOutbox`; its rows are returned by `claimable`. -/
def claimOutbox (t : OutboxTables) (token : String) (claimedUntil now : Int) (limit : Nat) :
    Except StoreErr OutboxTables := do
  let ids := (t.claimable now limit).map (·.id)
  let outbox ← t.outbox.update fun r =>
    if r.id ∈ ids ∧ Unclaimed r now then
      { r with claimToken := token, claimedUntil := unixNano claimedUntil }
    else r
  pure { t with outbox }

/-- The query `ClaimedPublishEvent`. -/
def claimedPublishEvent (t : OutboxTables) (id : Nat) (token : String) (now : Int) :
    Option OutboxRow :=
  t.outbox.rows.find? fun r => OwnedBy r id token now ∧ r.operation = .publishEvent

def updateOutbox (t : OutboxTables) (f : OutboxRow → OutboxRow) : Except StoreErr OutboxTables := do
  let outbox ← t.outbox.update f
  pure { t with outbox }

def resetRejectedPublishAsRegistration (availableAt : Int) (id : Nat) (r : OutboxRow) : OutboxRow :=
  if r.id = id then
    { r with operation := .allowPublisher, payload := "", attempts := 0, lastError := "",
             claimToken := "", claimedUntil := 0, availableAt := unix availableAt }
  else r

def negateLaterOutboxSequences (aggregateKey : String) (sequence : Int) (r : OutboxRow) :
    OutboxRow :=
  if r.aggregateKey = aggregateKey ∧ r.sequence > sequence then
    { r with sequence := -r.sequence }
  else r

def shiftNegatedOutboxSequences (aggregateKey : String) (r : OutboxRow) : OutboxRow :=
  if r.aggregateKey = aggregateKey ∧ r.sequence < 0 then { r with sequence := -r.sequence + 1 }
  else r

def incrementOutboxLastSequence (t : OutboxTables) (aggregateKey : String) : OutboxTables :=
  match t.sequences.get? aggregateKey with
  | none => t
  | some n => { t with sequences := t.sequences.set aggregateKey (n + 1) }

/-- The statements of `RecoverPublisherRegistration` on the outbox, for the claimed row. -/
def recoverPublish (t : OutboxTables) (claimed : OutboxRow) (pubKey : String) (now : Int) :
    Except StoreErr OutboxTables := do
  let t ← t.updateOutbox (resetRejectedPublishAsRegistration now claimed.id)
  let t ← t.updateOutbox (negateLaterOutboxSequences claimed.aggregateKey claimed.sequence)
  let t ← t.updateOutbox (shiftNegatedOutboxSequences claimed.aggregateKey)
  let t := t.incrementOutboxLastSequence claimed.aggregateKey
  let outbox ← t.outbox.insert fun id =>
    { id, aggregateKey := claimed.aggregateKey, sequence := claimed.sequence + 1,
      operation := .publishEvent, pubKey, payload := claimed.payload, availableAt := unix now }
  pure { t with outbox }

end OutboxTables

/-! ## Queries of the other tables -/

namespace DB

def enqueueOutbox (db : DB) (r : OutboxRequest) : Except StoreErr DB := do
  let out ← db.out.enqueueOutbox r
  pure { db with out }

def publisherPurged (db : DB) (pubKey : String) : Bool := (db.purges.get? pubKey).isSome

def upsertEventMapping (db : DB) (m : EventMapping) : DB :=
  { db with bridgeEvents := db.bridgeEvents.set m.source m.row }

def publisherRegistered (db : DB) (pubKey : String) : Bool :=
  (db.registrations.get? pubKey).isSome

def publisherRegisteredOrPending (db : DB) (pubKey aggregateKey : String) : Bool :=
  db.publisherRegistered pubKey || db.out.outbox.rows.any fun r =>
    r.aggregateKey = aggregateKey ∧ r.operation = .allowPublisher

def publisherUnallowPending (db : DB) (aggregateKey : String) : Bool :=
  db.out.outbox.rows.any fun r => r.aggregateKey = aggregateKey ∧ r.operation = .unallowPublisher

def replaceSyncTargets (db : DB) (scope : SourceScope) (targets : List String) : DB :=
  { db with
    syncTargets := targets.foldl (fun t target => t.set (scope, target) ())
      (db.syncTargets.filter fun k _ => k.1 ≠ scope) }

def deleteEventMapping (db : DB) (ref : SourceRef) : DB :=
  { db with bridgeEvents := db.bridgeEvents.erase ref }

def deleteSourceOperation (db : DB) (ref : SourceRef) : DB :=
  { db with operations := db.operations.erase ref }

def saveSourceOperation (db : DB) (ref : SourceRef) (identity : String) : DB :=
  { db with operations := db.operations.set ref identity }

def saveCursor (db : DB) (scope : SourceScope) (c : CursorUpdate) : DB :=
  { db with cursors := db.cursors.set (scope, c.name) c.value }

def setPublisherRegistered (db : DB) (pubKey : String) (registeredAt : Int) : DB :=
  { db with registrations := db.registrations.set pubKey (unix registeredAt) }

def clearPublisherRegistration (db : DB) (pubKey : String) : DB :=
  { db with registrations := db.registrations.erase pubKey }

def insertPublisherPurge (db : DB) (pubKey deletionEventID : String) (createdAt : Int) : DB :=
  { db with purges := db.purges.set pubKey ⟨deletionEventID, unix createdAt⟩ }

/-- The distinct event IDs of an author's mappings. -/
def eventIDsByAuthor (db : DB) (pubKey : String) : List String :=
  ((db.bridgeEvents.rows.filter fun x => x.2.authorPubKey = pubKey).map
    (·.2.nostrEventID)).eraseDups

def deletePublisherSourceOperations (db : DB) (pubKey : String) : DB :=
  { db with
    operations := db.operations.filter fun ref _ =>
      !(db.bridgeEvents.get? ref).any fun e => e.authorPubKey = pubKey }

def deletePublisherMappings (db : DB) (pubKey : String) : DB :=
  { db with bridgeEvents := db.bridgeEvents.filter fun _ e => e.authorPubKey ≠ pubKey }

end DB

end Bridge
