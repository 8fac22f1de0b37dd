import Mytools.Bridge.Store
import Mytools.Lib.Text

/-!
# The bridge's store: operations (`sqlite.go`)

Each operation is one transaction: it yields the database after its commit, or an error and no
change. The checks stand in the order in which the code makes them.
-/

namespace Bridge

open Lib

variable (N : Nostr.Library)

/-! ## Checks -/

def rejectPurged (db : DB) (pubKey : String) : Except StoreErr Unit :=
  require (db.publisherPurged pubKey = false) .purgePending

/-- The key is a public key in its canonical form, and the aggregate is the key. -/
def OwnAggregate (r : OutboxRequest) : Prop :=
  N.pubKeyFromHex r.pubKey = some r.pubKey ∧ r.aggregateKey = r.pubKey

instance (r : OutboxRequest) : Decidable (OwnAggregate N r) :=
  inferInstanceAs (Decidable (_ ∧ _))

/-- The payload is a signed event of the request's key. -/
def checkEventPayload (r : OutboxRequest) : Except StoreErr Unit :=
  match N.unmarshal r.payload with
  | none => .error .invalidOutboxPayload
  | some event => do
    require (N.checkID event ∧ N.verifySignature event) .invalidOutboxPayload
    require (event.pubKey = r.pubKey) .authorMismatch

def validatePublishRequest (r : OutboxRequest) : Except StoreErr Unit := do
  require (r.operation = .publishEvent) .invalidOutboxPayload
  require (OwnAggregate N r) .authorMismatch
  checkEventPayload N r

def validateMappingEventID (m : EventMapping) (r : OutboxRequest) : Except StoreErr Unit :=
  match N.unmarshal r.payload with
  | none => .error .invalidOutboxPayload
  | some event => require (m.nostrEventID = event.id) .invalidOutboxPayload

/-- There is room for `needed` more rows. -/
def requireRoom (db : DB) (needed limit : Int) : Except StoreErr Unit :=
  require (0 < limit ∧ db.out.outboxCount + needed ≤ limit) .outboxFull

/-- The registration that goes ahead of a publisher's first event. -/
def allowRequest (r : OutboxRequest) : OutboxRequest where
  aggregateKey := r.aggregateKey
  operation := .allowPublisher
  pubKey := r.pubKey
  availableAt := r.availableAt

/-- Enqueue the registration of the request's publisher unless it is registered or pending. -/
def enqueueAllow (db : DB) (registered : Bool) (r : OutboxRequest) : Except StoreErr DB :=
  if registered then .ok db else db.enqueueOutbox (allowRequest r)

def saveOptionalCursor (db : DB) (scope : SourceScope) : Option CursorUpdate → DB
  | none => db
  | some c => db.saveCursor scope c

def saveOptionalOperation (db : DB) (ref : SourceRef) (identity : String) : DB :=
  if identity = "" then db else db.saveSourceOperation ref identity

namespace SQLiteStore

/-! ## Enqueueing -/

def enqueueOutbox (db : DB) (r : OutboxRequest) : Except StoreErr DB := do
  checkIf r.operation.Known (require (OwnAggregate N r) .authorMismatch)
  checkIf (r.operation = .publishEvent) (checkEventPayload N r)
  checkIf (r.operation ≠ .unallowPublisher) (rejectPurged db r.pubKey)
  db.enqueueOutbox r

def saveEventAndEnqueue (db : DB) (m : EventMapping) (r : OutboxRequest) : Except StoreErr DB := do
  require (r.pubKey = m.authorPubKey) .authorMismatch
  validatePublishRequest N r
  validateMappingEventID N m r
  rejectPurged db r.pubKey
  (db.upsertEventMapping m).enqueueOutbox r

def enqueueEvent (db : DB) (q : EventEnqueueRequest) : Except StoreErr DB := do
  require (q.event.pubKey = q.mapping.authorPubKey) .authorMismatch
  validatePublishRequest N q.event
  validateMappingEventID N q.mapping q.event
  rejectPurged db q.event.pubKey
  let registered := db.publisherRegisteredOrPending q.event.pubKey q.event.aggregateKey
  requireRoom db (if registered then 1 else 2) q.limit
  let db ← enqueueAllow db registered q.event
  let db ← (db.upsertEventMapping q.mapping).enqueueOutbox q.event
  let db := saveOptionalCursor db q.mapping.source.scope q.cursor
  pure (saveOptionalOperation db q.mapping.source q.sourceOperation)

def enqueueDelete (db : DB) (q : DeleteEnqueueRequest) : Except StoreErr DB :=
  match db.bridgeEvents.get? q.source with
  | none => .error .noDeleteMapping
  | some stored => do
    require (q.event.pubKey = stored.authorPubKey) .authorMismatch
    validatePublishRequest N q.event
    rejectPurged db q.event.pubKey
    let registered := db.publisherRegisteredOrPending q.event.pubKey q.event.aggregateKey
    requireRoom db (if registered then 1 else 2) q.limit
    let db ← enqueueAllow db registered q.event
    let db := (db.deleteEventMapping q.source).deleteSourceOperation q.source
    let db ← db.enqueueOutbox q.event
    pure (saveOptionalCursor db q.source.scope q.cursor)

def enqueueUpdate (db : DB) (q : UpdateEnqueueRequest) : Except StoreErr DB := do
  require (q.deletion.pubKey = q.replacement.pubKey ∧
    q.replacement.pubKey = q.mapping.authorPubKey) .authorMismatch
  validatePublishRequest N q.deletion
  validatePublishRequest N q.replacement
  validateMappingEventID N q.mapping q.replacement
  rejectPurged db q.replacement.pubKey
  let allowed := db.publisherRegisteredOrPending q.replacement.pubKey q.replacement.aggregateKey
  requireRoom db (if allowed then 2 else 3) q.limit
  let db ← enqueueAllow db allowed q.replacement
  let db ← db.enqueueOutbox q.deletion
  let db ← (db.upsertEventMapping q.mapping).enqueueOutbox q.replacement
  let db := saveOptionalOperation db q.mapping.source q.sourceOperation
  pure (saveOptionalCursor db q.mapping.source.scope q.cursor)

/-- The values of the `e` tags. -/
def eTags (e : Nostr.Event) : List String :=
  e.tags.filterMap fun
    | "e" :: id :: _ => some id
    | _ => none

def enqueuePurge (db : DB) (q : PurgeRequest) : Except StoreErr DB :=
  match N.unmarshal q.payload with
  | none => .error .invalidPurgeDeletion
  | some deletion => do
    require (deletion.kind = 5 ∧ deletion.pubKey = q.pubKey ∧ N.checkID deletion ∧
      N.verifySignature deletion) .invalidPurgeDeletion
    let tagged := (eTags deletion).eraseDups
    let known := db.eventIDsByAuthor q.pubKey
    require (tagged.length = known.length ∧ ∀ id ∈ known, id ∈ tagged) .purgeDoesNotCover
    match db.purges.get? q.pubKey with
    | some marked => if marked.deletionEventID = deletion.id then pure db else throw .purgePending
    | none =>
      require (db.publisherUnallowPending q.pubKey = false) .purgeConflict
      require (db.publisherRegistered q.pubKey) .publisherNotRegistered
      requireRoom db 2 q.limit
      let db := db.insertPublisherPurge q.pubKey deletion.id q.availableAt
      let db ← db.enqueueOutbox
        { aggregateKey := q.pubKey, operation := .publishEvent, pubKey := q.pubKey,
          payload := q.payload, availableAt := q.availableAt }
      db.enqueueOutbox
        { aggregateKey := q.pubKey, operation := .unallowPublisher, pubKey := q.pubKey,
          availableAt := q.availableAt }

/-! ## Reconciliation -/

/-- The checks of `ReconcileBatch` on one event. -/
def checkReconciled (db : DB) (scopes : List SourceScope) (q : EventEnqueueRequest) :
    Except StoreErr Unit := do
  require (q.mapping.source.scope ∈ scopes) .sourceScopeMismatch
  require (q.event.pubKey = q.mapping.authorPubKey) .authorMismatch
  validatePublishRequest N q.event
  validateMappingEventID N q.mapping q.event
  rejectPurged db q.event.pubKey

/-- The event is already stored: under the same identity, or under the same event ID when it has
none. -/
def alreadyReconciled (db : DB) (q : EventEnqueueRequest) : Bool :=
  match db.bridgeEvents.get? q.mapping.source with
  | none => false
  | some existing =>
    if q.sourceOperation ≠ "" then
      db.operations.get? q.mapping.source == some q.sourceOperation
    else existing.nostrEventID == q.mapping.nostrEventID

/-- What the first loop of `ReconcileBatch` has collected. -/
structure Reconciliation where
  /-- The publishers seen so far, with whether they are registered or pending. -/
  registered : List (String × Bool) := []
  pending : List EventEnqueueRequest := []
  needed : Int := 0

/-- One event that is not stored yet. -/
def Reconciliation.add (db : DB) (r : Reconciliation) (q : EventEnqueueRequest) :
    Reconciliation :=
  let r := { r with pending := r.pending ++ [q], needed := r.needed + 1 }
  match r.registered.lookup q.event.pubKey with
  | some _ => r
  | none =>
    let allowed := db.publisherRegisteredOrPending q.event.pubKey q.event.aggregateKey
    { r with
      registered := r.registered ++ [(q.event.pubKey, allowed)]
      needed := if allowed then r.needed else r.needed + 1 }

def scanReconciled (db : DB) (scopes : List SourceScope) :
    List EventEnqueueRequest → Reconciliation → Except StoreErr Reconciliation
  | [], r => .ok r
  | q :: qs, r => do
    checkReconciled N db scopes q
    scanReconciled db scopes qs (if alreadyReconciled db q then r else r.add db q)

/-- The second loop of `ReconcileBatch`; `queued` are the publishers whose registration it has
enqueued. -/
def applyReconciled (registered : List (String × Bool)) :
    List EventEnqueueRequest → (queued : List String) → DB → Except StoreErr DB
  | [], _, db => .ok db
  | q :: qs, queued, db => do
    let known := (registered.lookup q.event.pubKey).getD false || q.event.pubKey ∈ queued
    let db ← enqueueAllow db known q.event
    let db := saveOptionalOperation (db.upsertEventMapping q.mapping) q.mapping.source
      q.sourceOperation
    let db ← db.enqueueOutbox q.event
    applyReconciled registered qs (if known then queued else q.event.pubKey :: queued) db

def reconcileBatch (db : DB) (q : ReconciliationBatchRequest) : Except StoreErr DB := do
  require (q.cursor = none ∨ q.cursorScope ∈ q.eventScopes) .sourceScopeMismatch
  let r ← scanReconciled N db q.eventScopes q.events {}
  requireRoom db r.needed q.limit
  let db ← applyReconciled r.registered r.pending [] (db.replaceSyncTargets q.targetScope q.targets)
  pure (saveOptionalCursor db q.cursorScope q.cursor)

/-! ## Delivery -/

/-- `hex.EncodeToString` -/
def hexEncode (bytes : List UInt8) : String :=
  String.ofList (bytes.flatMap fun b => [hexDigit (b.toNat / 16), hexDigit (b.toNat % 16)])

/-- `newClaimToken`, from the random bytes. -/
def newClaimToken (bytes : Fin 16 → UInt8) : String := hexEncode (List.ofFn bytes)

/-- `outboxItem`, with the claim. -/
def outboxItem (r : OutboxRow) (claimToken : String) (claimedUntil : Int) : OutboxItem where
  id := r.id
  aggregateKey := r.aggregateKey
  sequence := r.sequence
  operation := r.operation
  pubKey := r.pubKey
  payload := r.payload
  attempts := r.attempts
  availableAt := r.availableAt * 1000000000
  lastError := r.lastError
  claimToken
  claimedUntil

/-- `ClaimOutbox`; `rand` is what the random source yields for the token. -/
def claimOutbox (db : DB) (now lease limit : Int) (rand : Option (Fin 16 → UInt8)) :
    Except StoreErr (DB × List OutboxItem) := do
  require (0 < lease) .invalidLease
  if limit ≤ 0 then pure (db, [])
  else
    match rand with
    | none => throw .claimToken
    | some bytes =>
      let token := newClaimToken bytes
      let items := (db.out.claimable now limit.toNat).map fun r => outboxItem r token (now + lease)
      let out ← db.out.claimOutbox token (now + lease) now limit.toNat
      pure ({ db with out }, items)

def completeOutbox (db : DB) (id : Nat) (token : String) (now : Int) : Except StoreErr DB := do
  let out ← db.out.completeOutbox id token now
  pure { db with out }

def completePublisherRegistration (db : DB) (id : Nat) (token pubKey : String) (now : Int) :
    Except StoreErr DB := do
  let db ← completeOutbox db id token now
  pure (db.setPublisherRegistered pubKey now)

def recoverPublisherRegistration (db : DB) (id : Nat) (token pubKey : String) (now : Int) :
    Except StoreErr DB :=
  match db.out.claimedPublishEvent id token now with
  | none => .error .claimLost
  | some claimed => do
    require (claimed.aggregateKey = pubKey) .authorMismatch
    let db := db.clearPublisherRegistration pubKey
    let out ← db.out.recoverPublish claimed pubKey now
    pure { db with out }

def completePublisherUnregistration (db : DB) (id : Nat) (token : String) (now : Int)
    (pubKey : String) : Except StoreErr DB := do
  let db ← completeOutbox db id token now
  let db := db.clearPublisherRegistration pubKey
  pure ((db.deletePublisherSourceOperations pubKey).deletePublisherMappings pubKey)

def retryOutbox (db : DB) (id : Nat) (token : String) (now availableAt : Int) (lastError : String) :
    Except StoreErr DB := do
  let out ← db.out.retryOutbox id token now availableAt lastError
  pure { db with out }

/-! ## Reads and single writes -/

def eventMappingBySourceURI (db : DB) (ref : SourceRef) : Option EventMapping :=
  (db.bridgeEvents.get? ref).map fun e =>
    ⟨ref, e.nostrEventID, e.sourceKind, e.authorPubKey, e.updatedAt⟩

def sourceOperationBySourceURI (db : DB) (ref : SourceRef) : Option String :=
  db.operations.get? ref

def cursor (db : DB) (scope : SourceScope) (name : String) : Option String :=
  db.cursors.get? (scope, name)

end SQLiteStore

end Bridge
