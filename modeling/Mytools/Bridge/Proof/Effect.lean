import Mytools.Bridge.Proof.Recover
import Mytools.Bridge.Proof.Scan

/-!
# What the operations do to the outbox

The operations of the store write several tables. On the outbox each of them is one command: it
enqueues a list of requests, claims, completes, retries or recovers. `StoreOp.cmd` is the command
of an operation and `exec_out` connects the two; the invariant of the queues (`StoreInv`) and every
statement about the outbox follow from the five commands.
-/

namespace Bridge

open Lib

/-! ## Commands -/

inductive OutboxCmd
  | enqueue (rs : List OutboxRequest)
  | claim (token : String) (claimedUntil now : Int) (limit : Nat)
  | complete (id : Nat) (token : String) (now : Int)
  | retry (id : Nat) (token : String) (now availableAt : Int) (lastError : String)
  | recover (id : Nat) (token pubKey : String) (now : Int)

namespace OutboxTables

def enqueueAll (t : OutboxTables) (rs : List OutboxRequest) : Except StoreErr OutboxTables :=
  rs.foldlM enqueueOutbox t

def exec (t : OutboxTables) : OutboxCmd → Except StoreErr OutboxTables
  | .enqueue rs => t.enqueueAll rs
  | .claim token claimedUntil now limit => t.claimOutbox token claimedUntil now limit
  | .complete id token now => t.completeOutbox id token now
  | .retry id token now availableAt lastError => t.retryOutbox id token now availableAt lastError
  | .recover id token pubKey now =>
    match t.claimedPublishEvent id token now with
    | none => .error .claimLost
    | some claimed => do
      require (claimed.aggregateKey = pubKey) .authorMismatch
      t.recoverPublish claimed pubKey now

variable {t t' : OutboxTables} {rs rs' : List OutboxRequest} {r : OutboxRequest}

theorem enqueueAll_cons :
    t.enqueueAll (r :: rs) = .ok t' ↔
      ∃ t₁, t.enqueueOutbox r = .ok t₁ ∧ t₁.enqueueAll rs = .ok t' := by
  rw [enqueueAll, List.foldlM_cons]
  exact bind_ok_iff

theorem enqueueAll_append : t.enqueueAll (rs ++ rs') = .ok t' ↔
    ∃ t₁, t.enqueueAll rs = .ok t₁ ∧ t₁.enqueueAll rs' = .ok t' := by
  rw [enqueueAll, List.foldlM_append]
  exact bind_ok_iff

theorem enqueueAll_total : ∀ {rs : List OutboxRequest} {t : OutboxTables}, QueueInv t →
    (∀ r ∈ rs, r.operation.Known) → ∃ t', t.enqueueAll rs = .ok t'
  | [], t, _, _ => ⟨t, rfl⟩
  | r :: rs, t, hi, hk => by
    obtain ⟨t₁, h₁⟩ := hi.enqueue_total (hk r List.mem_cons_self)
    obtain ⟨t', h⟩ := enqueueAll_total (hi.enqueue h₁) fun x hx =>
      hk x (List.mem_cons_of_mem r hx)
    exact ⟨t', enqueueAll_cons.2 ⟨t₁, h₁, h⟩⟩

/-- A recovery finds the claimed publish of its aggregate. -/
theorem recover_ok {id : Nat} {token pubKey : String} {now : Int}
    (h : t.exec (.recover id token pubKey now) = .ok t') :
    ∃ c ∈ t.outbox.rows, OwnedBy c id token now ∧ c.operation = .publishEvent ∧
      c.aggregateKey = pubKey ∧ t.recoverPublish c pubKey now = .ok t' := by
  simp only [exec] at h
  split at h
  · cases h
  · rename_i c hc
    obtain ⟨u, hk, h⟩ := bind_ok_iff.1 h
    have hp : OwnedBy c id token now ∧ c.operation = .publishEvent := by
      simpa using List.find?_some hc
    exact ⟨c, List.mem_of_find?_eq_some hc, hp.1, hp.2, require_eq_ok.1 hk, h⟩

end OutboxTables

/-! ## The commands of the operations -/

/-- The registration, if the publisher is neither registered nor pending. -/
def allowRequests (db : DB) (r : OutboxRequest) : List OutboxRequest :=
  if db.publisherRegisteredOrPending r.pubKey r.aggregateKey then [] else [allowRequest r]

/-- The requests that an operation appends, in this order. -/
def StoreOp.requests (db : DB) : StoreOp → List OutboxRequest
  | enqueueOutbox r => [r]
  | saveEventAndEnqueue _ r => [r]
  | enqueueEvent q => allowRequests db q.event ++ [q.event]
  | enqueueUpdate q => allowRequests db q.replacement ++ [q.deletion, q.replacement]
  | enqueueDelete q => allowRequests db q.event ++ [q.event]
  | enqueuePurge q =>
    if db.publisherPurged q.pubKey then []
    else
      [{ aggregateKey := q.pubKey, operation := .publishEvent, pubKey := q.pubKey,
         payload := q.payload, availableAt := q.availableAt },
       { aggregateKey := q.pubKey, operation := .unallowPublisher, pubKey := q.pubKey,
         availableAt := q.availableAt }]
  | reconcileBatch q => SQLiteStore.batchRequests db [] (SQLiteStore.freshEvents db q.events)
  | _ => []

/-- What an operation does to the outbox when it succeeds. -/
def StoreOp.cmd (db : DB) : StoreOp → OutboxCmd
  | claimOutbox now lease limit (some bytes) =>
    if limit ≤ 0 then .enqueue []
    else .claim (SQLiteStore.newClaimToken bytes) (now + lease) now limit.toNat
  | completeOutbox id token now => .complete id token now
  | completePublisherRegistration id token _ now => .complete id token now
  | completePublisherUnregistration id token now _ => .complete id token now
  | recoverPublisherRegistration id token pubKey now => .recover id token pubKey now
  | retryOutbox id token now availableAt lastError => .retry id token now availableAt lastError
  | op => .enqueue (op.requests db)

/-! ## The operations that enqueue -/

variable {N : Nostr.Library} {db db' : DB}

section
variable (db : DB) (ref : SourceRef) (identity : String) (scope : SourceScope)
  (cursor : Option CursorUpdate)

@[simp] theorem saveOptionalOperation_out :
    (saveOptionalOperation db ref identity).out = db.out := by
  unfold saveOptionalOperation; split <;> rfl

@[simp] theorem saveOptionalOperation_registrations :
    (saveOptionalOperation db ref identity).registrations = db.registrations := by
  unfold saveOptionalOperation; split <;> rfl

@[simp] theorem saveOptionalOperation_purges :
    (saveOptionalOperation db ref identity).purges = db.purges := by
  unfold saveOptionalOperation; split <;> rfl

@[simp] theorem saveOptionalOperation_bridgeEvents :
    (saveOptionalOperation db ref identity).bridgeEvents = db.bridgeEvents := by
  unfold saveOptionalOperation; split <;> rfl

@[simp] theorem saveOptionalOperation_cursors :
    (saveOptionalOperation db ref identity).cursors = db.cursors := by
  unfold saveOptionalOperation; split <;> rfl

@[simp] theorem saveOptionalCursor_out : (saveOptionalCursor db scope cursor).out = db.out := by
  cases cursor <;> rfl

@[simp] theorem saveOptionalCursor_operations :
    (saveOptionalCursor db scope cursor).operations = db.operations := by
  cases cursor <;> rfl

@[simp] theorem saveOptionalCursor_syncTargets :
    (saveOptionalCursor db scope cursor).syncTargets = db.syncTargets := by
  cases cursor <;> rfl

@[simp] theorem saveOptionalCursor_registrations :
    (saveOptionalCursor db scope cursor).registrations = db.registrations := by
  cases cursor <;> rfl

@[simp] theorem saveOptionalCursor_purges :
    (saveOptionalCursor db scope cursor).purges = db.purges := by
  cases cursor <;> rfl

@[simp] theorem saveOptionalCursor_bridgeEvents :
    (saveOptionalCursor db scope cursor).bridgeEvents = db.bridgeEvents := by
  cases cursor <;> rfl

end

theorem DB.enqueueOutbox_ok {r : OutboxRequest} :
    db.enqueueOutbox r = .ok db' ↔
      ∃ out, db.out.enqueueAll [r] = .ok out ∧ db' = { db with out } := by
  rw [DB.enqueueOutbox, bind_ok_iff]
  constructor
  · rintro ⟨out, h, he⟩
    cases he
    exact ⟨out, OutboxTables.enqueueAll_cons.2 ⟨out, h, rfl⟩, rfl⟩
  · rintro ⟨out, h, rfl⟩
    obtain ⟨out₁, h, he⟩ := OutboxTables.enqueueAll_cons.1 h
    cases he
    exact ⟨_, h, rfl⟩

theorem enqueueAllow_ok {registered : Bool} {r : OutboxRequest} :
    enqueueAllow db registered r = .ok db' ↔
      ∃ out, db.out.enqueueAll (if registered then [] else [allowRequest r]) = .ok out ∧
        db' = { db with out } := by
  unfold enqueueAllow
  cases registered with
  | false => exact DB.enqueueOutbox_ok
  | true =>
    constructor
    · intro h
      cases h
      exact ⟨_, rfl, rfl⟩
    · rintro ⟨out, h, rfl⟩
      cases h
      rfl

namespace SQLiteStore

theorem enqueueOutbox_ok {r : OutboxRequest} (h : enqueueOutbox N db r = .ok db') :
    (r.operation.Known → OwnAggregate N r) ∧
      (r.operation = .publishEvent → checkEventPayload N r = .ok ()) ∧
      (r.operation ≠ .unallowPublisher → db.publisherPurged r.pubKey = false) ∧
      ∃ out, db.out.enqueueAll [r] = .ok out ∧ db' = { db with out } := by
  obtain ⟨h₁, h⟩ := check_ok_iff.1 h
  obtain ⟨h₂, h⟩ := check_ok_iff.1 h
  obtain ⟨h₃, h⟩ := check_ok_iff.1 h
  rw [checkIf_ok_iff] at h₁ h₂ h₃
  exact ⟨fun hk => require_eq_ok.1 (h₁ hk), h₂, fun hu => rejectPurged_ok.1 (h₃ hu),
    DB.enqueueOutbox_ok.1 h⟩

theorem saveEventAndEnqueue_ok {m : EventMapping} {r : OutboxRequest}
    (h : saveEventAndEnqueue N db m r = .ok db') :
    r.pubKey = m.authorPubKey ∧ validatePublishRequest N r = .ok () ∧
      validateMappingEventID N m r = .ok () ∧ db.publisherPurged r.pubKey = false ∧
      ∃ out, db.out.enqueueAll [r] = .ok out ∧ db' = { db.upsertEventMapping m with out } := by
  obtain ⟨h₁, h⟩ := check_ok_iff.1 h
  obtain ⟨h₂, h⟩ := check_ok_iff.1 h
  obtain ⟨h₃, h⟩ := check_ok_iff.1 h
  obtain ⟨h₄, h⟩ := check_ok_iff.1 h
  exact ⟨require_eq_ok.1 h₁, h₂, h₃, rejectPurged_ok.1 h₄, DB.enqueueOutbox_ok.1 h⟩

/-- There is room for the event and, if it is needed, the registration. -/
def HasRoom (db : DB) (pubKey aggregateKey : String) (events limit : Int) : Prop :=
  0 < limit ∧ db.out.outboxCount +
    (if db.publisherRegisteredOrPending pubKey aggregateKey then events else events + 1) ≤ limit

theorem enqueueEvent_ok {q : EventEnqueueRequest} :
    enqueueEvent N db q = .ok db' ↔
      q.event.pubKey = q.mapping.authorPubKey ∧ validatePublishRequest N q.event = .ok () ∧
      validateMappingEventID N q.mapping q.event = .ok () ∧
      db.publisherPurged q.event.pubKey = false ∧
      HasRoom db q.event.pubKey q.event.aggregateKey 1 q.limit ∧
      ∃ out, db.out.enqueueAll (allowRequests db q.event ++ [q.event]) = .ok out ∧
        db' = saveOptionalOperation
          (saveOptionalCursor { db.upsertEventMapping q.mapping with out } q.mapping.source.scope
            q.cursor) q.mapping.source q.sourceOperation := by
  simp only [enqueueEvent, check_ok_iff, require_eq_ok, rejectPurged_ok, requireRoom]
  simp only [bind_ok_iff, enqueueAllow_ok, DB.enqueueOutbox_ok, OutboxTables.enqueueAll_append]
  constructor
  · rintro ⟨h₁, h₂, h₃, h₄, h₅, _, ⟨o₁, ho₁, rfl⟩, _, ⟨o₂, ho₂, rfl⟩, he⟩
    cases he
    exact ⟨h₁, h₂, h₃, h₄, h₅, o₂, ⟨o₁, ho₁, ho₂⟩, rfl⟩
  · rintro ⟨h₁, h₂, h₃, h₄, h₅, o₂, ⟨o₁, ho₁, ho₂⟩, rfl⟩
    exact ⟨h₁, h₂, h₃, h₄, h₅, _, ⟨o₁, ho₁, rfl⟩, _, ⟨o₂, ho₂, rfl⟩, rfl⟩

theorem enqueueDelete_ok {q : DeleteEnqueueRequest} :
    enqueueDelete N db q = .ok db' ↔
      ∃ stored, db.bridgeEvents.get? q.source = some stored ∧
      q.event.pubKey = stored.authorPubKey ∧ validatePublishRequest N q.event = .ok () ∧
      db.publisherPurged q.event.pubKey = false ∧
      HasRoom db q.event.pubKey q.event.aggregateKey 1 q.limit ∧
      ∃ out, db.out.enqueueAll (allowRequests db q.event ++ [q.event]) = .ok out ∧
        db' = saveOptionalCursor
          { (db.deleteEventMapping q.source).deleteSourceOperation q.source with out }
          q.source.scope q.cursor := by
  unfold enqueueDelete
  cases hg : db.bridgeEvents.get? q.source with
  | none => exact ⟨(nomatch ·), fun ⟨_, h, _⟩ => nomatch h⟩
  | some stored =>
    simp only [check_ok_iff, require_eq_ok, rejectPurged_ok, requireRoom]
    simp only [bind_ok_iff, enqueueAllow_ok, DB.enqueueOutbox_ok, OutboxTables.enqueueAll_append]
    constructor
    · rintro ⟨h₁, h₂, h₃, h₄, _, ⟨o₁, ho₁, rfl⟩, _, ⟨o₂, ho₂, rfl⟩, he⟩
      cases he
      exact ⟨stored, rfl, h₁, h₂, h₃, h₄, o₂, ⟨o₁, ho₁, ho₂⟩, rfl⟩
    · rintro ⟨_, hs, h₁, h₂, h₃, h₄, o₂, ⟨o₁, ho₁, ho₂⟩, rfl⟩
      cases hs
      exact ⟨h₁, h₂, h₃, h₄, _, ⟨o₁, ho₁, rfl⟩, _, ⟨o₂, ho₂, rfl⟩, rfl⟩

theorem enqueueUpdate_ok {q : UpdateEnqueueRequest} :
    enqueueUpdate N db q = .ok db' ↔
      (q.deletion.pubKey = q.replacement.pubKey ∧ q.replacement.pubKey = q.mapping.authorPubKey) ∧
      validatePublishRequest N q.deletion = .ok () ∧
      validatePublishRequest N q.replacement = .ok () ∧
      validateMappingEventID N q.mapping q.replacement = .ok () ∧
      db.publisherPurged q.replacement.pubKey = false ∧
      HasRoom db q.replacement.pubKey q.replacement.aggregateKey 2 q.limit ∧
      ∃ out, db.out.enqueueAll
          (allowRequests db q.replacement ++ [q.deletion, q.replacement]) = .ok out ∧
        db' = saveOptionalCursor
          (saveOptionalOperation { db.upsertEventMapping q.mapping with out } q.mapping.source
            q.sourceOperation) q.mapping.source.scope q.cursor := by
  have hlist : allowRequests db q.replacement ++ [q.deletion, q.replacement] =
      allowRequests db q.replacement ++ ([q.deletion] ++ [q.replacement]) := rfl
  simp only [hlist, enqueueUpdate, check_ok_iff, require_eq_ok, rejectPurged_ok, requireRoom]
  simp only [bind_ok_iff, enqueueAllow_ok, DB.enqueueOutbox_ok, OutboxTables.enqueueAll_append]
  constructor
  · rintro ⟨h₁, h₂, h₃, h₄, h₅, h₆, _, ⟨o₁, ho₁, rfl⟩, _, ⟨o₂, ho₂, rfl⟩, _, ⟨o₃, ho₃, rfl⟩, he⟩
    cases he
    exact ⟨h₁, h₂, h₃, h₄, h₅, h₆, o₃, ⟨o₁, ho₁, o₂, ho₂, ho₃⟩, rfl⟩
  · rintro ⟨h₁, h₂, h₃, h₄, h₅, h₆, o₃, ⟨o₁, ho₁, o₂, ho₂, ho₃⟩, rfl⟩
    exact ⟨h₁, h₂, h₃, h₄, h₅, h₆, _, ⟨o₁, ho₁, rfl⟩, _, ⟨o₂, ho₂, rfl⟩, _, ⟨o₃, ho₃, rfl⟩, rfl⟩

/-- A purge that succeeds: it was made before, or it marks the publisher and enqueues the deletion
and the end of the registration. -/
theorem enqueuePurge_ok {q : PurgeRequest} (h : enqueuePurge N db q = .ok db') :
    (db.publisherPurged q.pubKey = true ∧ db' = db) ∨
      (db.publisherPurged q.pubKey = false ∧ db.publisherUnallowPending q.pubKey = false ∧
        db.publisherRegistered q.pubKey = true ∧
        ∃ deletion out, N.unmarshal q.payload = some deletion ∧
          db.out.enqueueAll ((StoreOp.enqueuePurge q).requests db) = .ok out ∧
          db' = { db.insertPublisherPurge q.pubKey deletion.id q.availableAt with out }) := by
  unfold enqueuePurge at h
  split at h
  · cases h
  rename_i deletion hd
  obtain ⟨-, h⟩ := check_ok_iff.1 h
  obtain ⟨-, h⟩ := check_ok_iff.1 h
  split at h
  · rename_i marked hm
    split at h
    · cases h
      exact .inl ⟨by rw [DB.publisherPurged, hm]; rfl, rfl⟩
    · cases h
  · rename_i hm
    have hp : db.publisherPurged q.pubKey = false := by rw [DB.publisherPurged, hm]; rfl
    simp only [check_ok_iff, require_eq_ok] at h
    obtain ⟨hu, hr, -, h⟩ := h
    simp only [bind_ok_iff, DB.enqueueOutbox_ok] at h
    obtain ⟨_, ⟨o₁, ho₁, rfl⟩, o₂, ho₂, rfl⟩ := h
    refine .inr ⟨hp, hu, hr, deletion, o₂, hd, ?_, rfl⟩
    simp only [StoreOp.requests, hp]
    exact OutboxTables.enqueueAll_append.2 ⟨o₁, ho₁, ho₂⟩

/-! ## Reconciliation -/

/-- What the second loop writes beside the outbox for one event. -/
def storeReconciled (db : DB) (q : EventEnqueueRequest) : DB :=
  saveOptionalOperation (db.upsertEventMapping q.mapping) q.mapping.source q.sourceOperation

/-- The second loop enqueues its requests, and stores the mapping and the identity of each event. -/
theorem applyReconciled_eq_ok {registered : List (String × Bool)} :
    ∀ {qs : List EventEnqueueRequest} {queued : List String} {db db' : DB},
      applyReconciled registered qs queued db = .ok db' ↔
      ∃ out, db.out.enqueueAll (reconciledRequests registered qs queued) = .ok out ∧
        db' = { qs.foldl storeReconciled db with out }
  | [], queued, db, db' => by
    constructor
    · intro h
      cases h
      exact ⟨_, rfl, rfl⟩
    · rintro ⟨out, h, rfl⟩
      cases h
      rfl
  | q :: qs, queued, db, db' => by
    -- The outbox and the other tables are written by turns, and apart.
    have hfold : ∀ (qs : List EventEnqueueRequest) (db : DB) (out : OutboxTables),
        qs.foldl storeReconciled { db with out } = { qs.foldl storeReconciled db with out } := by
      intro qs
      induction qs with
      | nil => exact fun _ _ => rfl
      | cons q qs ih =>
        intro db out
        rw [List.foldl_cons, List.foldl_cons, ← ih]
        congr 1
        simp only [storeReconciled, saveOptionalOperation]
        split <;> rfl
    have hstore : ∀ (db : DB) (out : OutboxTables), saveOptionalOperation
        (DB.upsertEventMapping { db with out } q.mapping) q.mapping.source q.sourceOperation =
          { storeReconciled db q with out } := fun db out => hfold [q] db out
    simp only [applyReconciled, bind_ok_iff, enqueueAllow_ok, DB.enqueueOutbox_ok,
      applyReconciled_eq_ok, reconciledRequests, OutboxTables.enqueueAll_append]
    constructor
    · rintro ⟨_, ⟨o₁, ho₁, rfl⟩, _, ⟨o₂, ho₂, rfl⟩, o₃, ho₃, rfl⟩
      rw [hstore] at ho₂ ⊢
      refine ⟨o₃, ⟨o₁, ho₁, ?_⟩, ?_⟩
      · exact OutboxTables.enqueueAll_append.2 ⟨o₂, ho₂, ho₃⟩
      · exact congrArg (fun db : DB => { db with out := o₃ }) (hfold qs (storeReconciled db q) o₂)
    · rintro ⟨o₃, ⟨o₁, ho₁, h⟩, rfl⟩
      obtain ⟨o₂, ho₂, ho₃⟩ := OutboxTables.enqueueAll_cons.1 h
      refine ⟨_, ⟨o₁, ho₁, rfl⟩, _, ⟨o₂, ?_, rfl⟩, o₃, ho₃, ?_⟩
      · rw [hstore]
        exact OutboxTables.enqueueAll_cons.2 ⟨o₂, ho₂, rfl⟩
      · rw [hstore]
        exact congrArg (fun db : DB => { db with out := o₃ })
          (hfold qs (storeReconciled db q) o₂).symm

theorem applyReconciled_ok {registered : List (String × Bool)}
    {qs : List EventEnqueueRequest} {queued : List String} {db db' : DB}
    (h : applyReconciled registered qs queued db = .ok db') :
    db.out.enqueueAll (reconciledRequests registered qs queued) = .ok db'.out ∧
      db'.registrations = db.registrations ∧ db'.purges = db.purges ∧
      ∀ ref e, db'.bridgeEvents.get? ref = some e → db.bridgeEvents.get? ref = some e ∨
        ∃ q ∈ qs, q.mapping.source = ref ∧ q.mapping.row = e := by
  obtain ⟨out, hout, rfl⟩ := applyReconciled_eq_ok.1 h
  refine ⟨hout, ?_⟩
  clear h hout
  induction qs generalizing db with
  | nil => exact ⟨rfl, rfl, fun _ _ h => .inl h⟩
  | cons q qs ih =>
    obtain ⟨hreg, hpur, hev⟩ := @ih (storeReconciled db q)
    refine ⟨hreg.trans (saveOptionalOperation_registrations ..),
      hpur.trans (saveOptionalOperation_purges ..), fun ref e he => ?_⟩
    rcases hev ref e he with he | ⟨p, hp, hpe⟩
    swap
    · exact .inr ⟨p, List.mem_cons_of_mem _ hp, hpe⟩
    simp only [storeReconciled, saveOptionalOperation_bridgeEvents, DB.upsertEventMapping,
      Table.get?_set] at he
    split at he
    · rename_i hk
      cases he
      exact .inr ⟨q, List.mem_cons_self, hk.symm, rfl⟩
    · exact .inl he

theorem reconcileBatch_ok {q : ReconciliationBatchRequest} (h : reconcileBatch N db q = .ok db') :
    ∃ r, scanReconciled N db q.eventScopes q.events {} = .ok r ∧
      db.out.enqueueAll (reconciledRequests r.registered r.pending []) = .ok db'.out ∧
      db'.registrations = db.registrations ∧ db'.purges = db.purges ∧
      ∀ ref e, db'.bridgeEvents.get? ref = some e → db.bridgeEvents.get? ref = some e ∨
        ∃ p ∈ r.pending, p.mapping.source = ref ∧ p.mapping.row = e := by
  obtain ⟨-, h⟩ := check_ok_iff.1 h
  obtain ⟨r, hr, h⟩ := bind_ok_iff.1 h
  obtain ⟨-, h⟩ := check_ok_iff.1 h
  obtain ⟨db₁, h₁, he⟩ := bind_ok_iff.1 h
  cases he
  obtain ⟨hout, hreg, hpur, hev⟩ := applyReconciled_ok h₁
  refine ⟨r, hr, ?_, ?_, ?_, ?_⟩
  · rw [saveOptionalCursor_out]
    exact hout
  · rw [saveOptionalCursor_registrations, hreg]
    rfl
  · rw [saveOptionalCursor_purges, hpur]
    rfl
  · intro ref e he
    rw [saveOptionalCursor_bridgeEvents] at he
    exact hev ref e he

section

variable {id : Nat} {token pubKey : String} {now : Int}

theorem claimOutbox_ok {lease limit : Int} {rand : Option (Fin 16 → UInt8)}
    {items : List OutboxItem} (h : claimOutbox db now lease limit rand = .ok (db', items)) :
    0 < lease ∧ ((limit ≤ 0 ∧ db' = db ∧ items = []) ∨
      ∃ bytes out, ¬ limit ≤ 0 ∧ rand = some bytes ∧
        db.out.claimOutbox (newClaimToken bytes) (now + lease) now limit.toNat = .ok out ∧
        db' = { db with out } ∧
        items = (db.out.claimable now limit.toNat).map fun r =>
          outboxItem r (newClaimToken bytes) (now + lease)) := by
  obtain ⟨hl, h⟩ := check_ok_iff.1 h
  refine ⟨require_eq_ok.1 hl, ?_⟩
  split at h
  · rename_i hlim
    cases h
    exact .inl ⟨hlim, rfl, rfl⟩
  · rename_i hlim
    cases rand with
    | none => cases h
    | some bytes =>
      obtain ⟨out, hout, he⟩ := bind_ok_iff.1 h
      cases he
      exact .inr ⟨bytes, out, hlim, rfl, hout, rfl, rfl⟩

theorem completeOutbox_ok (h : completeOutbox db id token now = .ok db') :
    ∃ out, db.out.completeOutbox id token now = .ok out ∧ db' = { db with out } := by
  obtain ⟨out, hout, he⟩ := bind_ok_iff.1 h
  exact ⟨out, hout, (pure_ok_iff.1 he).symm⟩

theorem completePublisherRegistration_ok
    (h : completePublisherRegistration db id token pubKey now = .ok db') :
    ∃ out, db.out.completeOutbox id token now = .ok out ∧
      db' = { db with out }.setPublisherRegistered pubKey now := by
  obtain ⟨_, h, he⟩ := bind_ok_iff.1 h
  obtain ⟨out, hout, rfl⟩ := completeOutbox_ok h
  exact ⟨out, hout, (pure_ok_iff.1 he).symm⟩

theorem completePublisherUnregistration_ok
    (h : completePublisherUnregistration db id token now pubKey = .ok db') :
    ∃ out, db.out.completeOutbox id token now = .ok out ∧
      db' = (({ db with out }.clearPublisherRegistration pubKey).deletePublisherSourceOperations
        pubKey).deletePublisherMappings pubKey := by
  obtain ⟨_, h, he⟩ := bind_ok_iff.1 h
  obtain ⟨out, hout, rfl⟩ := completeOutbox_ok h
  exact ⟨out, hout, (pure_ok_iff.1 he).symm⟩

theorem recoverPublisherRegistration_ok
    (h : recoverPublisherRegistration db id token pubKey now = .ok db') :
    ∃ c out, db.out.claimedPublishEvent id token now = some c ∧ c.aggregateKey = pubKey ∧
      db.out.recoverPublish c pubKey now = .ok out ∧
      db' = { db.clearPublisherRegistration pubKey with out } := by
  unfold recoverPublisherRegistration at h
  cases hc : db.out.claimedPublishEvent id token now with
  | none =>
    rw [hc] at h
    cases h
  | some c =>
    rw [hc] at h
    obtain ⟨hk, h⟩ := check_ok_iff.1 h
    obtain ⟨out, hout, he⟩ := bind_ok_iff.1 h
    exact ⟨c, out, rfl, require_eq_ok.1 hk, hout, (pure_ok_iff.1 he).symm⟩

theorem retryOutbox_ok {availableAt : Int} {lastError : String}
    (h : retryOutbox db id token now availableAt lastError = .ok db') :
    ∃ out, db.out.retryOutbox id token now availableAt lastError = .ok out ∧
      db' = { db with out } := by
  obtain ⟨out, hout, he⟩ := bind_ok_iff.1 h
  exact ⟨out, hout, (pure_ok_iff.1 he).symm⟩

end

end SQLiteStore

/-! ## Every operation is its command -/

variable {op : StoreOp} {items : List OutboxItem}

theorem exec_out (h : op.exec N db = .ok (db', items)) :
    db.out.exec (op.cmd db) = .ok db'.out := by
  cases op <;> simp only [StoreOp.exec, map_ok_iff, Prod.mk.injEq] at h
  case enqueueOutbox r =>
    obtain ⟨_, h, rfl, -⟩ := h
    obtain ⟨-, -, -, out, hout, rfl⟩ := SQLiteStore.enqueueOutbox_ok h
    exact hout
  case saveEventAndEnqueue m r =>
    obtain ⟨_, h, rfl, -⟩ := h
    obtain ⟨-, -, -, -, out, hout, rfl⟩ := SQLiteStore.saveEventAndEnqueue_ok h
    exact hout
  case enqueueEvent q =>
    obtain ⟨_, h, rfl, -⟩ := h
    obtain ⟨-, -, -, -, -, out, hout, rfl⟩ := SQLiteStore.enqueueEvent_ok.1 h
    rw [saveOptionalOperation_out, saveOptionalCursor_out]
    exact hout
  case enqueueUpdate q =>
    obtain ⟨_, h, rfl, -⟩ := h
    obtain ⟨-, -, -, -, -, -, out, hout, rfl⟩ := SQLiteStore.enqueueUpdate_ok.1 h
    rw [saveOptionalCursor_out, saveOptionalOperation_out]
    exact hout
  case enqueueDelete q =>
    obtain ⟨_, h, rfl, -⟩ := h
    obtain ⟨-, -, -, -, -, -, out, hout, rfl⟩ := SQLiteStore.enqueueDelete_ok.1 h
    rw [saveOptionalCursor_out]
    exact hout
  case enqueuePurge q =>
    obtain ⟨_, h, rfl, -⟩ := h
    rcases SQLiteStore.enqueuePurge_ok h with ⟨hp, rfl⟩ | ⟨hp, -, -, d, out, -, hout, rfl⟩
    · simp only [StoreOp.cmd, StoreOp.requests, hp, if_true]
      rfl
    · exact hout
  case reconcileBatch q =>
    obtain ⟨_, h, rfl, -⟩ := h
    obtain ⟨r, hr, hout, -⟩ := SQLiteStore.reconcileBatch_ok h
    simp only [StoreOp.cmd, StoreOp.requests, ← SQLiteStore.reconciledRequests_eq hr]
    exact hout
  case claimOutbox now lease limit rand =>
    obtain ⟨-, ⟨hl, rfl, -⟩ | ⟨bytes, out, hl, rfl, hout, rfl, -⟩⟩ := SQLiteStore.claimOutbox_ok h
    · cases rand with
      | none => rfl
      | some bytes =>
        simp only [StoreOp.cmd, if_pos hl]
        rfl
    · simp only [StoreOp.cmd, if_neg hl]
      exact hout
  case completeOutbox id token now =>
    obtain ⟨_, h, rfl, -⟩ := h
    obtain ⟨out, hout, rfl⟩ := SQLiteStore.completeOutbox_ok h
    exact hout
  case completePublisherRegistration id token pubKey now =>
    obtain ⟨_, h, rfl, -⟩ := h
    obtain ⟨out, hout, rfl⟩ := SQLiteStore.completePublisherRegistration_ok h
    exact hout
  case completePublisherUnregistration id token now pubKey =>
    obtain ⟨_, h, rfl, -⟩ := h
    obtain ⟨out, hout, rfl⟩ := SQLiteStore.completePublisherUnregistration_ok h
    exact hout
  case recoverPublisherRegistration id token pubKey now =>
    obtain ⟨_, h, rfl, -⟩ := h
    obtain ⟨c, out, hc, hk, hout, rfl⟩ := SQLiteStore.recoverPublisherRegistration_ok h
    simp only [StoreOp.cmd, OutboxTables.exec, hc]
    exact check_ok_iff.2 ⟨require_eq_ok.2 hk, hout⟩
  case retryOutbox id token now availableAt lastError =>
    obtain ⟨_, h, rfl, -⟩ := h
    obtain ⟨out, hout, rfl⟩ := SQLiteStore.retryOutbox_ok h
    exact hout
  all_goals
    cases h
    rfl

/-- A request of an operation is for its own aggregate and, unless it ends a registration, for a
publisher that is not purged. -/
def Admitted (db : DB) (r : OutboxRequest) : Prop :=
  r.pubKey = r.aggregateKey ∧
    (r.operation ≠ .unallowPublisher → db.publisherPurged r.pubKey = false)

theorem Admitted.allow {r q : OutboxRequest} (h : Admitted db r)
    (hu : r.operation ≠ .unallowPublisher) (hq : q ∈ allowRequests db r) : Admitted db q := by
  unfold allowRequests at hq
  split at hq
  · cases hq
  · rw [List.mem_singleton.1 hq]
    exact ⟨h.1, fun _ => h.2 hu⟩

theorem Admitted.publish {r : OutboxRequest} (h : validatePublishRequest N r = .ok ())
    (hp : db.publisherPurged r.pubKey = false) :
    Admitted db r ∧ r.operation ≠ .unallowPublisher := by
  obtain ⟨ho, -⟩ := check_ok_iff.1 h
  have ho := require_eq_ok.1 ho
  exact ⟨⟨validatePublishRequest_own h, fun _ => hp⟩, by rw [ho]; decide⟩

theorem mem_reconciledRequests {registered : List (String × Bool)} {r : OutboxRequest} :
    ∀ {qs : List EventEnqueueRequest} {queued : List String},
      r ∈ reconciledRequests registered qs queued →
      ∃ q ∈ qs, r = q.event ∨ r = allowRequest q.event
  | q :: qs, queued, h => by
    rw [reconciledRequests, List.mem_append, List.mem_cons] at h
    rcases h with h | rfl | h
    · split at h
      · cases h
      · exact ⟨q, List.mem_cons_self, .inr (List.mem_singleton.1 h)⟩
    · exact ⟨q, List.mem_cons_self, .inl rfl⟩
    · obtain ⟨p, hp, he⟩ := mem_reconciledRequests h
      exact ⟨p, List.mem_cons_of_mem _ hp, he⟩

theorem requests_admitted (h : op.exec N db = .ok (db', items)) :
    ∀ r ∈ op.requests db, Admitted db r := by
  intro r hr
  cases op <;> simp only [StoreOp.exec, map_ok_iff, Prod.mk.injEq] at h
  case enqueueOutbox q =>
    obtain ⟨_, h, rfl, -⟩ := h
    obtain ⟨hown, -, hp, out, hout, rfl⟩ := SQLiteStore.enqueueOutbox_ok h
    rw [List.mem_singleton.1 hr]
    refine ⟨?_, hp⟩
    -- the table refuses an operation that the checks let through
    obtain ⟨_, h₁, he⟩ := OutboxTables.enqueueAll_cons.1 hout
    cases he
    refine (hown ?_).2.symm
    have hk := out.outbox.valid.known
    rw [(OutboxTables.enqueueOutbox_ok h₁).1] at hk
    exact hk _ (List.mem_append_right _ (List.mem_singleton.2 rfl))
  case saveEventAndEnqueue m q =>
    obtain ⟨_, h, rfl, -⟩ := h
    obtain ⟨-, hv, -, hp, -⟩ := SQLiteStore.saveEventAndEnqueue_ok h
    rw [List.mem_singleton.1 hr]
    exact (Admitted.publish hv hp).1
  case enqueueEvent q =>
    obtain ⟨_, h, rfl, -⟩ := h
    obtain ⟨-, hv, -, hp, -⟩ := SQLiteStore.enqueueEvent_ok.1 h
    obtain ⟨ha, hu⟩ := Admitted.publish hv hp
    rcases List.mem_append.1 hr with hr | hr
    · exact ha.allow hu hr
    · exact List.mem_singleton.1 hr ▸ ha
  case enqueueUpdate q =>
    obtain ⟨_, h, rfl, -⟩ := h
    obtain ⟨⟨hk, -⟩, hvd, hv, -, hp, -⟩ := SQLiteStore.enqueueUpdate_ok.1 h
    obtain ⟨ha, hu⟩ := Admitted.publish hv hp
    rcases List.mem_append.1 hr with hr | hr
    · exact ha.allow hu hr
    · rcases List.mem_cons.1 hr with rfl | hr
      · exact (Admitted.publish hvd (hk ▸ hp)).1
      · exact List.mem_singleton.1 hr ▸ ha
  case enqueueDelete q =>
    obtain ⟨_, h, rfl, -⟩ := h
    obtain ⟨-, -, -, hv, hp, -⟩ := SQLiteStore.enqueueDelete_ok.1 h
    obtain ⟨ha, hu⟩ := Admitted.publish hv hp
    rcases List.mem_append.1 hr with hr | hr
    · exact ha.allow hu hr
    · exact List.mem_singleton.1 hr ▸ ha
  case enqueuePurge q =>
    simp only [StoreOp.requests] at hr
    split at hr
    · cases hr
    · rename_i hp
      have hp : db.publisherPurged q.pubKey = false := by simpa using hp
      rcases List.mem_cons.1 hr with rfl | hr
      · exact ⟨rfl, fun _ => hp⟩
      · rw [List.mem_singleton.1 hr]
        exact ⟨rfl, fun hu => absurd rfl hu⟩
  case reconcileBatch q =>
    obtain ⟨_, h, rfl, -⟩ := h
    obtain ⟨s, hs, -⟩ := SQLiteStore.reconcileBatch_ok h
    rw [StoreOp.requests, ← SQLiteStore.reconciledRequests_eq hs] at hr
    obtain ⟨p, hp, he⟩ := mem_reconciledRequests hr
    have hc := (SQLiteStore.checked_of_scanned hs hp).2
    obtain ⟨-, hv, -, hpur⟩ := SQLiteStore.checkReconciled_ok hc
    obtain ⟨ha, -⟩ := Admitted.publish hv hpur
    rcases he with rfl | rfl
    · exact ha
    · exact ⟨ha.1, fun _ => hpur⟩
  all_goals cases hr

end Bridge
