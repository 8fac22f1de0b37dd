import Mytools.Bridge.Proof.Reconcile

/-!
# Limits of the outbox

The calls that take a limit have one shape: checks, then the comparison of the rows that are there
and the rows to insert with the limit, then the inserts. `Gated` says what follows from this shape;
each call is shown to have it from the front, check by check.
-/

namespace Bridge

open Lib

variable {N : Nostr.Library} {db : DB}

/-! ## Calls -/

/-- The calls that enqueue up to a limit. -/
inductive LimitedCall
  | event (q : EventEnqueueRequest)
  | update (q : UpdateEnqueueRequest)
  | delete (q : DeleteEnqueueRequest)
  | purge (q : PurgeRequest)
  | reconcile (q : ReconciliationBatchRequest)

namespace LimitedCall

def op : LimitedCall → StoreOp
  | event q => .enqueueEvent q
  | update q => .enqueueUpdate q
  | delete q => .enqueueDelete q
  | purge q => .enqueuePurge q
  | reconcile q => .reconcileBatch q

def limit : LimitedCall → Int
  | event q => q.limit
  | update q => q.limit
  | delete q => q.limit
  | purge q => q.limit
  | reconcile q => q.limit

/-- One row for the registration of a publisher that is neither registered nor pending. -/
def allowRows (db : DB) (r : OutboxRequest) : Nat :=
  if db.publisherRegisteredOrPending r.pubKey r.aggregateKey then 0 else 1

/-- The rows that the call inserts if nothing stops it: for a batch one for each event that is not
skipped, and one for each publisher of such an event that is neither registered nor pending. -/
def rows (db : DB) : LimitedCall → Nat
  | event q => allowRows db q.event + 1
  | update q => allowRows db q.replacement + 2
  | delete q => allowRows db q.event + 1
  | purge q => if db.publisherPurged q.pubKey then 0 else 2
  | reconcile q =>
    (SQLiteStore.freshEvents db q.events).length +
      (SQLiteStore.newPublishers db (SQLiteStore.freshEvents db q.events)).card

/-- The signed deletion of a purge names exactly the publisher's events. -/
def Covers (N : Nostr.Library) (db : DB) (q : PurgeRequest) (deletion : Nostr.Event) : Prop :=
  (deletion.kind = 5 ∧ deletion.pubKey = q.pubKey ∧ N.checkID deletion ∧
      N.verifySignature deletion) ∧
    (SQLiteStore.eTags deletion).eraseDups.length = (db.eventIDsByAuthor q.pubKey).length ∧
    ∀ id ∈ db.eventIDsByAuthor q.pubKey, id ∈ (SQLiteStore.eTags deletion).eraseDups

/-- The checks of the call beside the one of the limit. A purge that was made before does not get
to the limit. -/
def Checked (N : Nostr.Library) (db : DB) : LimitedCall → Prop
  | event q => q.event.pubKey = q.mapping.authorPubKey ∧ validatePublishRequest N q.event = .ok () ∧
      validateMappingEventID N q.mapping q.event = .ok () ∧
      db.publisherPurged q.event.pubKey = false
  | update q => (q.deletion.pubKey = q.replacement.pubKey ∧
        q.replacement.pubKey = q.mapping.authorPubKey) ∧
      validatePublishRequest N q.deletion = .ok () ∧
      validatePublishRequest N q.replacement = .ok () ∧
      validateMappingEventID N q.mapping q.replacement = .ok () ∧
      db.publisherPurged q.replacement.pubKey = false
  | delete q => ∃ stored, db.bridgeEvents.get? q.source = some stored ∧
      q.event.pubKey = stored.authorPubKey ∧ validatePublishRequest N q.event = .ok () ∧
      db.publisherPurged q.event.pubKey = false
  | purge q => ∃ deletion, N.unmarshal q.payload = some deletion ∧ Covers N db q deletion ∧
      db.publisherPurged q.pubKey = false ∧ db.publisherUnallowPending q.pubKey = false ∧
      db.publisherRegistered q.pubKey = true
  | reconcile q => (q.cursor = none ∨ q.cursorScope ∈ q.eventScopes) ∧
      ∀ p ∈ q.events, SQLiteStore.checkReconciled N db q.eventScopes p = .ok ()

end LimitedCall

/-! ## Computations that never find the outbox full -/

def NeverFull {α : Type} (x : Except StoreErr α) : Prop := x ≠ .error .outboxFull

theorem neverFull_ok {α : Type} (a : α) : NeverFull (.ok a : Except StoreErr α) := by
  simp [NeverFull]

theorem neverFull_error {α : Type} {e : StoreErr} (he : e ≠ .outboxFull) :
    NeverFull (.error e : Except StoreErr α) := by
  simpa [NeverFull] using he

theorem neverFull_require {p : Prop} [Decidable p] {e : StoreErr} (he : e ≠ .outboxFull) :
    NeverFull (require p e) := by
  unfold require
  split
  · exact neverFull_ok ()
  · exact neverFull_error he

theorem NeverFull.bind {α β : Type} {x : Except StoreErr α} {f : α → Except StoreErr β}
    (hx : NeverFull x) (hf : ∀ a, x = .ok a → NeverFull (f a)) : NeverFull (x >>= f) := by
  cases x with
  | error e => exact fun h => hx (congrArg Except.error (Except.error.inj h))
  | ok a => exact hf a rfl

theorem neverFull_checkEventPayload (r : OutboxRequest) : NeverFull (checkEventPayload N r) := by
  unfold checkEventPayload
  split
  · exact neverFull_error (by decide)
  · exact (neverFull_require (by decide)).bind fun _ _ => neverFull_require (by decide)

theorem neverFull_validatePublishRequest (r : OutboxRequest) :
    NeverFull (validatePublishRequest N r) :=
  (neverFull_require (by decide)).bind fun _ _ =>
    (neverFull_require (by decide)).bind fun _ _ => neverFull_checkEventPayload r

theorem neverFull_validateMappingEventID (m : EventMapping) (r : OutboxRequest) :
    NeverFull (validateMappingEventID N m r) := by
  unfold validateMappingEventID
  split
  · exact neverFull_error (by decide)
  · exact neverFull_require (by decide)

theorem neverFull_rejectPurged (pubKey : String) : NeverFull (rejectPurged db pubKey) :=
  neverFull_require (by decide)

theorem neverFull_insert (o : Outbox) (row : Nat → OutboxRow) : NeverFull (o.insert row) := by
  unfold Outbox.insert Outbox.ofRows
  split
  · exact neverFull_ok _
  · exact neverFull_error (by decide)

theorem neverFull_enqueueOutbox (db : DB) (r : OutboxRequest) : NeverFull (db.enqueueOutbox r) := by
  refine NeverFull.bind ?_ fun _ _ => neverFull_ok _
  unfold OutboxTables.enqueueOutbox OutboxTables.insertOutbox
  split
  · exact neverFull_ok _
  · exact (neverFull_insert _ _).bind fun _ _ => neverFull_ok _

theorem neverFull_enqueueAllow (db : DB) (registered : Bool) (r : OutboxRequest) :
    NeverFull (enqueueAllow db registered r) := by
  unfold enqueueAllow
  split
  · exact neverFull_ok db
  · exact neverFull_enqueueOutbox db _

theorem neverFull_checkReconciled (scopes : List SourceScope) (q : EventEnqueueRequest) :
    NeverFull (SQLiteStore.checkReconciled N db scopes q) :=
  (neverFull_require (by decide)).bind fun _ _ => (neverFull_require (by decide)).bind fun _ _ =>
    (neverFull_validatePublishRequest _).bind fun _ _ =>
      (neverFull_validateMappingEventID _ _).bind fun _ _ => neverFull_rejectPurged _

theorem neverFull_scanReconciled (N : Nostr.Library) (db : DB) (scopes : List SourceScope) :
    ∀ (qs : List EventEnqueueRequest) (r : SQLiteStore.Reconciliation),
      NeverFull (SQLiteStore.scanReconciled N db scopes qs r)
  | [], r => neverFull_ok r
  | q :: qs, _ => (neverFull_checkReconciled scopes q).bind fun _ _ =>
      neverFull_scanReconciled N db scopes qs _

theorem neverFull_applyReconciled (registered : List (String × Bool)) :
    ∀ (qs : List EventEnqueueRequest) (queued : List String) (db : DB),
      NeverFull (SQLiteStore.applyReconciled registered qs queued db)
  | [], _, db => neverFull_ok db
  | q :: qs, _, db => (neverFull_enqueueAllow db _ q.event).bind fun _ _ =>
      (neverFull_enqueueOutbox _ q.event).bind fun _ _ =>
        neverFull_applyReconciled registered qs _ _

/-! ## Gated computations -/

/-- The computation fails for want of room exactly if `checked` holds and there is no room for
`rows` more rows, and its success leaves that many more rows, within the limit. -/
structure Gated (db : DB) (checked : Prop) (rows : Nat) (limit : Int) (x : Except StoreErr DB) :
    Prop where
  full : x = .error .outboxFull ↔ checked ∧ (limit ≤ 0 ∨ limit < db.out.outboxCount + rows)
  ok : ∀ db', x = .ok db' → db'.out.outboxCount = db.out.outboxCount + rows ∧
    (db.out.outboxCount < db'.out.outboxCount → db'.out.outboxCount ≤ limit)

variable {rows : Nat} {limit : Int} {checked : Prop} {x : Except StoreErr DB}

theorem Gated.room {body : Unit → Except StoreErr DB} (hfull : NeverFull (body ()))
    (hok : ∀ db', body () = .ok db' → db'.out.outboxCount = db.out.outboxCount + rows) :
    Gated db True rows limit (requireRoom db rows limit >>= body) := by
  unfold requireRoom require
  split
  · rename_i hroom
    refine ⟨iff_of_false hfull ?_, fun db' h => ⟨hok db' h, fun _ => ?_⟩⟩
    · omega
    · rw [hok db' h]
      exact hroom.2
  · rename_i hroom
    refine ⟨iff_of_true rfl ⟨trivial, by omega⟩, fun db' h => ?_⟩
    cases h

theorem Gated.check {c : Except StoreErr Unit} {p : Prop} (hc : NeverFull c) (hp : c = .ok () ↔ p)
    {body : Unit → Except StoreErr DB} (h : Gated db checked rows limit (body ())) :
    Gated db (p ∧ checked) rows limit (c >>= body) := by
  cases c with
  | error e =>
    have hno : ¬ p := fun h => by cases hp.2 h
    refine ⟨iff_of_false (fun he => ?_) fun he => hno he.1.1, fun db' he => ?_⟩
    · exact hc (congrArg Except.error (Except.error.inj he))
    · cases he
  | ok u =>
    have hyes : p := hp.1 rfl
    refine ⟨?_, h.ok⟩
    rw [and_assoc]
    exact h.full.trans ⟨fun he => ⟨hyes, he⟩, fun he => he.2⟩

theorem Gated.congr {checked' : Prop} (h : Gated db checked rows limit x)
    (hc : checked ↔ checked') : Gated db checked' rows limit x :=
  ⟨h.full.trans (and_congr_left' hc), h.ok⟩

/-- A failure of an earlier check. -/
theorem Gated.error {e : StoreErr} (he : e ≠ .outboxFull) (hno : ¬ checked) :
    Gated db checked rows limit (.error e) :=
  ⟨iff_of_false (fun h => he (Except.error.inj h)) fun h => hno h.1, fun _ h => by cases h⟩

theorem outboxCount_enqueueAll : ∀ {rs : List OutboxRequest} {t t' : OutboxTables},
    t.enqueueAll rs = .ok t' → t'.outboxCount = t.outboxCount + rs.length
  | [], _, _, h => by
    cases h
    simp
  | r :: rs, t, t', h => by
    obtain ⟨t₁, h₁, h⟩ := OutboxTables.enqueueAll_cons.1 h
    rw [outboxCount_enqueueAll h, OutboxTables.outboxCount, (OutboxTables.enqueueOutbox_ok h₁).1,
      OutboxTables.outboxCount]
    simp only [List.length_append, List.length_cons, List.length_nil]
    push_cast
    omega

theorem outboxCount_enqueueOutbox {db' : DB} {r : OutboxRequest}
    (h : db.enqueueOutbox r = .ok db') : db'.out.outboxCount = db.out.outboxCount + 1 := by
  obtain ⟨out, hout, rfl⟩ := DB.enqueueOutbox_ok.1 h
  exact outboxCount_enqueueAll hout

theorem outboxCount_enqueueAllow {db' : DB} {r : OutboxRequest}
    (h : enqueueAllow db (db.publisherRegisteredOrPending r.pubKey r.aggregateKey) r = .ok db') :
    db'.out.outboxCount = db.out.outboxCount + LimitedCall.allowRows db r := by
  obtain ⟨out, hout, rfl⟩ := enqueueAllow_ok.1 h
  rw [outboxCount_enqueueAll hout, LimitedCall.allowRows]
  split <;> rfl

/-! ## The calls -/

namespace SQLiteStore

open LimitedCall

/-- Room for `n` rows and the registration, then the registration, then the `n` rows. -/
theorem gated_allow (r : OutboxRequest) (n : Nat) {rest : DB → Except StoreErr DB}
    (hfull : ∀ db₁, NeverFull (rest db₁))
    (hok : ∀ db₁ db', rest db₁ = .ok db' → db'.out.outboxCount = db₁.out.outboxCount + n) :
    Gated db True (allowRows db r + n) limit
      (requireRoom db
          (if db.publisherRegisteredOrPending r.pubKey r.aggregateKey then (n : Int) else n + 1)
          limit >>= fun _ =>
        enqueueAllow db (db.publisherRegisteredOrPending r.pubKey r.aggregateKey) r >>= rest) := by
  have hneeded : (if db.publisherRegisteredOrPending r.pubKey r.aggregateKey then (n : Int)
      else n + 1) = ((allowRows db r + n : Nat) : Int) := by
    unfold allowRows
    split
    · simp
    · push_cast
      omega
  rw [hneeded]
  refine .room ((neverFull_enqueueAllow _ _ _).bind fun db₁ _ => hfull db₁) fun db' h => ?_
  obtain ⟨db₁, h₁, h⟩ := bind_ok_iff.1 h
  rw [hok db₁ db' h, outboxCount_enqueueAllow h₁]
  push_cast
  omega

theorem gated_enqueueEvent (q : EventEnqueueRequest) :
    Gated db (Checked N db (.event q)) ((LimitedCall.event q).rows db) q.limit
      (enqueueEvent N db q) := by
  refine Gated.congr (.check (neverFull_require (by decide)) require_eq_ok <|
    .check (neverFull_validatePublishRequest _) Iff.rfl <|
    .check (neverFull_validateMappingEventID _ _) Iff.rfl <|
    .check (neverFull_rejectPurged _) rejectPurged_ok <|
    gated_allow q.event 1 (fun _ => ?_) fun db₁ db' h => ?_) (by simp only [and_true]; rfl)
  · exact (neverFull_enqueueOutbox _ _).bind fun _ _ => neverFull_ok _
  · obtain ⟨db₂, h₂, h⟩ := bind_ok_iff.1 h
    cases h
    have hcount := outboxCount_enqueueOutbox h₂
    rw [saveOptionalOperation_out, saveOptionalCursor_out]
    exact hcount

theorem gated_enqueueUpdate (q : UpdateEnqueueRequest) :
    Gated db (Checked N db (.update q)) ((LimitedCall.update q).rows db) q.limit
      (enqueueUpdate N db q) := by
  refine Gated.congr (.check (neverFull_require (by decide)) require_eq_ok <|
    .check (neverFull_validatePublishRequest _) Iff.rfl <|
    .check (neverFull_validatePublishRequest _) Iff.rfl <|
    .check (neverFull_validateMappingEventID _ _) Iff.rfl <|
    .check (neverFull_rejectPurged _) rejectPurged_ok <|
    gated_allow q.replacement 2 (fun _ => ?_) fun db₁ db' h => ?_) (by simp only [and_true]; rfl)
  · exact (neverFull_enqueueOutbox _ _).bind fun _ _ =>
      (neverFull_enqueueOutbox _ _).bind fun _ _ => neverFull_ok _
  · obtain ⟨db₂, h₂, h⟩ := bind_ok_iff.1 h
    obtain ⟨db₃, h₃, h⟩ := bind_ok_iff.1 h
    cases h
    rw [saveOptionalCursor_out, saveOptionalOperation_out, outboxCount_enqueueOutbox h₃]
    show db₂.out.outboxCount + 1 = _
    rw [outboxCount_enqueueOutbox h₂]
    omega

theorem gated_enqueueDelete (q : DeleteEnqueueRequest) :
    Gated db (Checked N db (.delete q)) ((LimitedCall.delete q).rows db) q.limit
      (enqueueDelete N db q) := by
  unfold enqueueDelete
  cases hg : db.bridgeEvents.get? q.source with
  | none =>
    refine .error (by decide) ?_
    rintro ⟨_, hs, _⟩
    rw [hg] at hs
    cases hs
  | some stored =>
    refine Gated.congr (.check (neverFull_require (by decide)) require_eq_ok <|
      .check (neverFull_validatePublishRequest _) Iff.rfl <|
      .check (neverFull_rejectPurged _) rejectPurged_ok <|
      gated_allow q.event 1 (fun _ => ?_) fun db₁ db' h => ?_) ?_
    · exact (neverFull_enqueueOutbox _ _).bind fun _ _ => neverFull_ok _
    · obtain ⟨db₂, h₂, h⟩ := bind_ok_iff.1 h
      cases h
      have hcount := outboxCount_enqueueOutbox h₂
      rw [saveOptionalCursor_out]
      exact hcount
    · simp [Checked, hg]

theorem gated_enqueuePurge (q : PurgeRequest) :
    Gated db (Checked N db (.purge q)) ((LimitedCall.purge q).rows db) q.limit
      (enqueuePurge N db q) := by
  unfold enqueuePurge
  cases hd : N.unmarshal q.payload with
  | none =>
    refine .error (by decide) ?_
    rintro ⟨_, hs, _⟩
    rw [hd] at hs
    cases hs
  | some deletion =>
    cases hm : db.purges.get? q.pubKey with
    | some marked =>
      have hp : db.publisherPurged q.pubKey = true := by rw [DB.publisherPurged, hm]; rfl
      have hrows : (LimitedCall.purge q).rows db = 0 := by simp [LimitedCall.rows, hp]
      have hno : ¬ Checked N db (.purge q) := by
        rintro ⟨_, -, -, hf, -⟩
        rw [hp] at hf
        cases hf
      -- The marker is compared; the limit is not looked at.
      refine ⟨iff_of_false ?_ fun h => hno h.1, fun db' h => ?_⟩
      · refine (neverFull_require (by decide)).bind fun _ _ =>
          (neverFull_require (by decide)).bind fun _ _ => ?_
        simp only
        split
        · exact neverFull_ok db
        · exact neverFull_error (by decide)
      · obtain ⟨-, h⟩ := check_ok_iff.1 h
        obtain ⟨-, h⟩ := check_ok_iff.1 h
        rw [hrows]
        simp only at h
        split at h
        · cases h
          exact ⟨by simp, fun hlt => absurd hlt (lt_irrefl _)⟩
        · cases h
    | none =>
      have hp : db.publisherPurged q.pubKey = false := by rw [DB.publisherPurged, hm]; rfl
      have hrows : (LimitedCall.purge q).rows db = 2 := by simp [LimitedCall.rows, hp]
      rw [hrows]
      refine Gated.congr (.check (neverFull_require (by decide)) require_eq_ok <|
        .check (neverFull_require (by decide)) require_eq_ok <|
        .check (neverFull_require (by decide)) require_eq_ok <|
        .check (neverFull_require (by decide)) require_eq_ok <|
        .room ?_ fun db' h => ?_) ?_
      · exact (neverFull_enqueueOutbox _ _).bind fun _ _ => neverFull_enqueueOutbox _ _
      · obtain ⟨db₁, h₁, h₂⟩ := bind_ok_iff.1 h
        rw [outboxCount_enqueueOutbox h₂, outboxCount_enqueueOutbox h₁]
        show db.out.outboxCount + 1 + 1 = _
        omega
      · simp [Checked, Covers, hd, hp, and_assoc]

theorem gated_reconcileBatch (q : ReconciliationBatchRequest) :
    Gated db (Checked N db (.reconcile q)) ((LimitedCall.reconcile q).rows db) q.limit
      (reconcileBatch N db q) := by
  refine Gated.check (neverFull_require (by decide)) require_eq_ok ?_
  by_cases hchecks : ∀ p ∈ q.events, checkReconciled N db q.eventScopes p = .ok ()
  · have hplan := scanned_plan hchecks
    have hneeded : (plan db q.events).needed = ((LimitedCall.reconcile q).rows db : Nat) := by
      rw [hplan.needed, LimitedCall.rows]
      push_cast
      rfl
    have hscan : scanReconciled N db q.eventScopes q.events {} = .ok (plan db q.events) :=
      scanReconciled_eq_ok.2 ⟨hchecks, rfl⟩
    simp only [hscan]
    refine Gated.congr ?_ (iff_of_true trivial hchecks)
    show Gated db True _ q.limit (requireRoom db (plan db q.events).needed q.limit >>= _)
    rw [hneeded]
    refine .room ((neverFull_applyReconciled _ _ _ _).bind fun _ _ => neverFull_ok _) ?_
    intro db' h
    obtain ⟨db₁, h₁, h⟩ := bind_ok_iff.1 h
    cases h
    obtain ⟨out, hout, rfl⟩ := applyReconciled_eq_ok.1 h₁
    rw [saveOptionalCursor_out]
    show out.outboxCount = db.out.outboxCount + _
    have hcount := outboxCount_enqueueAll hout
    rw [hplan.length_requests, hneeded] at hcount
    exact hcount
  · cases hscan : scanReconciled N db q.eventScopes q.events {} with
    | ok r => exact absurd (scanReconciled_eq_ok.1 hscan).1 hchecks
    | error e =>
      have he : e ≠ .outboxFull := fun he =>
        neverFull_scanReconciled N db q.eventScopes q.events {} (by rw [hscan, he])
      exact .error he hchecks

end SQLiteStore

theorem gated_exec (N : Nostr.Library) (db : DB) (c : LimitedCall) :
    ∃ x, c.op.exec N db = x.map (·, []) ∧ Gated db (c.Checked N db) (c.rows db) c.limit x := by
  cases c with
  | event q => exact ⟨_, rfl, SQLiteStore.gated_enqueueEvent q⟩
  | update q => exact ⟨_, rfl, SQLiteStore.gated_enqueueUpdate q⟩
  | delete q => exact ⟨_, rfl, SQLiteStore.gated_enqueueDelete q⟩
  | purge q => exact ⟨_, rfl, SQLiteStore.gated_enqueuePurge q⟩
  | reconcile q => exact ⟨_, rfl, SQLiteStore.gated_reconcileBatch q⟩

/-- A call with a limit: its success inserts the rows that are counted for it and leaves no more
rows than the limit if it inserts any; it finds the outbox full exactly if its other checks pass and
the limit is not positive or below the rows that are there and those to insert; and an error, the
database's own included, leaves the database as it was, by the very definition of `Call.next`: an
operation is one transaction, and a transaction that fails is rolled back. -/
theorem limits_exact (N : Nostr.Library) (db : DB) (c : LimitedCall) :
    (∀ db' items, c.op.exec N db = .ok (db', items) →
      db'.out.outboxCount = db.out.outboxCount + c.rows db ∧
      (db.out.outboxCount < db'.out.outboxCount → db'.out.outboxCount ≤ c.limit)) ∧
    (c.op.exec N db = .error .outboxFull ↔
      c.Checked N db ∧ (c.limit ≤ 0 ∨ c.limit < db.out.outboxCount + c.rows db)) ∧
    ∀ (call : Call) e, call.op = c.op → call.result N db = .error e → call.next N db = db := by
  obtain ⟨x, hx, hgated⟩ := gated_exec N db c
  refine ⟨fun db' items h => ?_, ?_, fun call e _ he => Call.next_of_error he⟩
  · rw [hx, map_ok_iff] at h
    obtain ⟨_, h, he⟩ := h
    cases he
    exact hgated.ok db' h
  · rw [hx, ← hgated.full]
    cases x with
    | error e => exact ⟨fun h => congrArg Except.error (Except.error.inj h),
        fun h => by rw [h]; rfl⟩
    | ok a =>
      constructor
      · intro h
        cases h
      · intro h
        cases h

/-- The batch of one post fills an outbox with two places, and one place is too few for it. -/
theorem limits_exact_onePost :
    (∃ db',
      (StoreOp.reconcileBatch onePostBatch).exec Nostr.Library.plain DB.empty = .ok (db', []) ∧
      db'.out.outboxCount ≤ 2) ∧
    (StoreOp.reconcileBatch { onePostBatch with limit := 1 }).exec Nostr.Library.plain DB.empty =
      .error .outboxFull := by
  have hok : (StoreOp.reconcileBatch onePostBatch).exec Nostr.Library.plain DB.empty = .ok _ := rfl
  refine ⟨⟨_, hok, ?_⟩, ?_⟩
  · exact ((limits_exact Nostr.Library.plain DB.empty (.reconcile onePostBatch)).1 _ _ hok).2
      (by decide)
  · refine (limits_exact Nostr.Library.plain DB.empty
      (.reconcile { onePostBatch with limit := 1 })).2.1.2 ⟨⟨by decide, ?_⟩, .inr (by decide)⟩
    intro p hp
    rw [List.mem_singleton.1 hp]
    rfl

end Bridge
