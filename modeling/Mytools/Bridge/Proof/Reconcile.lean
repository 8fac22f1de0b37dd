import Mytools.Bridge.Proof.Claims

/-!
# The two passes of `ReconcileBatch`

The first pass checks every event and plans what to insert (`Scanned`), the second inserts. A batch
that was applied once has nothing left to insert: the second run skips each event by the mapping or
the identity that the first run wrote or found (`reconcileBatch_idempotent`).
-/

namespace Bridge

open Lib

variable {N : Nostr.Library} {db db' : DB}

namespace SQLiteStore

/-! ## The second pass -/

/-- The second pass inserts a row for each event, and one for each publisher whose registration is
neither planned nor queued. -/
theorem length_reconciledRequests {registered : List (String × Bool)} :
    ∀ (qs : List EventEnqueueRequest) (queued : List String),
      (reconciledRequests registered qs queued).length = qs.length +
        ((publishers qs).filter fun pk =>
          (registered.lookup pk).getD false = false ∧ pk ∉ queued).card
  | [], _ => rfl
  | q :: qs, queued => by
    have hcons : publishers (q :: qs) = insert q.event.pubKey (publishers qs) := by
      simp [publishers]
    rw [reconciledRequests, List.length_append, List.length_cons, length_reconciledRequests qs,
      hcons, Finset.filter_insert, List.length_cons]
    cases hk : (registered.lookup q.event.pubKey).getD false ||
        decide (q.event.pubKey ∈ queued) with
    | true =>
      have hno : ¬ ((registered.lookup q.event.pubKey).getD false = false ∧
          q.event.pubKey ∉ queued) := by
        rintro ⟨hr, hq⟩
        simp [hr, hq] at hk
      rw [if_neg hno]
      simp only [if_true, List.length_nil]
      omega
    | false =>
      have hyes : (registered.lookup q.event.pubKey).getD false = false ∧
          q.event.pubKey ∉ queued := by simpa using hk
      rw [if_pos hyes]
      simp only [Bool.false_eq_true, if_false, List.length_singleton]
      -- The publishers left for the rest are the others.
      have hrest : ((publishers qs).filter fun pk => (registered.lookup pk).getD false = false ∧
            pk ∉ q.event.pubKey :: queued) =
          ((publishers qs).filter fun pk => (registered.lookup pk).getD false = false ∧
            pk ∉ queued).erase q.event.pubKey := by
        ext pk
        simp only [Finset.mem_filter, Finset.mem_erase, List.mem_cons, not_or]
        tauto
      rw [hrest, Finset.card_erase_eq_ite, Finset.card_insert_eq_ite]
      split
      · rename_i hm
        have := Finset.card_pos.2 ⟨_, hm⟩
        omega
      · omega

/-- The two passes agree on the number of rows. -/
theorem Scanned.length_requests {r : Reconciliation} {qs : List EventEnqueueRequest}
    (h : Scanned db r qs) :
    ((reconciledRequests r.registered r.pending []).length : Int) = r.needed := by
  rw [h.needed, h.pending, length_reconciledRequests]
  have hsame : ((publishers qs).filter fun pk =>
      (r.registered.lookup pk).getD false = false ∧ pk ∉ []) = newPublishers db qs := by
    refine Finset.filter_congr fun pk hpk => ?_
    rw [h.registered, if_pos hpk]
    simp
  rw [hsame]
  push_cast
  rfl

/-! ## Both passes -/

/-- What the first pass plans for the events of a batch. -/
def plan (db : DB) (qs : List EventEnqueueRequest) : Reconciliation :=
  (freshEvents db qs).foldl (Reconciliation.add db) {}

theorem scanned_plan {scopes : List SourceScope} {qs : List EventEnqueueRequest}
    (h : ∀ q ∈ qs, checkReconciled N db scopes q = .ok ()) :
    Scanned db (plan db qs) (freshEvents db qs) :=
  scanned_of_ok (scanReconciled_eq_ok.2 ⟨h, rfl⟩)

theorem reconcileBatch_eq_ok {q : ReconciliationBatchRequest} :
    reconcileBatch N db q = .ok db' ↔
      (q.cursor = none ∨ q.cursorScope ∈ q.eventScopes) ∧
      (∀ p ∈ q.events, checkReconciled N db q.eventScopes p = .ok ()) ∧
      (0 < q.limit ∧ db.out.outboxCount + (plan db q.events).needed ≤ q.limit) ∧
      ∃ out, db.out.enqueueAll
          (reconciledRequests (plan db q.events).registered (plan db q.events).pending []) =
            .ok out ∧
        db' = saveOptionalCursor
          { (plan db q.events).pending.foldl storeReconciled
              (db.replaceSyncTargets q.targetScope q.targets) with out }
          q.cursorScope q.cursor := by
  simp only [reconcileBatch, require_eq_ok, bind_ok_iff, scanReconciled_eq_ok, requireRoom,
    applyReconciled_eq_ok]
  constructor
  · rintro ⟨_, hc, _, ⟨hs, rfl⟩, _, hroom, _, ⟨out, hout, rfl⟩, he⟩
    cases he
    exact ⟨hc, hs, hroom, out, hout, rfl⟩
  · rintro ⟨hc, hs, hroom, out, hout, rfl⟩
    exact ⟨(), hc, _, ⟨hs, rfl⟩, (), hroom, _, ⟨out, hout, rfl⟩, rfl⟩

/-! ## Running a batch again -/

/-- Storing events leaves the rows of other sources. -/
theorem foldl_storeReconciled_other {ref : SourceRef} :
    ∀ {qs : List EventEnqueueRequest} (db : DB), (∀ q ∈ qs, q.mapping.source ≠ ref) →
      (qs.foldl storeReconciled db).bridgeEvents.get? ref = db.bridgeEvents.get? ref ∧
        (qs.foldl storeReconciled db).operations.get? ref = db.operations.get? ref
  | [], _, _ => ⟨rfl, rfl⟩
  | q :: qs, db, h => by
    have hne : ref ≠ q.mapping.source := fun he => h q List.mem_cons_self he.symm
    obtain ⟨hev, hop⟩ := foldl_storeReconciled_other (storeReconciled db q)
      fun p hp => h p (List.mem_cons_of_mem _ hp)
    refine ⟨hev.trans ?_, hop.trans ?_⟩
    · rw [storeReconciled, saveOptionalOperation_bridgeEvents, DB.upsertEventMapping,
        Table.get?_set, if_neg hne]
    · unfold storeReconciled saveOptionalOperation
      split
      · rfl
      · rw [DB.saveSourceOperation, Table.get?_set, if_neg hne]
        rfl

theorem foldl_storeReconciled_syncTargets (qs : List EventEnqueueRequest) (db : DB) :
    (qs.foldl storeReconciled db).syncTargets = db.syncTargets := by
  induction qs generalizing db with
  | nil => rfl
  | cons q qs ih =>
    rw [List.foldl_cons, ih, storeReconciled]
    unfold saveOptionalOperation
    split <;> rfl

theorem alreadyReconciled_congr {q : EventEnqueueRequest}
    (hev : db'.bridgeEvents.get? q.mapping.source = db.bridgeEvents.get? q.mapping.source)
    (hop : db'.operations.get? q.mapping.source = db.operations.get? q.mapping.source) :
    alreadyReconciled db' q = alreadyReconciled db q := by
  unfold alreadyReconciled
  rw [hev, hop]

/-- An event that was just stored is skipped. -/
theorem alreadyReconciled_stored (db : DB) (q : EventEnqueueRequest) :
    alreadyReconciled (storeReconciled db q) q = true := by
  have hev : (storeReconciled db q).bridgeEvents.get? q.mapping.source = some q.mapping.row := by
    rw [storeReconciled, saveOptionalOperation_bridgeEvents, DB.upsertEventMapping,
      Table.get?_set, if_pos rfl]
  rw [alreadyReconciled, hev]
  by_cases hop : q.sourceOperation = ""
  · simp [hop, EventMapping.row]
  · simp [hop, storeReconciled, saveOptionalOperation, DB.saveSourceOperation, Table.get?_set]

/-- Every event of a stored list with distinct sources is skipped. -/
theorem alreadyReconciled_foldl :
    ∀ {qs : List EventEnqueueRequest} {db : DB}, (qs.map (·.mapping.source)).Nodup →
      ∀ q ∈ qs, alreadyReconciled (qs.foldl storeReconciled db) q = true
  | p :: qs, db, hnodup, q, hq => by
    rw [List.map_cons, List.nodup_cons] at hnodup
    rcases List.mem_cons.1 hq with rfl | hq
    · have hother : ∀ x ∈ qs, x.mapping.source ≠ q.mapping.source := fun x hx he =>
        hnodup.1 (List.mem_map.2 ⟨x, hx, he⟩)
      obtain ⟨hev, hop⟩ := foldl_storeReconciled_other (storeReconciled db q) hother
      exact (alreadyReconciled_congr hev hop).trans (alreadyReconciled_stored db q)
    · exact alreadyReconciled_foldl hnodup.2 q hq

/-- After the second pass every event of the batch is skipped: by what this pass wrote, or by what
the first pass found. -/
theorem alreadyReconciled_after (db : DB) {qs : List EventEnqueueRequest}
    (hnodup : (qs.map (·.mapping.source)).Nodup) :
    ∀ q ∈ qs, alreadyReconciled ((freshEvents db qs).foldl storeReconciled db) q = true := by
  intro q hq
  cases h : alreadyReconciled db q with
  | false =>
    have hfresh : q ∈ freshEvents db qs := List.mem_filter.2 ⟨hq, by rw [h]; rfl⟩
    exact alreadyReconciled_foldl (hnodup.sublist (List.filter_sublist.map _)) q hfresh
  | true =>
    have hother : ∀ p ∈ freshEvents db qs, p.mapping.source ≠ q.mapping.source := by
      intro p hp he
      obtain ⟨hpm, hpf⟩ := List.mem_filter.1 hp
      rw [List.inj_on_of_nodup_map hnodup hpm hq he, h] at hpf
      exact absurd hpf (by decide)
    obtain ⟨hev, hop⟩ := foldl_storeReconciled_other db hother
    rw [alreadyReconciled_congr hev hop, h]

/-- The targets of a scope after they were replaced. -/
theorem get?_replaceSyncTargets (scope : SourceScope) (targets : List String)
    (k : SourceScope × String) :
    (db.replaceSyncTargets scope targets).syncTargets.get? k =
      if k.1 = scope then if k.2 ∈ targets then some () else none else db.syncTargets.get? k := by
  have hfold : ∀ (targets : List String) (t : Table (SourceScope × String) Unit),
      (targets.foldl (fun t target => t.set (scope, target) ()) t).get? k =
        if k.1 = scope ∧ k.2 ∈ targets then some () else t.get? k := by
    intro targets
    induction targets with
    | nil => simp
    | cons target targets ih =>
      intro t
      rw [List.foldl_cons, ih, Table.get?_set]
      have hkey : k = (scope, target) ↔ k.1 = scope ∧ k.2 = target := Prod.ext_iff
      by_cases hs : k.1 = scope <;> by_cases ht : k.2 = target <;> simp [hkey, hs, ht]
  rw [DB.replaceSyncTargets, hfold, Table.get?_filter]
  by_cases hs : k.1 = scope
  · by_cases ht : k.2 ∈ targets
    · simp [hs, ht]
    · cases db.syncTargets.get? k <;> simp [hs, ht]
  · cases db.syncTargets.get? k <;> simp [hs]

end SQLiteStore

/-! ## Deliveries in between -/

/-- The operations that deliver: they claim, retry, recover or complete a row, or complete a
registration. -/
def StoreOp.Delivers : StoreOp → Prop
  | claimOutbox .. | completeOutbox .. | completePublisherRegistration ..
  | recoverPublisherRegistration .. | retryOutbox .. => True
  | _ => False

/-- The tables beside the outbox and the registrations are the same. -/
structure SameBeside (db db' : DB) : Prop where
  bridgeEvents : db'.bridgeEvents = db.bridgeEvents
  operations : db'.operations = db.operations
  purges : db'.purges = db.purges
  syncTargets : db'.syncTargets = db.syncTargets
  cursors : db'.cursors = db.cursors

theorem SameBeside.refl (db : DB) : SameBeside db db := ⟨rfl, rfl, rfl, rfl, rfl⟩

theorem SameBeside.trans {db₁ db₂ db₃ : DB} (h : SameBeside db₁ db₂) (h' : SameBeside db₂ db₃) :
    SameBeside db₁ db₃ :=
  ⟨h'.1.trans h.1, h'.2.trans h.2, h'.3.trans h.3, h'.4.trans h.4, h'.5.trans h.5⟩

theorem Delivers.exec {op : StoreOp} {items : List OutboxItem} (hd : op.Delivers)
    (h : op.exec N db = .ok (db', items)) : SameBeside db db' := by
  cases op <;> simp only [StoreOp.Delivers] at hd <;>
    simp only [StoreOp.exec, map_ok_iff, Prod.mk.injEq] at h
  case claimOutbox now lease limit rand =>
    obtain ⟨-, ⟨-, rfl, -⟩ | ⟨bytes, out, -, -, -, rfl, -⟩⟩ := SQLiteStore.claimOutbox_ok h
    · exact .refl _
    · exact ⟨rfl, rfl, rfl, rfl, rfl⟩
  case completeOutbox id token now =>
    obtain ⟨_, h, rfl, -⟩ := h
    obtain ⟨out, -, rfl⟩ := SQLiteStore.completeOutbox_ok h
    exact ⟨rfl, rfl, rfl, rfl, rfl⟩
  case completePublisherRegistration id token pubKey now =>
    obtain ⟨_, h, rfl, -⟩ := h
    obtain ⟨out, -, rfl⟩ := SQLiteStore.completePublisherRegistration_ok h
    exact ⟨rfl, rfl, rfl, rfl, rfl⟩
  case recoverPublisherRegistration id token pubKey now =>
    obtain ⟨_, h, rfl, -⟩ := h
    obtain ⟨c, out, -, -, -, rfl⟩ := SQLiteStore.recoverPublisherRegistration_ok h
    exact ⟨rfl, rfl, rfl, rfl, rfl⟩
  case retryOutbox id token now availableAt lastError =>
    obtain ⟨_, h, rfl, -⟩ := h
    obtain ⟨out, -, rfl⟩ := SQLiteStore.retryOutbox_ok h
    exact ⟨rfl, rfl, rfl, rfl, rfl⟩

theorem sameBeside_run : ∀ (cs : List Call) {db : DB}, (∀ c ∈ cs, c.op.Delivers) →
    SameBeside db (db.run N cs)
  | [], db, _ => .refl db
  | c :: cs, db, hcs => by
    have hc : SameBeside db (c.next N db) := by
      cases h : c.result N db with
      | error e =>
        rw [Call.next_of_error h]
        exact .refl db
      | ok x =>
        rw [Call.next_of_ok h]
        exact Delivers.exec (hcs c List.mem_cons_self) (Call.exec_of_result h)
    exact hc.trans (sameBeside_run cs fun d hd => hcs d (List.mem_cons_of_mem _ hd))

/-- The outbox and its sequences, the mappings and the identities are the same, and so are the rows
of the targets and the cursors. -/
structure Unchanged (db db' : DB) : Prop where
  out : db'.out = db.out
  bridgeEvents : db'.bridgeEvents = db.bridgeEvents
  operations : db'.operations = db.operations
  syncTargets : db'.syncTargets.Same db.syncTargets
  cursors : db'.cursors.Same db.cursors

theorem checkReconciled_congr {scopes : List SourceScope} {q : EventEnqueueRequest}
    (h : db'.purges = db.purges) : SQLiteStore.checkReconciled N db' scopes q =
      SQLiteStore.checkReconciled N db scopes q := by
  unfold SQLiteStore.checkReconciled rejectPurged DB.publisherPurged
  rw [h]

theorem saveOptionalCursor_same {scope : SourceScope} {cursor : Option CursorUpdate}
    (h : ∀ c, cursor = some c → db.cursors.get? (scope, c.name) = some c.value) :
    (saveOptionalCursor db scope cursor).cursors.Same db.cursors := by
  cases cursor with
  | none => exact .refl _
  | some c =>
    intro k
    simp only [saveOptionalCursor, DB.saveCursor, Table.get?_set]
    split
    · rename_i hk
      rw [hk, h c rfl]
    · rfl

open SQLiteStore in
/-- A batch with distinct sources that succeeded, deliveries, and the same batch again: it succeeds
and changes nothing, if the rows of the outbox are within the limit. -/
theorem reconcileBatch_idempotent {q : ReconciliationBatchRequest} {db₁ : DB} {cs : List Call}
    (hnodup : (q.events.map (·.mapping.source)).Nodup) (h : reconcileBatch N db q = .ok db₁)
    (hcs : ∀ c ∈ cs, c.op.Delivers) (hroom : (db₁.run N cs).out.outboxCount ≤ q.limit) :
    ∃ db₂, reconcileBatch N (db₁.run N cs) q = .ok db₂ ∧ Unchanged (db₁.run N cs) db₂ := by
  obtain ⟨hscope, hchecks, ⟨hlimit, -⟩, out, -, he⟩ := reconcileBatch_eq_ok.1 h
  obtain ⟨_, -, -, -, hpurges, -⟩ := reconcileBatch_ok h
  have hs : SameBeside db₁ (db₁.run N cs) := sameBeside_run cs hcs
  rw [(scanned_plan hchecks).pending] at he
  generalize hst : (freshEvents db q.events).foldl storeReconciled
    (db.replaceSyncTargets q.targetScope q.targets) = stored at he
  -- Each event is skipped in the state after the first run, and so it is later.
  have hskip : ∀ p ∈ q.events, alreadyReconciled (db₁.run N cs) p = true := by
    intro p hp
    have hstored : alreadyReconciled stored p = true := by
      rw [← hst]
      exact alreadyReconciled_after (db.replaceSyncTargets q.targetScope q.targets) hnodup p hp
    rw [← hstored]
    refine alreadyReconciled_congr ?_ ?_
    · rw [hs.bridgeEvents, he, saveOptionalCursor_bridgeEvents]
    · rw [hs.operations, he, saveOptionalCursor_operations]
  have hplan : plan (db₁.run N cs) q.events = {} := by
    have hfresh : freshEvents (db₁.run N cs) q.events = [] := by
      refine List.filter_eq_nil_iff.2 fun p hp => ?_
      rw [hskip p hp]
      decide
    rw [plan, hfresh]
    rfl
  have hchecks' : ∀ p ∈ q.events,
      checkReconciled N (db₁.run N cs) q.eventScopes p = .ok () := fun p hp => by
    rw [checkReconciled_congr (hs.purges.trans hpurges)]
    exact hchecks p hp
  refine ⟨_, reconcileBatch_eq_ok.2 ⟨hscope, hchecks', ⟨hlimit, ?_⟩, (db₁.run N cs).out, ?_, rfl⟩,
    ?_⟩
  · rw [hplan]
    simpa using hroom
  · rw [hplan]
    rfl
  · rw [hplan]
    have htargets : db₁.syncTargets =
        (db.replaceSyncTargets q.targetScope q.targets).syncTargets := by
      rw [he, saveOptionalCursor_syncTargets, ← hst, foldl_storeReconciled_syncTargets]
    refine ⟨by rw [saveOptionalCursor_out], by rw [saveOptionalCursor_bridgeEvents]; rfl,
      by rw [saveOptionalCursor_operations]; rfl, fun k => ?_, ?_⟩
    · rw [saveOptionalCursor_syncTargets]
      refine (get?_replaceSyncTargets q.targetScope q.targets k).trans ?_
      rw [hs.syncTargets, htargets, get?_replaceSyncTargets]
      split <;> rfl
    · refine saveOptionalCursor_same fun c hc => ?_
      refine (congrArg (Table.get? · _) hs.cursors).trans ?_
      rw [he, hc]
      simp only [saveOptionalCursor, DB.saveCursor, Table.get?_set, if_true]

/-- A post of an unregistered publisher, with room for the registration. -/
def onePostBatch : ReconciliationBatchRequest := postBatch [notePost "p" "u" "1"] 2

/-- Its registration is delivered. -/
def registrationDelivered : List Call :=
  [claimAt 0 1, ⟨.completePublisherRegistration 1 (numberedToken 1) "p" 0, false⟩]

theorem reconcileBatch_idempotent_delivered :
    ∃ db₁ db₂, SQLiteStore.reconcileBatch Nostr.Library.plain DB.empty onePostBatch = .ok db₁ ∧
      SQLiteStore.reconcileBatch Nostr.Library.plain
        (db₁.run Nostr.Library.plain registrationDelivered)
        onePostBatch = .ok db₂ ∧
      Unchanged (db₁.run Nostr.Library.plain registrationDelivered) db₂ := by
  have h₁ : SQLiteStore.reconcileBatch Nostr.Library.plain DB.empty onePostBatch = .ok _ := rfl
  have hcs : ∀ c ∈ registrationDelivered, c.op.Delivers := by
    simp [registrationDelivered, claimAt, StoreOp.Delivers]
  obtain ⟨db₂, h₂, hu⟩ := reconcileBatch_idempotent (by decide) h₁ hcs (by decide)
  exact ⟨_, db₂, h₁, h₂, hu⟩

end Bridge
