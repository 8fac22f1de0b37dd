import Mathlib.Data.Finset.Card
import Mathlib.Data.Finset.Dedup
import Mytools.Bridge.Calls

/-!
# What a reconciliation has to enqueue

`batchRequests` are the requests for the events of a batch: every event that is not stored yet, in
the order of the batch, with a registration before the first event of each publisher that is neither
registered nor about to be. The first pass of `ReconcileBatch` collects those events and looks the
publishers up (`Scanned`), and from what it has collected the second pass makes these requests
(`reconciledRequests_eq`).
-/

namespace Bridge

open Lib

variable {N : Nostr.Library} {db : DB}

theorem rejectPurged_ok {pubKey : String} {u : Unit} :
    rejectPurged db pubKey = .ok u ↔ db.publisherPurged pubKey = false :=
  require_eq_ok

theorem validatePublishRequest_own {r : OutboxRequest} (h : validatePublishRequest N r = .ok ()) :
    r.pubKey = r.aggregateKey := by
  obtain ⟨-, h⟩ := check_ok_iff.1 h
  obtain ⟨h, -⟩ := check_ok_iff.1 h
  exact (require_eq_ok.1 h).2.symm

namespace SQLiteStore

theorem checkReconciled_ok {scopes : List SourceScope} {q : EventEnqueueRequest}
    (h : checkReconciled N db scopes q = .ok ()) :
    q.event.pubKey = q.mapping.authorPubKey ∧ validatePublishRequest N q.event = .ok () ∧
      validateMappingEventID N q.mapping q.event = .ok () ∧
      db.publisherPurged q.event.pubKey = false := by
  obtain ⟨-, h⟩ := check_ok_iff.1 h
  obtain ⟨h₁, h⟩ := check_ok_iff.1 h
  obtain ⟨h₂, h⟩ := check_ok_iff.1 h
  obtain ⟨h₃, h⟩ := check_ok_iff.1 h
  exact ⟨require_eq_ok.1 h₁, h₂, h₃, rejectPurged_ok.1 h⟩

/-! ## The first pass -/

/-- The events that are not stored yet. -/
def freshEvents (db : DB) (qs : List EventEnqueueRequest) : List EventEnqueueRequest :=
  qs.filter fun q => !alreadyReconciled db q

theorem scanReconciled_eq_ok {scopes : List SourceScope} :
    ∀ {qs : List EventEnqueueRequest} {r r' : Reconciliation},
      scanReconciled N db scopes qs r = .ok r' ↔
        (∀ q ∈ qs, checkReconciled N db scopes q = .ok ()) ∧
          r' = (freshEvents db qs).foldl (Reconciliation.add db) r
  | [], r, r' => by
    rw [scanReconciled, Except.ok.injEq, eq_comm]
    simp [freshEvents]
  | q :: qs, r, r' => by
    rw [scanReconciled, check_ok_iff, scanReconciled_eq_ok, List.forall_mem_cons, and_assoc]
    cases h : alreadyReconciled db q with
    | true => simp [freshEvents, h]
    | false => simp [freshEvents, h]

/-- The publishers of the events. -/
def publishers (qs : List EventEnqueueRequest) : Finset String :=
  (qs.map (·.event.pubKey)).toFinset

/-- The publishers that are neither registered nor have a registration queued. -/
def newPublishers (db : DB) (qs : List EventEnqueueRequest) : Finset String :=
  (publishers qs).filter fun pk => db.publisherRegisteredOrPending pk pk = false

/-- What the first pass has collected from the events `qs`. -/
structure Scanned (db : DB) (r : Reconciliation) (qs : List EventEnqueueRequest) : Prop where
  pending : r.pending = qs
  registered : ∀ pk, r.registered.lookup pk =
    if pk ∈ publishers qs then some (db.publisherRegisteredOrPending pk pk) else none
  needed : r.needed = qs.length + (newPublishers db qs).card

theorem scanned_nil (db : DB) : Scanned db {} [] := ⟨rfl, fun _ => rfl, rfl⟩

theorem publishers_snoc (qs : List EventEnqueueRequest) (q : EventEnqueueRequest) :
    publishers (qs ++ [q]) = insert q.event.pubKey (publishers qs) := by
  ext pk
  simp [publishers]

theorem newPublishers_snoc (db : DB) (qs : List EventEnqueueRequest) (q : EventEnqueueRequest) :
    newPublishers db (qs ++ [q]) =
      if db.publisherRegisteredOrPending q.event.pubKey q.event.pubKey = false then
        insert q.event.pubKey (newPublishers db qs)
      else newPublishers db qs := by
  rw [newPublishers, publishers_snoc, Finset.filter_insert]
  rfl

theorem Scanned.add {r : Reconciliation} {qs : List EventEnqueueRequest} {q : EventEnqueueRequest}
    (h : Scanned db r qs) (hown : q.event.aggregateKey = q.event.pubKey) :
    Scanned db (r.add db q) (qs ++ [q]) := by
  have hlook := h.registered q.event.pubKey
  unfold Reconciliation.add
  by_cases hseen : q.event.pubKey ∈ publishers qs
  · -- a publisher that was seen before is counted already
    rw [if_pos hseen] at hlook
    have hins : insert q.event.pubKey (publishers qs) = publishers qs :=
      Finset.insert_eq_of_mem hseen
    simp only [hlook]
    refine ⟨by rw [h.pending], fun pk => ?_, ?_⟩
    · rw [publishers_snoc, hins]
      exact h.registered pk
    · rw [newPublishers, publishers_snoc, hins]
      show r.needed + 1 = _
      rw [h.needed, List.length_append]
      simp only [newPublishers, List.length_singleton]
      omega
  · rw [if_neg hseen] at hlook
    simp only [hlook, hown]
    refine ⟨by rw [h.pending], fun pk => ?_, ?_⟩
    · rw [publishers_snoc, List.lookup_append, h.registered]
      by_cases hpk : pk = q.event.pubKey
      · subst hpk
        simp [hseen]
      · rw [List.lookup_cons, beq_false_of_ne hpk]
        simp [hpk]
    · have hnew : q.event.pubKey ∉ newPublishers db qs := fun hm => hseen (Finset.mem_filter.1 hm).1
      rw [newPublishers_snoc, List.length_append]
      cases hreg : db.publisherRegisteredOrPending q.event.pubKey q.event.pubKey with
      | true =>
        simp only [if_true, Bool.true_eq_false, if_false, h.needed, List.length_singleton]
        omega
      | false =>
        simp only [Bool.false_eq_true, if_false, if_true, h.needed, List.length_singleton,
          Finset.card_insert_of_notMem hnew]
        omega

theorem Scanned.foldl {r : Reconciliation} :
    ∀ {qs ps : List EventEnqueueRequest}, Scanned db r ps →
      (∀ q ∈ qs, q.event.aggregateKey = q.event.pubKey) →
      Scanned db (qs.foldl (Reconciliation.add db) r) (ps ++ qs) := by
  intro qs
  induction qs generalizing r with
  | nil =>
    intro ps h _
    simpa using h
  | cons q qs ih =>
    intro ps h hown
    have hq := h.add (hown q List.mem_cons_self)
    have hqs := ih hq fun p hp => hown p (List.mem_cons_of_mem _ hp)
    rwa [List.append_assoc] at hqs

theorem own_of_checkReconciled {scopes : List SourceScope} {q : EventEnqueueRequest}
    (h : checkReconciled N db scopes q = .ok ()) : q.event.aggregateKey = q.event.pubKey :=
  (validatePublishRequest_own (checkReconciled_ok h).2.1).symm

/-- The plan of a first pass that succeeds. -/
theorem scanned_of_ok {scopes : List SourceScope} {qs : List EventEnqueueRequest}
    {r : Reconciliation} (h : scanReconciled N db scopes qs {} = .ok r) :
    Scanned db r (freshEvents db qs) := by
  obtain ⟨hchecks, rfl⟩ := scanReconciled_eq_ok.1 h
  refine (scanned_nil db).foldl fun q hq => ?_
  exact own_of_checkReconciled (hchecks q (List.mem_of_mem_filter hq))

/-- What the first pass keeps is of the batch, and has passed the checks. -/
theorem checked_of_scanned {scopes : List SourceScope} {qs : List EventEnqueueRequest}
    {r : Reconciliation} (h : scanReconciled N db scopes qs {} = .ok r) {q : EventEnqueueRequest}
    (hq : q ∈ r.pending) : q ∈ qs ∧ checkReconciled N db scopes q = .ok () := by
  rw [(scanned_of_ok h).pending] at hq
  have hm := List.mem_of_mem_filter hq
  exact ⟨hm, (scanReconciled_eq_ok.1 h).1 q hm⟩

/-! ## The requests -/

/-- The requests for the events of a batch; `earlier` are the events before them. -/
def batchRequests (db : DB) : (earlier events : List EventEnqueueRequest) → List OutboxRequest
  | _, [] => []
  | earlier, q :: qs =>
    (if db.publisherRegisteredOrPending q.event.pubKey q.event.pubKey = true ∨
        ∃ p ∈ earlier, p.event.pubKey = q.event.pubKey then []
      else [allowRequest q.event]) ++ q.event :: batchRequests db (earlier ++ [q]) qs

end SQLiteStore

/-- The requests that the second loop of `ReconcileBatch` enqueues. -/
def reconciledRequests (registered : List (String × Bool)) :
    List EventEnqueueRequest → (queued : List String) → List OutboxRequest
  | [], _ => []
  | q :: qs, queued =>
    let known := (registered.lookup q.event.pubKey).getD false || q.event.pubKey ∈ queued
    (if known then [] else [allowRequest q.event]) ++ q.event ::
      reconciledRequests registered qs (if known then queued else q.event.pubKey :: queued)

namespace SQLiteStore

/-- The second pass knows a publisher, from the plan or by its own list, if it is registered or had
an event before. -/
theorem reconciledRequests_eq_batchRequests {registered : List (String × Bool)} :
    ∀ {qs earlier : List EventEnqueueRequest} {queued : List String},
      (∀ q ∈ qs, registered.lookup q.event.pubKey =
        some (db.publisherRegisteredOrPending q.event.pubKey q.event.pubKey)) →
      (∀ pk, db.publisherRegisteredOrPending pk pk = true ∨ pk ∈ queued ↔
        db.publisherRegisteredOrPending pk pk = true ∨ ∃ p ∈ earlier, p.event.pubKey = pk) →
      reconciledRequests registered qs queued = batchRequests db earlier qs
  | [], _, _, _, _ => rfl
  | q :: qs, earlier, queued, hlook, hqueued => by
    have hknown : ((registered.lookup q.event.pubKey).getD false ||
        decide (q.event.pubKey ∈ queued)) = true ↔
        db.publisherRegisteredOrPending q.event.pubKey q.event.pubKey = true ∨
          ∃ p ∈ earlier, p.event.pubKey = q.event.pubKey := by
      rw [hlook q List.mem_cons_self, ← hqueued, Bool.or_eq_true, Option.getD_some,
        decide_eq_true_iff]
    have hrest := fun p hp => hlook p (List.mem_cons_of_mem q hp)
    rw [reconciledRequests, batchRequests]
    by_cases hk : db.publisherRegisteredOrPending q.event.pubKey q.event.pubKey = true ∨
        ∃ p ∈ earlier, p.event.pubKey = q.event.pubKey
    · rw [if_pos hk, hknown.2 hk]
      refine congrArg (q.event :: ·) (reconciledRequests_eq_batchRequests hrest fun pk => ?_)
      rw [if_pos rfl, hqueued]
      by_cases hpk : q.event.pubKey = pk
      · subst hpk
        simp only [hk, List.mem_append, List.mem_singleton, true_iff]
        exact .inr ⟨q, .inr rfl, rfl⟩
      · simp [or_and_right, exists_or, hpk]
    · rw [if_neg hk, Bool.eq_false_iff.2 (mt hknown.1 hk)]
      refine congrArg (fun rs => [allowRequest q.event] ++ q.event :: rs)
        (reconciledRequests_eq_batchRequests hrest fun pk => ?_)
      simp only [if_neg Bool.false_ne_true, List.mem_cons, List.mem_append, List.not_mem_nil,
        or_false, or_and_right, exists_or, exists_eq_left, @eq_comm _ pk q.event.pubKey]
      rw [or_left_comm, hqueued, or_left_comm, @or_comm (q.event.pubKey = pk)]

/-- Both passes together make the requests of the events that are not stored yet. -/
theorem reconciledRequests_eq {scopes : List SourceScope} {qs : List EventEnqueueRequest}
    {r : Reconciliation} (h : scanReconciled N db scopes qs {} = .ok r) :
    reconciledRequests r.registered r.pending [] = batchRequests db [] (freshEvents db qs) := by
  have hs := scanned_of_ok h
  rw [hs.pending]
  refine reconciledRequests_eq_batchRequests (fun q hq => ?_) fun pk => by simp
  rw [hs.registered, if_pos]
  exact List.mem_toFinset.2 (List.mem_map_of_mem hq)

end SQLiteStore

end Bridge
