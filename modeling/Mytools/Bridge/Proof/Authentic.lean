import Mathlib.Data.List.Induction
import Mytools.Bridge.Proof.Reconcile
import Mytools.Bridge.Proof.Repeated

/-!
# What is queued to be published

Every publish in the outbox is a signed event of its publisher (`Authentic`), and when its turn
comes the publisher is registered: it is now, or a registration stands before the publish
(`Covered`). The enqueueing operations decide about a registration once, from both tables. What
keeps the decision right is the order of the queue: a registration leaves it only by becoming one,
and when a registration ends or is found lost, no publish is left without one before it.
-/

namespace Bridge

open Lib

variable {N : Nostr.Library} {db db' : DB} {op : StoreOp} {items : List OutboxItem}

/-! ## Queues -/

/-- A publish is a signed event of its publisher. -/
def Authentic (N : Nostr.Library) (a : QueueItem) : Prop :=
  a.operation = .publishEvent → ∃ e, N.unmarshal a.payload = some e ∧ N.checkID e = true ∧
    N.verifySignature e = true ∧ e.pubKey = a.pubKey

/-- In the order of the queue every publish finds its publisher registered. -/
def Covered : (registered : Bool) → List QueueItem → Prop
  | _, [] => True
  | registered, a :: l => (a.operation = .publishEvent → registered = true) ∧
      Covered (registered || a.operation = .allowPublisher) l

theorem Covered.mono {l : List QueueItem} : ∀ {b b' : Bool}, Covered b l → (b = true → b' = true) →
    Covered b' l := by
  induction l with
  | nil => exact fun _ _ => trivial
  | cons a l ih =>
    intro b b' h hb
    refine ⟨fun ho => hb (h.1 ho), ih h.2 fun hor => ?_⟩
    rw [Bool.or_eq_true] at hor ⊢
    exact hor.imp_left hb

theorem covered_append {l l' : List QueueItem} : ∀ {b : Bool}, Covered b (l ++ l') ↔
    Covered b l ∧ Covered (b || l.any (·.operation = .allowPublisher)) l' := by
  induction l with
  | nil =>
    intro b
    simp [Covered]
  | cons a l ih =>
    intro b
    rw [List.cons_append, Covered, ih, Covered, List.any_cons, Bool.or_assoc, and_assoc]

theorem covered_of_unallow {l : List QueueItem} (h : ∀ a ∈ l, a.operation = .unallowPublisher) :
    ∀ b, Covered b l := by
  induction l with
  | nil => exact fun _ => trivial
  | cons a l ih =>
    intro b
    have ha := h a List.mem_cons_self
    refine ⟨fun ho => ?_, ih (fun x hx => h x (List.mem_cons_of_mem _ hx)) _⟩
    rw [ha] at ho
    cases ho

theorem covered_true {l : List QueueItem} : Covered true l := by
  induction l with
  | nil => trivial
  | cons a l ih => exact ⟨fun _ => rfl, ih⟩

/-- A publish within a covered queue: its publisher is registered, or a registration is before
it. -/
theorem Covered.before {b : Bool} {l₁ l₂ : List QueueItem} {p : QueueItem}
    (h : Covered b (l₁ ++ p :: l₂)) (hp : p.operation = .publishEvent) :
    b = true ∨ ∃ a ∈ l₁, a.operation = .allowPublisher := by
  have h := (covered_append.1 h).2.1 hp
  rw [Bool.or_eq_true, List.any_eq_true] at h
  simpa using h

/-! ## Requests -/

theorem authentic_of_validate {r : OutboxRequest} (h : validatePublishRequest N r = .ok ()) :
    Authentic N r.item := by
  intro _
  obtain ⟨-, h⟩ := check_ok_iff.1 h
  obtain ⟨-, h⟩ := check_ok_iff.1 h
  unfold checkEventPayload at h
  split at h
  · cases h
  · rename_i e he
    obtain ⟨hs, h⟩ := check_ok_iff.1 h
    obtain ⟨hid, hsig⟩ := require_eq_ok.1 hs
    exact ⟨e, he, hid, hsig, require_eq_ok.1 h⟩

theorem authentic_allow (r : OutboxRequest) : Authentic N (allowRequest r).item := by
  intro h
  cases h

/-- The operations by which the bridge takes work in, and the claim of it. -/
def StoreOp.Intake : StoreOp → Prop
  | enqueueEvent .. | enqueueUpdate .. | enqueueDelete .. | enqueuePurge .. | reconcileBatch ..
  | claimOutbox .. => True
  | _ => False

/-- The publisher is registered, or a registration is queued. -/
theorem registeredOrPending_eq (db : DB) (k : String) :
    db.publisherRegisteredOrPending k k =
      (db.publisherRegistered k || (db.out.queue k).any (·.operation = .allowPublisher)) := by
  unfold DB.publisherRegisteredOrPending
  congr 1
  rw [Bool.eq_iff_iff, List.any_eq_true, List.any_eq_true]
  constructor
  · rintro ⟨r, hr, h⟩
    obtain ⟨hk, ho⟩ := of_decide_eq_true h
    exact ⟨r.item, mem_queue.2 ⟨r, hr, hk, rfl⟩, decide_eq_true ho⟩
  · rintro ⟨a, ha, ho⟩
    obtain ⟨r, hr, hk, rfl⟩ := mem_queue.1 ha
    exact ⟨r, hr, decide_eq_true ⟨hk, of_decide_eq_true ho⟩⟩

/-- What is appended to one queue. -/
def appendedTo (rs : List OutboxRequest) (k : String) : List QueueItem :=
  (rs.filter (·.aggregateKey = k)).map OutboxRequest.item

theorem appendedTo_append (rs rs' : List OutboxRequest) (k : String) :
    appendedTo (rs ++ rs') k = appendedTo rs k ++ appendedTo rs' k := by
  simp [appendedTo]

theorem mem_appendedTo {rs : List OutboxRequest} {k : String} {a : QueueItem}
    (h : a ∈ appendedTo rs k) : ∃ r ∈ rs, r.aggregateKey = k ∧ r.item = a := by
  obtain ⟨r, hr, rfl⟩ := List.mem_map.1 h
  obtain ⟨hr, hk⟩ := List.mem_filter.1 hr
  exact ⟨r, hr, of_decide_eq_true hk, rfl⟩

theorem appendedTo_eq_nil {rs : List OutboxRequest} {k : String}
    (h : ∀ r ∈ rs, r.aggregateKey ≠ k) : appendedTo rs k = [] := by
  rw [appendedTo, List.filter_eq_nil_iff.2, List.map_nil]
  simpa using h

theorem mem_allowRequests {r x : OutboxRequest} (h : x ∈ allowRequests db r) :
    x = allowRequest r := by
  unfold allowRequests at h
  split at h
  · cases h
  · exact List.mem_singleton.1 h

/-- Requests of one publisher behind its registration, if it needs one. -/
theorem covered_allowRequests {r : OutboxRequest} {rs : List OutboxRequest}
    (hown : r.aggregateKey = r.pubKey) (hrs : ∀ x ∈ rs, x.aggregateKey = r.aggregateKey)
    (k : String) :
    Covered (db.publisherRegisteredOrPending k k) (appendedTo (allowRequests db r ++ rs) k) := by
  by_cases hk : k = r.aggregateKey
  · subst hk
    rw [appendedTo_append, covered_append]
    unfold allowRequests
    rw [← hown]
    cases hb : db.publisherRegisteredOrPending r.aggregateKey r.aggregateKey with
    | true => exact ⟨covered_true, covered_true⟩
    | false =>
      refine ⟨?_, ?_⟩
      · simp [appendedTo, allowRequest, Covered, OutboxRequest.item]
      · simp only [Bool.false_eq_true, if_false, Bool.false_or]
        rw [show (appendedTo [allowRequest r] r.aggregateKey).any
          (·.operation = .allowPublisher) = true by
            simp [appendedTo, allowRequest, OutboxRequest.item]]
        exact covered_true
  · rw [appendedTo_eq_nil]
    · trivial
    · intro x hx he
      rcases List.mem_append.1 hx with hx | hx
      · rw [mem_allowRequests hx] at he
        exact hk he.symm
      · exact hk (he.symm.trans (hrs x hx))

/-- The second pass of a reconciliation, from the plan of the first. -/
theorem covered_reconciledRequests {registered : List (String × Bool)} {k : String} :
    ∀ {qs : List EventEnqueueRequest} {queued : List String} {b : Bool},
      (∀ q ∈ qs, q.event.aggregateKey = q.event.pubKey) →
      ((registered.lookup k).getD false = true ∨ k ∈ queued → b = true) →
      Covered b (appendedTo (reconciledRequests registered qs queued) k)
  | [], _, _, _, _ => trivial
  | q :: qs, queued, b, hown, hb => by
    have hq := hown q List.mem_cons_self
    have hqs : ∀ x ∈ qs, x.event.aggregateKey = x.event.pubKey := fun x hx =>
      hown x (List.mem_cons_of_mem _ hx)
    rw [reconciledRequests, appendedTo_append]
    by_cases hk : q.event.pubKey = k
    · subst hk
      cases hknown : (registered.lookup q.event.pubKey).getD false ||
          decide (q.event.pubKey ∈ queued) with
      | true =>
        have hbt : b = true := hb (by simpa using hknown)
        rw [hbt]
        exact covered_true
      | false =>
        have hallow : appendedTo [allowRequest q.event] q.event.pubKey =
            [(allowRequest q.event).item] := by
          simp [appendedTo, allowRequest, hq]
        simp only [Bool.false_eq_true, if_false, hallow]
        refine ⟨fun h => (by cases h), covered_true.mono fun _ => ?_⟩
        rw [Bool.or_eq_true]
        exact .inr rfl
    · -- Requests of another publisher, whose registration is of no concern here.
      have hskip : ∀ r : OutboxRequest, r.aggregateKey = q.event.aggregateKey →
          r.aggregateKey ≠ k := fun r hr he => hk (hq.symm.trans (hr.symm.trans he))
      have hfirst : appendedTo (if ((registered.lookup q.event.pubKey).getD false ||
          decide (q.event.pubKey ∈ queued)) = true then [] else [allowRequest q.event]) k = [] := by
        refine appendedTo_eq_nil fun r hr => hskip r ?_
        split at hr
        · cases hr
        · rw [List.mem_singleton.1 hr]
          rfl
      rw [hfirst, List.nil_append, appendedTo,
        List.filter_cons_of_neg (by simp [hskip q.event rfl])]
      refine covered_reconciledRequests hqs fun h => hb (h.imp_right fun hm => ?_)
      split at hm
      · exact hm
      · exact (List.mem_cons.1 hm).resolve_left fun he => hk he.symm

/-! ## Operations that take work in -/

/-- What an operation that takes work in appends to the queues. -/
structure Appends (N : Nostr.Library) (db db' : DB) (rs : List OutboxRequest) : Prop where
  queue : ∀ k, db'.out.queue k = db.out.queue k ++ appendedTo rs k
  authentic : ∀ r ∈ rs, Authentic N r.item
  covered : ∀ k, Covered (db.publisherRegisteredOrPending k k) (appendedTo rs k)
  unallow : ∀ r ∈ rs, r.operation = .unallowPublisher →
    db'.publisherPurged r.aggregateKey = true
  registrations : db'.registrations = db.registrations
  /-- A new mapping is of the author of an event that is appended. -/
  mapped : ∀ ref m, db'.bridgeEvents.get? ref = some m → db.bridgeEvents.get? ref = some m ∨
    ∃ r ∈ rs, r.operation = .publishEvent ∧ ∃ e, N.unmarshal r.payload = some e ∧
      e.id = m.nostrEventID ∧ e.pubKey = m.authorPubKey

theorem Appends.nil (hq : ∀ k, db'.out.queue k = db.out.queue k ++ appendedTo [] k)
    (hr : db'.registrations = db.registrations) (hm : db'.bridgeEvents = db.bridgeEvents) :
    Appends N db db' [] where
  queue := hq
  authentic _ h := by cases h
  covered _ := trivial
  unallow _ h := by cases h
  registrations := hr
  mapped ref m h := .inl (hm ▸ h)

theorem queue_of_requests {rs : List OutboxRequest} (hi : db.out.Inv)
    (h : op.exec N db = .ok (db', items))
    (hc : db.out.effect (op.cmd db) = .append (rs.map fun r => (r.aggregateKey, r.item)))
    (k : String) : db'.out.queue k = db.out.queue k ++ appendedTo rs k := by
  have hq := OutboxTables.exec_queue hi (cmd_own h) (exec_out h)
  rw [hc] at hq
  simp only [QueueOp.apply, Option.some.injEq] at hq
  rw [← hq]
  simp only [QueueOp.appended, appendedTo, List.filter_map, List.map_map]
  rfl

theorem not_unallow {r : OutboxRequest} (h : validatePublishRequest N r = .ok ()) :
    r.operation ≠ .unallowPublisher := by
  obtain ⟨ho, -⟩ := check_ok_iff.1 h
  rw [require_eq_ok.1 ho]
  decide

/-- The event of a mapping that was checked against its request. -/
theorem author_of_checks {m : EventMapping} {r : OutboxRequest} (hk : r.pubKey = m.authorPubKey)
    (hv : validatePublishRequest N r = .ok ()) (hid : validateMappingEventID N m r = .ok ()) :
    r.operation = .publishEvent ∧ ∃ e, N.unmarshal r.payload = some e ∧
      e.id = m.row.nostrEventID ∧ e.pubKey = m.row.authorPubKey := by
  have hpub : r.operation = .publishEvent := require_eq_ok.1 (check_ok_iff.1 hv).1
  obtain ⟨e, he, -, -, hpk⟩ := authentic_of_validate hv hpub
  unfold validateMappingEventID at hid
  split at hid
  · cases hid
  · rename_i e' he'
    cases he.symm.trans he'
    exact ⟨hpub, e, he, (require_eq_ok.1 hid).symm, hpk.trans hk⟩

/-- Validated requests of one publisher, behind its registration. -/
theorem appends_validated {r : OutboxRequest} {rs : List OutboxRequest} (hi : db.out.Inv)
    (h : op.exec N db = .ok (db', items)) (hc : op.cmd db = .enqueue (allowRequests db r ++ rs))
    (hv : ∀ x ∈ rs, validatePublishRequest N x = .ok () ∧ x.aggregateKey = r.aggregateKey)
    (hown : r.aggregateKey = r.pubKey) (hreg : db'.registrations = db.registrations)
    (hmap : ∀ ref m, db'.bridgeEvents.get? ref = some m → db.bridgeEvents.get? ref = some m ∨
      ∃ x ∈ rs, x.operation = .publishEvent ∧ ∃ e, N.unmarshal x.payload = some e ∧
        e.id = m.nostrEventID ∧ e.pubKey = m.authorPubKey) :
    Appends N db db' (allowRequests db r ++ rs) where
  queue := queue_of_requests hi h (by rw [hc]; rfl)
  authentic x hx := by
    rcases List.mem_append.1 hx with hx | hx
    · rw [mem_allowRequests hx]
      exact authentic_allow r
    · exact authentic_of_validate (hv x hx).1
  covered := covered_allowRequests hown fun x hx => (hv x hx).2
  unallow x hx ho := by
    rcases List.mem_append.1 hx with hx | hx
    · rw [mem_allowRequests hx] at ho
      cases ho
    · exact absurd ho (not_unallow (hv x hx).1)
  registrations := hreg
  mapped ref m h := (hmap ref m h).imp_right fun ⟨x, hx, hm⟩ => ⟨x, List.mem_append_right _ hx, hm⟩

theorem mem_reconciledRequests_event {registered : List (String × Bool)} {q : EventEnqueueRequest} :
    ∀ {qs : List EventEnqueueRequest} {queued : List String}, q ∈ qs →
      q.event ∈ reconciledRequests registered qs queued
  | x :: qs, queued, h => by
    refine List.mem_append_right _ ?_
    rcases List.mem_cons.1 h with rfl | h
    · exact List.mem_cons_self
    · exact List.mem_cons_of_mem _ (mem_reconciledRequests_event h)

theorem appends_of_intake (hi : db.out.Inv) (ho : op.Intake) (h : op.exec N db = .ok (db', items)) :
    Appends N db db' (op.requests db) := by
  have hx := h
  cases op <;> simp only [StoreOp.Intake] at ho <;>
    simp only [StoreOp.exec, map_ok_iff, Prod.mk.injEq] at h
  case enqueueEvent q =>
    obtain ⟨_, h, rfl, -⟩ := h
    obtain ⟨hk, hv, hid, -, -, out, -, rfl⟩ := SQLiteStore.enqueueEvent_ok.1 h
    refine appends_validated hi hx rfl (fun x hx => ?_) (validatePublishRequest_own hv).symm ?_ ?_
    · rw [List.mem_singleton.1 hx]
      exact ⟨hv, rfl⟩
    · simp
      rfl
    · intro ref m hm
      rw [saveOptionalOperation_bridgeEvents, saveOptionalCursor_bridgeEvents] at hm
      refine (get?_upsertEventMapping hm).imp_right ?_
      rintro ⟨-, rfl⟩
      exact ⟨q.event, List.mem_singleton.2 rfl, author_of_checks hk hv hid⟩
  case enqueueUpdate q =>
    obtain ⟨_, h, rfl, -⟩ := h
    obtain ⟨⟨hk, hauthor⟩, hvd, hv, hid, -, -, out, -, rfl⟩ := SQLiteStore.enqueueUpdate_ok.1 h
    have hown := validatePublishRequest_own hv
    refine appends_validated hi hx rfl (fun x hx => ?_) hown.symm ?_ ?_
    · rcases List.mem_cons.1 hx with rfl | hx
      · exact ⟨hvd, (validatePublishRequest_own hvd).symm.trans (hk.trans hown)⟩
      · rw [List.mem_singleton.1 hx]
        exact ⟨hv, rfl⟩
    · simp
      rfl
    · intro ref m hm
      rw [saveOptionalCursor_bridgeEvents, saveOptionalOperation_bridgeEvents] at hm
      refine (get?_upsertEventMapping hm).imp_right ?_
      rintro ⟨-, rfl⟩
      exact ⟨q.replacement, by simp, author_of_checks hauthor hv hid⟩
  case enqueueDelete q =>
    obtain ⟨_, h, rfl, -⟩ := h
    obtain ⟨-, -, -, hv, -, -, out, -, rfl⟩ := SQLiteStore.enqueueDelete_ok.1 h
    refine appends_validated hi hx rfl (fun x hx => ?_) (validatePublishRequest_own hv).symm ?_ ?_
    · rw [List.mem_singleton.1 hx]
      exact ⟨hv, rfl⟩
    · simp
      rfl
    · intro ref m hm
      rcases (exec_frame hx).mapped ref m hm with hm | ⟨hmaps, -⟩ | ⟨_, he⟩
      · exact .inl hm
      · cases hmaps
      · cases he
  case enqueuePurge q =>
    have hmarked := purged_of_purge hx
    obtain ⟨_, h, rfl, -⟩ := h
    have hqueue := queue_of_requests hi hx rfl
    rcases SQLiteStore.enqueuePurge_ok h with ⟨hp, rfl⟩ | ⟨hp, -, hreg, d, out, hd, -, rfl⟩
    · rw [StoreOp.requests, if_pos hp] at hqueue ⊢
      exact .nil hqueue rfl rfl
    obtain ⟨-, hpk, hid, hsig⟩ := (enqueuePurge_marks hd h).1
    rw [StoreOp.requests, hp] at hqueue ⊢
    refine ⟨hqueue, ?_, ?_, ?_, rfl, fun ref m hm => .inl hm⟩
    · rintro r hr ho
      simp only [Bool.false_eq_true, if_false, List.mem_cons, List.not_mem_nil, or_false] at hr
      rcases hr with rfl | rfl
      · exact ⟨d, hd, hid, hsig, hpk⟩
      · cases ho
    · intro k
      by_cases hk : k = q.pubKey
      · subst hk
        refine covered_true.mono fun _ => ?_
        rw [registeredOrPending_eq, hreg, Bool.true_or]
      · rw [appendedTo_eq_nil]
        · trivial
        · simp only [Bool.false_eq_true, if_false, List.mem_cons, List.not_mem_nil, or_false]
          rintro r (rfl | rfl) he
          · exact hk he.symm
          · exact hk he.symm
    · intro r hr _
      simp only [Bool.false_eq_true, if_false, List.mem_cons, List.not_mem_nil, or_false] at hr
      rcases hr with rfl | rfl
      · exact hmarked
      · exact hmarked
  case reconcileBatch q =>
    obtain ⟨_, h, rfl, -⟩ := h
    obtain ⟨s, hs, -, hreg, -, hev⟩ := SQLiteStore.reconcileBatch_ok h
    have hchecks := (SQLiteStore.scanReconciled_eq_ok.1 hs).1
    have hscan := SQLiteStore.scanned_of_ok hs
    have hpending : ∀ p ∈ s.pending, p.event.pubKey = p.mapping.authorPubKey ∧
        validatePublishRequest N p.event = .ok () ∧
        validateMappingEventID N p.mapping p.event = .ok () := by
      intro p hp
      rw [hscan.pending] at hp
      obtain ⟨hk, hv, hid, -⟩ :=
        SQLiteStore.checkReconciled_ok (hchecks p (List.mem_of_mem_filter hp))
      exact ⟨hk, hv, hid⟩
    have hrs : StoreOp.requests db (.reconcileBatch q) =
        reconciledRequests s.registered s.pending [] := (SQLiteStore.reconciledRequests_eq hs).symm
    refine ⟨queue_of_requests hi hx rfl, ?_, ?_, ?_, hreg, ?_⟩
    · intro r hr
      rw [hrs] at hr
      obtain ⟨p, hp, rfl | rfl⟩ := mem_reconciledRequests hr
      · exact authentic_of_validate (hpending p hp).2.1
      · exact authentic_allow p.event
    · intro k
      rw [hrs]
      refine covered_reconciledRequests (fun p hp => ?_) fun hk => ?_
      · exact (validatePublishRequest_own (hpending p hp).2.1).symm
      · have hlook := hk.resolve_right List.not_mem_nil
        rw [hscan.registered] at hlook
        split at hlook
        · exact hlook
        · cases hlook
    · intro r hr hou
      rw [hrs] at hr
      obtain ⟨p, hp, rfl | rfl⟩ := mem_reconciledRequests hr
      · exact absurd hou (not_unallow (hpending p hp).2.1)
      · cases hou
    · intro ref m hm
      refine (hev ref m hm).imp_right ?_
      rintro ⟨p, hp, -, rfl⟩
      obtain ⟨hk, hv, hid⟩ := hpending p hp
      exact ⟨p.event, hrs ▸ mem_reconciledRequests_event hp, author_of_checks hk hv hid⟩
  case claimOutbox now lease limit rand =>
    have hnone : db.out.effect (StoreOp.cmd db (.claimOutbox now lease limit rand)) =
        .append (([] : List OutboxRequest).map fun r => (r.aggregateKey, r.item)) := by
      cases rand with
      | none => rfl
      | some bytes =>
        simp only [StoreOp.cmd]
        split <;> rfl
    have hqueue := queue_of_requests hi hx hnone
    obtain ⟨-, ⟨-, rfl, -⟩ | ⟨bytes, out, -, -, -, rfl, -⟩⟩ := SQLiteStore.claimOutbox_ok h
    · exact .nil hqueue rfl rfl
    · exact .nil hqueue rfl rfl

/-! ## Operations that dispatch -/

/-- The item is of the claim that its row is under, if the row is still under it. -/
def Matches (i : OutboxItem) (t : OutboxTables) : Prop :=
  i.claimToken ≠ "" ∧ ∀ r ∈ t.outbox.rows, r.id = i.id → r.claimToken = i.claimToken →
    r.operation = i.operation

theorem Matches.exec {i : OutboxItem} (hi : db.out.Inv) (hd : Describes i db.out)
    (hm : Matches i db.out) (hfresh : op.drawnToken ≠ some i.claimToken)
    (h : op.exec N db = .ok (db', items)) : Matches i db'.out := by
  refine ⟨hm.1, ?_⟩
  intro r' hr' hid htok
  rcases (OutboxTables.exec_rows hi.queue (exec_out h)).2 r' hr' with hnew | ⟨r, hr, hde⟩
  · have := hd.1
    omega
  have hkept : r'.operation = r.operation := by
    refine hde.released.resolve_right fun he => hm.1 ?_
    rw [← htok, he]
  rcases hde.claimToken with ⟨hsame, -⟩ | hempty | ⟨u, now, limit, hc⟩
  · exact hkept.trans (hm.2 r hr (hde.id.symm.trans hid) (hsame.symm.trans htok))
  · exact absurd (htok.symm.trans hempty) hm.1
  · exact absurd (drawnToken_of_cmd h hc) (htok ▸ hfresh)

theorem matches_claimed {i : OutboxItem} (hi : db.out.Inv) (h : op.exec N db = .ok (db', items))
    (hm : i ∈ items) : Matches i db'.out := by
  obtain ⟨token, _, now, limit, hdraw, -, htok, r, hr, hid, -, hop⟩ := claimOutbox_items h hm
  obtain ⟨hmem, -, -⟩ := OutboxTables.mem_claimable hr
  refine ⟨htok ▸ drawnToken_ne_empty hdraw, ?_⟩
  intro r' hr' hid' htok'
  rcases (OutboxTables.exec_rows hi.queue (exec_out h)).2 r' hr' with hnew | ⟨q, hq, hde⟩
  · have := db.out.outbox.valid.fresh r hmem
    omega
  have hqr : q = r := Outbox.eq_of_id hq hmem (hde.id.symm.trans (hid'.trans hid))
  subst hqr
  refine (hde.released.resolve_right fun he => ?_).trans hop.symm
  exact drawnToken_ne_empty hdraw (htok.symm.trans (htok'.symm.trans he))

/-- What the dispatcher does to one publisher: its queue and whether it is registered. -/
inductive Turn (db db' : DB) (k : String) : Prop
  | idle (queue : db'.out.queue k = db.out.queue k)
      (registered : db'.publisherRegistered k = db.publisherRegistered k)
  | delivered (a : QueueItem) (queue : db.out.queue k = a :: db'.out.queue k)
      (operation : a.operation ≠ .allowPublisher)
      (registered : db'.publisherRegistered k = db.publisherRegistered k)
  | allowed (a : QueueItem) (queue : db.out.queue k = a :: db'.out.queue k)
      (registered : db'.publisherRegistered k = true)
  | unallowed (a : QueueItem) (queue : db.out.queue k = a :: db'.out.queue k)
      (rest : ∀ b ∈ db'.out.queue k, b.operation = .unallowPublisher)
  | recovered (a : QueueItem) (rest : List QueueItem) (queue : db.out.queue k = a :: rest)
      (queue' : db'.out.queue k = ⟨.allowPublisher, a.pubKey, ""⟩ :: a :: rest)

theorem Turn.mem {k : String} {a : QueueItem} (h : Turn db db' k) (ha : a ∈ db'.out.queue k) :
    a ∈ db.out.queue k ∨ a.operation = .allowPublisher := by
  cases h with
  | idle hq => exact .inl (hq ▸ ha)
  | delivered _ hq => exact .inl (hq ▸ List.mem_cons_of_mem _ ha)
  | allowed _ hq => exact .inl (hq ▸ List.mem_cons_of_mem _ ha)
  | unallowed _ hq => exact .inl (hq ▸ List.mem_cons_of_mem _ ha)
  | recovered b rest hq hq' =>
    rw [hq'] at ha
    rcases List.mem_cons.1 ha with rfl | ha
    · exact .inr rfl
    · exact .inl (hq ▸ ha)

theorem Turn.covered {k : String} (h : Turn db db' k)
    (hc : Covered (db.publisherRegistered k) (db.out.queue k)) :
    Covered (db'.publisherRegistered k) (db'.out.queue k) := by
  cases h with
  | idle hq hr => rwa [hq, hr]
  | delivered a hq ha hr =>
    rw [hq] at hc
    rw [hr]
    simpa [ha] using hc.2
  | allowed a hq hr =>
    rw [hr]
    exact covered_true
  | unallowed a hq hu => exact covered_of_unallow hu _
  | recovered a rest hq hq' =>
    rw [hq']
    refine ⟨fun h => (by cases h), covered_true.mono fun _ => ?_⟩
    rw [Bool.or_eq_true]
    exact .inr rfl

structure Lawful (N : Nostr.Library) (s : Session) : Prop where
  session : SessionInv s
  pool : ∀ i ∈ s.pool, Matches i s.db.out
  authentic : ∀ k, ∀ a ∈ s.db.out.queue k, Authentic N a
  covered : ∀ k, Covered (s.db.publisherRegistered k) (s.db.out.queue k)
  unallow : ∀ k, ∀ a ∈ s.db.out.queue k, a.operation = .unallowPublisher →
    s.db.publisherPurged k = true

/-- The completion of an item: its row is the first of its publisher's queue. -/
theorem queue_completed {s : Session} {t : OutboxTables} {i : OutboxItem} {now : Int}
    (hs : Lawful N s) (hi : i ∈ s.pool)
    (h : s.db.out.exec (.complete i.id i.claimToken now) = .ok t) :
    ∃ a, a.operation = i.operation ∧ s.db.out.queue i.pubKey = a :: t.queue i.pubKey ∧
      ∀ k, k ≠ i.pubKey → t.queue k = s.db.out.queue k := by
  obtain ⟨r, rest, hr, ho, hq, hq', hk⟩ := OutboxTables.queueRows_complete hs.session.outbox.queue h
  have hpk : r.aggregateKey = i.pubKey :=
    (hs.session.outbox.owned r hr).symm.trans ((hs.session.pool i hi).2 r hr ho.1).1
  rw [hpk] at hq hq' hk
  refine ⟨r.item, (hs.pool i hi).2 r hr ho.1 ho.2.1, ?_, ?_⟩
  · rw [OutboxTables.queue, OutboxTables.queue, hq, hq', List.map_cons]
  · intro k hne
    rw [OutboxTables.queue, OutboxTables.queue, hk k hne]

section
variable {s : Session} {i : OutboxItem} {now : Int} (hs : Lawful N s) (hi : i ∈ s.pool)
include hs hi

theorem turn_completeOutbox (hop : i.operation ≠ .allowPublisher)
    (h : (StoreOp.completeOutbox i.id i.claimToken now).exec N s.db = .ok (db', items))
    (k : String) : Turn s.db db' k := by
  obtain ⟨a, ha, hq, hother⟩ := queue_completed hs hi (exec_out h)
  simp only [StoreOp.exec, map_ok_iff, Prod.mk.injEq] at h
  obtain ⟨_, h, rfl, -⟩ := h
  obtain ⟨out, -, he⟩ := bind_ok_iff.1 h
  cases he
  by_cases hk : k = i.pubKey
  · subst hk
    exact .delivered a hq (ha ▸ hop) rfl
  · exact .idle (hother k hk) rfl

theorem turn_registration
    (h : (StoreOp.completePublisherRegistration i.id i.claimToken i.pubKey now).exec N s.db =
      .ok (db', items)) (k : String) : Turn s.db db' k := by
  obtain ⟨a, -, hq, hother⟩ := queue_completed hs hi (exec_out h)
  simp only [StoreOp.exec, map_ok_iff, Prod.mk.injEq] at h
  obtain ⟨_, h, rfl, -⟩ := h
  obtain ⟨out, -, rfl⟩ := SQLiteStore.completePublisherRegistration_ok h
  by_cases hk : k = i.pubKey
  · subst hk
    refine .allowed a hq ?_
    simp only [DB.publisherRegistered, DB.setPublisherRegistered, Table.get?_set, if_true]
    rfl
  · refine .idle (hother k hk) ?_
    simp only [DB.publisherRegistered, DB.setPublisherRegistered, Table.get?_set, if_neg hk]

theorem turn_unregistration (hop : i.operation = .unallowPublisher)
    (h : (StoreOp.completePublisherUnregistration i.id i.claimToken now i.pubKey).exec N s.db =
      .ok (db', items)) (k : String) : Turn s.db db' k := by
  obtain ⟨a, ha, hq, hother⟩ := queue_completed hs hi (exec_out h)
  by_cases hk : k = i.pubKey
  · subst hk
    have hp := hs.unallow i.pubKey a (hq ▸ List.mem_cons_self) (ha.trans hop)
    exact .unallowed a hq (over_of_unregistration hs.session hp hi hop h).queue
  · refine .idle (hother k hk) ?_
    simp only [StoreOp.exec, map_ok_iff, Prod.mk.injEq] at h
    obtain ⟨_, h, rfl, -⟩ := h
    obtain ⟨out, -, rfl⟩ := SQLiteStore.completePublisherUnregistration_ok h
    simp only [DB.publisherRegistered, DB.deletePublisherMappings,
      DB.deletePublisherSourceOperations, DB.clearPublisherRegistration, Table.get?_erase,
      if_neg hk]

omit hi in
theorem turn_recovery {id : Nat} {token pubKey : String}
    (h : (StoreOp.recoverPublisherRegistration id token pubKey now).exec N s.db =
      .ok (db', items)) (k : String) : Turn s.db db' k := by
  have hq := OutboxTables.exec_queue hs.session.outbox (cmd_own h) (exec_out h)
  obtain ⟨c, hc, ho, -, hck, -⟩ := OutboxTables.recover_ok (exec_out h)
  simp only [StoreOp.cmd, OutboxTables.effect, OutboxTables.rowWithID_eq hc ho.1] at hq
  simp only [QueueOp.apply] at hq
  split at hq
  · cases hq
  rename_i b rest hb
  split at hq
  swap
  · cases hq
  rename_i hbc
  subst hbc
  have hqk := congrFun (Option.some.inj hq) k
  by_cases hk : k = c.aggregateKey
  · subst hk
    rw [Function.update_self] at hqk
    exact .recovered c.item rest hb hqk.symm
  · rw [Function.update_of_ne hk] at hqk
    refine .idle hqk.symm ?_
    simp only [StoreOp.exec, map_ok_iff, Prod.mk.injEq] at h
    obtain ⟨_, h, rfl, -⟩ := h
    unfold SQLiteStore.recoverPublisherRegistration at h
    split at h
    · cases h
    obtain ⟨-, h⟩ := check_ok_iff.1 h
    obtain ⟨out, -, he⟩ := bind_ok_iff.1 h
    cases he
    simp only [DB.publisherRegistered, DB.clearPublisherRegistration, Table.get?_erase,
      if_neg (hck ▸ hk)]

omit hi in
theorem turn_retry {id : Nat} {token lastError : String} {availableAt : Int}
    (h : (StoreOp.retryOutbox id token now availableAt lastError).exec N s.db = .ok (db', items))
    (k : String) : Turn s.db db' k := by
  have hq := OutboxTables.exec_queue hs.session.outbox (cmd_own h) (exec_out h)
  simp only [StoreOp.cmd, OutboxTables.effect, OutboxTables.apply_append_nil,
    Option.some.injEq] at hq
  refine .idle (by rw [hq]) ?_
  simp only [StoreOp.exec, map_ok_iff, Prod.mk.injEq] at h
  obtain ⟨_, h, rfl, -⟩ := h
  obtain ⟨out, -, he⟩ := bind_ok_iff.1 h
  cases he
  rfl

end

theorem turn_of_dispatched {s : Session} (hs : Lawful N s) (hd : Dispatched s.pool op)
    (h : op.exec N s.db = .ok (db', items)) : ∀ k, Turn s.db db' k := by
  obtain ⟨d, now, result, i, hi, rfl⟩ := hd
  unfold Dispatcher.followUp at h
  split at h
  · unfold Dispatcher.complete at h
    split at h
    · exact turn_registration hs hi h
    · exact turn_unregistration hs hi ‹_› h
    · exact turn_completeOutbox hs hi ‹_› h
  · split at h
    · exact turn_recovery hs h
    · exact turn_retry hs h

/-! ## Runs -/

theorem lawful_empty : Lawful N .empty where
  session := .empty
  pool _ h := by cases h
  authentic _ _ h := by cases h
  covered _ := trivial
  unallow _ _ h := by cases h

/-- The item of a claim is under a token that no earlier item has. -/
theorem Lawful.pool_exec {s : Session} (hs : Lawful N s)
    (hfresh : ∀ i ∈ s.pool, op.drawnToken ≠ some i.claimToken)
    (h : op.exec N s.db = .ok (db', items)) : ∀ i ∈ s.pool ++ items, Matches i db'.out := by
  intro i hi
  rcases List.mem_append.1 hi with hi | hi
  · exact (hs.pool i hi).exec hs.session.outbox (hs.session.pool i hi) (hfresh i hi) h
  · exact matches_claimed hs.session.outbox h hi

theorem Lawful.intake {s : Session} (hs : Lawful N s) (ho : op.Intake)
    (hfresh : ∀ i ∈ s.pool, op.drawnToken ≠ some i.claimToken)
    (h : op.exec N s.db = .ok (db', items)) : Lawful N ⟨db', s.pool ++ items⟩ := by
  have ha := appends_of_intake hs.session.outbox ho h
  refine ⟨hs.session.exec h, hs.pool_exec hfresh h, ?_, ?_, ?_⟩
  · intro k a hm
    rw [ha.queue k] at hm
    rcases List.mem_append.1 hm with hm | hm
    · exact hs.authentic k a hm
    · obtain ⟨r, hr, -, rfl⟩ := mem_appendedTo hm
      exact ha.authentic r hr
  · intro k
    have hreg : db'.publisherRegistered k = s.db.publisherRegistered k := by
      rw [DB.publisherRegistered, ha.registrations, DB.publisherRegistered]
    show Covered (db'.publisherRegistered k) (db'.out.queue k)
    rw [hreg, ha.queue k, covered_append, ← registeredOrPending_eq]
    exact ⟨hs.covered k, ha.covered k⟩
  · intro k a hm hu
    rw [ha.queue k] at hm
    rcases List.mem_append.1 hm with hm | hm
    · exact (exec_frame h).purges k (hs.unallow k a hm hu)
    · obtain ⟨r, hr, rfl, rfl⟩ := mem_appendedTo hm
      exact ha.unallow r hr hu

theorem Lawful.dispatched {s : Session} (hs : Lawful N s) (hd : Dispatched s.pool op)
    (hfresh : ∀ i ∈ s.pool, op.drawnToken ≠ some i.claimToken)
    (h : op.exec N s.db = .ok (db', items)) : Lawful N ⟨db', s.pool ++ items⟩ := by
  have hturn := turn_of_dispatched hs hd h
  refine ⟨hs.session.exec h, hs.pool_exec hfresh h, ?_, fun k => (hturn k).covered (hs.covered k),
    ?_⟩
  · intro k a hm ho
    rcases (hturn k).mem hm with hm | hallow
    · exact hs.authentic k a hm ho
    · rw [hallow] at ho
      cases ho
  · intro k a hm hu
    rcases (hturn k).mem hm with hm | hallow
    · exact (exec_frame h).purges k (hs.unallow k a hm hu)
    · rw [hallow] at hu
      cases hu

/-- Every call of the sequence takes work in, claims it, or is what `DispatchOne` calls with an
item that it has claimed. -/
def LawfulRun (N : Nostr.Library) : Session → List Call → Prop
  | _, [] => True
  | s, c :: cs => (c.op.Intake ∨ Dispatched s.pool c.op) ∧ LawfulRun N (s.step N c) cs

theorem lawfulRun_append {cs ds : List Call} : ∀ {s : Session},
    LawfulRun N s (cs ++ ds) ↔ LawfulRun N s cs ∧ LawfulRun N (s.run N cs) ds := by
  induction cs with
  | nil =>
    intro s
    rw [List.nil_append, Session.run_nil, LawfulRun, true_and]
  | cons c cs ih =>
    intro s
    rw [List.cons_append, LawfulRun, ih, LawfulRun, Session.run_cons, and_assoc]

/-- The items are under tokens that the calls draw no more. -/
def FreshTokens (s : Session) (cs : List Call) : Prop :=
  (cs.filterMap Call.drawnToken).Nodup ∧
    ∀ i ∈ s.pool, ∀ c ∈ cs, c.drawnToken ≠ some i.claimToken

theorem FreshTokens.step {s : Session} {c : Call} {cs : List Call} (h : FreshTokens s (c :: cs)) :
    FreshTokens (s.step N c) cs := by
  obtain ⟨hd, hp⟩ := h
  refine ⟨hd.sublist (List.Sublist.filterMap _ (List.sublist_cons_self c cs)), ?_⟩
  intro i hi x hx
  rcases List.mem_append.1 hi with hi | hi
  · exact hp i hi x (List.mem_cons_of_mem _ hx)
  · obtain ⟨_, _, hexec, hi, -⟩ := Call.exec_of_items hi
    obtain ⟨token, -, -, -, hdraw, -, htok, -⟩ := claimOutbox_items hexec hi
    have hdraw : c.drawnToken = some token := hdraw
    rw [List.filterMap_cons_some hdraw, List.nodup_cons] at hd
    rw [htok]
    exact fun he => hd.1 (List.mem_filterMap.2 ⟨x, hx, he⟩)

theorem Lawful.step {s : Session} {c : Call} (hs : Lawful N s)
    (ho : c.op.Intake ∨ Dispatched s.pool c.op)
    (hfresh : ∀ i ∈ s.pool, c.drawnToken ≠ some i.claimToken) : Lawful N (s.step N c) := by
  unfold Session.step Call.items
  cases h : c.result N s.db with
  | error e =>
    rw [Call.next_of_error h, List.append_nil]
    exact hs
  | ok x =>
    rw [Call.next_of_ok h]
    have hx := Call.exec_of_result h
    rcases ho with ho | hd
    · exact hs.intake ho hfresh hx
    · exact hs.dispatched hd hfresh hx

theorem Lawful.run : ∀ (cs : List Call) {s : Session}, Lawful N s → LawfulRun N s cs →
    FreshTokens s cs → Lawful N (s.run N cs)
  | [], _, hs, _, _ => hs
  | c :: cs, _, hs, ⟨ho, hrun⟩, hf =>
    Lawful.run cs (hs.step ho fun i hi => hf.2 i hi c List.mem_cons_self) hrun hf.step

theorem freshTokens_empty {cs : List Call} (hd : (cs.filterMap Call.drawnToken).Nodup) :
    FreshTokens .empty cs :=
  ⟨hd, fun _ h => (by cases h)⟩

/-! ## Mappings -/

/-- The event was in the outbox at some time of the run. -/
def Enqueued (N : Nostr.Library) (cs : List Call) (e : Nostr.Event) : Prop :=
  ∃ before, before <+: cs ∧ ∃ r ∈ (Session.empty.run N before).db.out.outbox.rows,
    r.operation = .publishEvent ∧ N.unmarshal r.payload = some e

theorem Enqueued.append {cs ds : List Call} {e : Nostr.Event} (h : Enqueued N cs e) :
    Enqueued N (cs ++ ds) e := by
  obtain ⟨before, hb, h⟩ := h
  exact ⟨before, hb.trans (List.prefix_append cs ds), h⟩

theorem maps_of_dispatched {pool : List OutboxItem} (h : Dispatched pool op) :
    op.maps = [] ∧ ∀ m, op ≠ .saveEventMapping m := by
  obtain ⟨d, now, result, i, -, rfl⟩ := h
  unfold Dispatcher.followUp Dispatcher.complete
  split
  · split <;> exact ⟨rfl, fun _ h => (by cases h)⟩
  · split <;> exact ⟨rfl, fun _ h => (by cases h)⟩

/-- A call maps a source only to an event that it has enqueued. -/
theorem mapped_step {s : Session} {c : Call} (hi : s.db.out.Inv)
    (ho : c.op.Intake ∨ Dispatched s.pool c.op) {ref : SourceRef} {m : BridgeEvent}
    (hm : (s.step N c).db.bridgeEvents.get? ref = some m) :
    s.db.bridgeEvents.get? ref = some m ∨ ∃ r ∈ (s.step N c).db.out.outbox.rows,
      r.operation = .publishEvent ∧ ∃ e, N.unmarshal r.payload = some e ∧
        e.id = m.nostrEventID ∧ e.pubKey = m.authorPubKey := by
  simp only [Session.step] at hm ⊢
  cases h : c.result N s.db with
  | error e =>
    rw [Call.next_of_error h] at hm
    exact .inl hm
  | ok x =>
    obtain ⟨db', items⟩ := x
    rw [Call.next_of_ok h] at hm ⊢
    have hx := Call.exec_of_result h
    rcases ho with ho | hd
    · have ha := appends_of_intake hi ho hx
      refine (ha.mapped ref m hm).imp_right ?_
      rintro ⟨r, hr, hop, e, he, hid, hpk⟩
      have hmem : r.item ∈ db'.out.queue r.aggregateKey := by
        rw [ha.queue]
        exact List.mem_append_right _ (List.mem_map_of_mem (by simpa using hr))
      obtain ⟨row, hrow, -, hitem⟩ := mem_queue.1 hmem
      simp only [OutboxRow.item, OutboxRequest.item, QueueItem.mk.injEq] at hitem
      exact ⟨row, hrow, hitem.1.trans hop, e, hitem.2.2 ▸ he, hid, hpk⟩
    · rcases (exec_frame hx).mapped ref m hm with hm | ⟨hmaps, -⟩ | ⟨_, he⟩
      · exact .inl hm
      · rw [(maps_of_dispatched hd).1] at hmaps
        cases hmaps
      · exact absurd he ((maps_of_dispatched hd).2 _)

theorem mapped_run {cs : List Call} (hrun : LawfulRun N .empty cs) {ref : SourceRef}
    {m : BridgeEvent} (hm : (Session.empty.run N cs).db.bridgeEvents.get? ref = some m) :
    ∃ e, Enqueued N cs e ∧ e.id = m.nostrEventID ∧ e.pubKey = m.authorPubKey := by
  induction cs using List.reverseRecOn with
  | nil => cases hm
  | append_singleton cs c ih =>
    obtain ⟨hrun, ho, -⟩ := lawfulRun_append.1 hrun
    have hstep : Session.empty.run N (cs ++ [c]) = (Session.empty.run N cs).step N c := by
      rw [Session.run, List.foldl_append]
      rfl
    rw [hstep] at hm
    rcases mapped_step (SessionInv.empty.run cs).outbox ho hm with hm | ⟨r, hr, hop, e, he, h⟩
    · obtain ⟨e, he, h⟩ := ih hrun hm
      exact ⟨e, he.append, h⟩
    · exact ⟨e, ⟨cs ++ [c], List.prefix_refl _, r, hstep ▸ hr, hop, he⟩, h⟩

/-! ## Publishes -/

theorem Lawful.authentic_row {s : Session} (hs : Lawful N s) {r : OutboxRow}
    (hr : r ∈ s.db.out.outbox.rows) (hop : r.operation = .publishEvent) :
    ∃ e, N.unmarshal r.payload = some e ∧ N.checkID e = true ∧ N.verifySignature e = true ∧
      e.pubKey = r.pubKey :=
  hs.authentic r.aggregateKey r.item (mem_queue.2 ⟨r, hr, rfl, rfl⟩) hop

theorem Lawful.registered_before {s : Session} (hs : Lawful N s) {r : OutboxRow}
    (hr : r ∈ s.db.out.outbox.rows) (hop : r.operation = .publishEvent) :
    s.db.publisherRegistered r.aggregateKey = true ∨ ∃ a ∈ s.db.out.outbox.rows,
      a.operation = .allowPublisher ∧ a.aggregateKey = r.aggregateKey ∧
      a.sequence < r.sequence := by
  obtain ⟨l₁, l₂, hq⟩ := List.append_of_mem (OutboxTables.mem_queueRows.2 ⟨hr, rfl⟩)
  have hc := hs.covered r.aggregateKey
  rw [OutboxTables.queue, hq, List.map_append, List.map_cons] at hc
  refine (hc.before hop).imp_right ?_
  rintro ⟨_, hm, hallow⟩
  obtain ⟨a, ha, rfl⟩ := List.mem_map.1 hm
  have hsorted := OutboxTables.sorted_queueRows (t := s.db.out) (k := r.aggregateKey)
  rw [hq, List.pairwise_append] at hsorted
  have hmem : a ∈ s.db.out.queueRows r.aggregateKey := hq ▸ List.mem_append_left _ ha
  obtain ⟨hrow, hk⟩ := OutboxTables.mem_queueRows.1 hmem
  exact ⟨a, hrow, hallow, hk, hsorted.2.2 a ha r List.mem_cons_self⟩

/-- After every run of calls that take work in or dispatch it, if no claim drew the same token
twice: every publish in the outbox is a signed event of its publisher, whose key is the aggregate,
and the publisher is registered or a registration stands before the publish. Every mapping is to an
event that was enqueued and is of the mapped author, and with collision-free IDs there is no other
such event. -/
theorem queued_authentic (N : Nostr.Library) (cs : List Call)
    (hrun : LawfulRun N Session.empty cs) (hd : (cs.filterMap Call.drawnToken).Nodup) :
    let db := (Session.empty.run N cs).db
    (∀ r ∈ db.out.outbox.rows, r.operation = .publishEvent →
      (∃ e, N.unmarshal r.payload = some e ∧ N.checkID e = true ∧ N.verifySignature e = true ∧
        e.pubKey = r.pubKey) ∧ r.pubKey = r.aggregateKey ∧
      (db.publisherRegistered r.pubKey = true ∨ ∃ a ∈ db.out.outbox.rows,
        a.operation = .allowPublisher ∧ a.aggregateKey = r.aggregateKey ∧
          a.sequence < r.sequence)) ∧
    ∀ ref m, db.bridgeEvents.get? ref = some m →
      (∃ e, Enqueued N cs e ∧ e.id = m.nostrEventID ∧ e.pubKey = m.authorPubKey) ∧
      (N.CollisionFree → ∀ e, Enqueued N cs e → e.id = m.nostrEventID →
        e.pubKey = m.authorPubKey) := by
  intro db
  have hs : Lawful N (Session.empty.run N cs) :=
    lawful_empty.run cs hrun (freshTokens_empty hd)
  -- what was ever enqueued, by the same invariant at the time when it was
  have hchecked : ∀ e, Enqueued N cs e → N.checkID e = true := by
    rintro e ⟨before, ⟨after, rfl⟩, r, hr, hop, he⟩
    rw [List.filterMap_append] at hd
    have hs : Lawful N (Session.empty.run N before) := lawful_empty.run before
      (lawfulRun_append.1 hrun).1 (freshTokens_empty hd.of_append_left)
    obtain ⟨e', he', hid, -⟩ := hs.authentic_row hr hop
    cases he.symm.trans he'
    exact hid
  refine ⟨fun r hr hop => ?_, fun ref m hm => ?_⟩
  · have hown := hs.session.outbox.owned r hr
    refine ⟨hs.authentic_row hr hop, hown, ?_⟩
    rw [hown]
    exact hs.registered_before hr hop
  · obtain ⟨e, he, hid, hpk⟩ := mapped_run hrun hm
    refine ⟨⟨e, he, hid, hpk⟩, fun hfree e' he' hid' => ?_⟩
    have hsame : N.getID e' = N.getID e := by
      rw [← of_decide_eq_true (hchecked e' he'), ← of_decide_eq_true (hchecked e he), hid', hid]
    exact (hfree e' e hsame).1.trans hpk

/-- A note is enqueued, and the registration before it is delivered. -/
def noteEnqueued : List Call :=
  ⟨.enqueueEvent (notePost "p" "u" "1"), false⟩ :: registrationDelivered

theorem queued_authentic_note :
    LawfulRun Nostr.Library.plain .empty noteEnqueued ∧
      (noteEnqueued.filterMap Call.drawnToken).Nodup ∧
      Nostr.Library.plain.CollisionFree ∧
      (∃ r ∈ (Session.empty.run Nostr.Library.plain noteEnqueued).db.out.outbox.rows,
        r.operation = .publishEvent ∧ r.pubKey = r.aggregateKey) ∧
      ∃ m, (Session.empty.run Nostr.Library.plain noteEnqueued).db.bridgeEvents.get?
          ⟨⟨"bluesky", "a"⟩, "u"⟩ = some m ∧
        ∀ e, Enqueued Nostr.Library.plain noteEnqueued e → e.id = m.nostrEventID →
          e.pubKey = m.authorPubKey := by
  have hrun : LawfulRun Nostr.Library.plain .empty noteEnqueued :=
    ⟨.inl trivial, .inl trivial, .inr ⟨⟨0, 0⟩, 0, .ok (), _, List.mem_cons_self, rfl⟩, trivial⟩
  have hd : (noteEnqueued.filterMap Call.drawnToken).Nodup := List.nodup_singleton _
  have hfree : Nostr.Library.plain.CollisionFree := Nostr.Library.plain_collisionFree
  obtain ⟨hrows, hmapped⟩ := queued_authentic Nostr.Library.plain noteEnqueued hrun hd
  refine ⟨hrun, hd, hfree, ?_, ?_⟩
  · exact ⟨_, List.mem_cons_self, rfl, (hrows _ List.mem_cons_self rfl).2.1⟩
  · exact ⟨_, rfl, (hmapped ⟨⟨"bluesky", "a"⟩, "u"⟩ _ rfl).2 hfree⟩

end Bridge
