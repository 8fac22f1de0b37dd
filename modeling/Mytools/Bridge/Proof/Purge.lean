import Mytools.Bridge.Dispatcher
import Mytools.Bridge.Proof.Claims
import Mytools.Bridge.Proof.Tables

/-!
# A purge is final

Once a publisher is purged nothing is enqueued for it but the end of its registration, so in its
queue the publishes and registrations stand before every `unallow` (`UnallowLast`). When the
`unallow` is completed it is the head; nothing else can be left then, and no operation brings the
publisher back (`Over`, `purge_final`).
-/

namespace Bridge

open Lib

variable {N : Nostr.Library} {db db' : DB} {op : StoreOp} {items : List OutboxItem}

/-! ## The queue of a purged publisher -/

/-- After an `unallow` there is nothing but further ones. -/
def UnallowLast (l : List QueueItem) : Prop :=
  l.Pairwise fun a b => a.operation = .unallowPublisher → b.operation = .unallowPublisher

theorem mem_queue {t : OutboxTables} {k : String} {a : QueueItem} :
    a ∈ t.queue k ↔ ∃ r ∈ t.outbox.rows, r.aggregateKey = k ∧ r.item = a := by
  simp only [OutboxTables.queue, List.mem_map, OutboxTables.mem_queueRows, and_assoc]

/-- What is enqueued for a purged publisher ends its registration. -/
theorem appended_purged {pk : String} (h : op.exec N db = .ok (db', items))
    (hp : db.publisherPurged pk = true) :
    ∀ a ∈ (db.out.effect (op.cmd db)).appended pk, a.operation = .unallowPublisher := by
  intro a ha
  cases hc : op.cmd db with
  | enqueue rs =>
    rw [hc] at ha
    simp only [OutboxTables.effect, QueueOp.appended, List.mem_map, List.mem_filter] at ha
    obtain ⟨x, ⟨⟨r, hr, rfl⟩, hk⟩, rfl⟩ := ha
    obtain ⟨hown, hnp⟩ := cmd_admitted h hc r hr
    have hk : r.aggregateKey = pk := by simpa using hk
    by_contra hne
    have := hnp hne
    rw [hown, hk, hp] at this
    cases this
  | claim token claimedUntil now limit =>
    rw [hc] at ha
    cases ha
  | retry id token now availableAt lastError =>
    rw [hc] at ha
    cases ha
  | complete id token now =>
    rw [hc] at ha
    simp only [OutboxTables.effect] at ha
    split at ha <;> cases ha
  | recover id token pubKey now =>
    rw [hc] at ha
    simp only [OutboxTables.effect] at ha
    split at ha <;> cases ha

/-- One operation on the queue of a purged publisher: `unallow`s come at the end, the head is
completed, or the publish at the head gets a registration before it. -/
theorem queue_purged {pk : String} (hi : db.out.Inv) (h : op.exec N db = .ok (db', items))
    (hp : db.publisherPurged pk = true) :
    (∃ new, (∀ a ∈ new, a.operation = .unallowPublisher) ∧
        db'.out.queue pk = db.out.queue pk ++ new) ∨
      (∃ a, db.out.queue pk = a :: db'.out.queue pk) ∨
      ∃ a rest, a.operation = .publishEvent ∧ db.out.queue pk = a :: rest ∧
        db'.out.queue pk = ⟨.allowPublisher, a.pubKey, ""⟩ :: a :: rest := by
  have hq := OutboxTables.exec_queue hi (cmd_own h) (exec_out h)
  rcases QueueOp.apply_cases hq pk with hq | ⟨-, hq⟩ | ⟨a, new, rest, he, hq, hq'⟩
  · exact .inl ⟨_, appended_purged h hp, hq⟩
  · exact .inr (.inl hq)
  · refine .inr (.inr ⟨a, rest, ?_⟩)
    have hout := exec_out h
    cases hc : op.cmd db with
    | recover id token pubKey now =>
      rw [hc] at hout he
      obtain ⟨c, hm, ho, hpub, -, -⟩ := OutboxTables.recover_ok hout
      simp only [OutboxTables.effect, OutboxTables.rowWithID_eq hm ho.1,
        QueueOp.expand.injEq] at he
      obtain ⟨-, rfl, rfl⟩ := he
      exact ⟨hpub, hq, hq'⟩
    | complete id token now =>
      rw [hc] at he
      simp only [OutboxTables.effect] at he
      split at he <;> cases he
    | _ =>
      rw [hc] at he
      cases he

theorem unallowLast_exec {pk : String} (hi : db.out.Inv) (h : op.exec N db = .ok (db', items))
    (hp : db.publisherPurged pk = true) (hu : UnallowLast (db.out.queue pk)) :
    UnallowLast (db'.out.queue pk) := by
  rcases queue_purged hi h hp with ⟨new, hnew, hq⟩ | ⟨a, hq⟩ | ⟨a, rest, ha, hq, hq'⟩
  · rw [hq]
    refine List.pairwise_append.2 ⟨hu, ?_, fun _ _ b hb _ => hnew b hb⟩
    exact List.pairwise_of_forall_mem_list fun _ _ b hb _ => hnew b hb
  · rw [hq] at hu
    exact (List.pairwise_cons.1 hu).2
  · rw [hq] at hu
    rw [hq']
    refine List.pairwise_cons.2 ⟨fun _ _ ho => ?_, hu⟩
    cases ho

/-- The purge itself: nothing that ends the registration was queued before it. -/
theorem unallowLast_purge {q : PurgeRequest} {db' : DB} (hi : db.out.Inv)
    (h : (StoreOp.enqueuePurge q).exec N db = .ok (db', items))
    (hp : db.publisherPurged q.pubKey = false) : UnallowLast (db'.out.queue q.pubKey) := by
  have hq := OutboxTables.exec_queue hi (cmd_own h) (exec_out h)
  simp only [StoreOp.exec, map_ok_iff, Prod.mk.injEq] at h
  obtain ⟨_, h, rfl, -⟩ := h
  rcases SQLiteStore.enqueuePurge_ok h with ⟨ht, -⟩ | ⟨-, hu, -⟩
  · rw [hp] at ht
    cases ht
  simp only [StoreOp.cmd, StoreOp.requests, hp, OutboxTables.effect, QueueOp.apply,
    Option.some.injEq] at hq
  rw [← hq]
  have hno : ∀ a ∈ db.out.queue q.pubKey, a.operation ≠ .unallowPublisher := by
    intro a ha ho
    obtain ⟨r, hr, hk, rfl⟩ := mem_queue.1 ha
    have hall := List.any_eq_false.1 hu r hr
    exact hall (decide_eq_true ⟨hk, ho⟩)
  refine List.pairwise_append.2 ⟨?_, ?_, fun a ha _ _ ho => absurd ho (hno a ha)⟩
  · exact List.pairwise_of_forall_mem_list fun a ha _ _ ho => absurd ho (hno a ha)
  · simp [QueueOp.appended, OutboxRequest.item]

/-! ## Sessions -/

/-- The row of a claimed item, as long as it exists, is of the item's publisher, and its operation
is the item's; only a publish can have been turned into a registration. -/
def Describes (i : OutboxItem) (t : OutboxTables) : Prop :=
  i.id < t.outbox.nextID ∧ ∀ r ∈ t.outbox.rows, r.id = i.id → r.pubKey = i.pubKey ∧
    (r.operation = i.operation ∨ i.operation = .publishEvent ∧ r.operation = .allowPublisher)

theorem Describes.exec {i : OutboxItem} (hi : db.out.Inv) (hd : Describes i db.out)
    (h : op.exec N db = .ok (db', items)) : Describes i db'.out := by
  obtain ⟨hle, hrows⟩ := OutboxTables.exec_rows hi.queue (exec_out h)
  refine ⟨Nat.lt_of_lt_of_le hd.1 hle, ?_⟩
  intro r' hr' hid
  rcases hrows r' hr' with hnew | ⟨r, hr, hde⟩
  · have := hd.1
    omega
  obtain ⟨hpk, hop⟩ := hd.2 r hr (hde.id.symm.trans hid)
  refine ⟨hde.pubKey.trans hpk, ?_⟩
  rcases hde.operation with ho | ⟨hpub, ho⟩
  · rwa [ho]
  · rcases hop with hop | ⟨-, hallow⟩
    · exact .inr ⟨hop.symm.trans hpub, ho⟩
    · rw [hpub] at hallow
      cases hallow

theorem describes_claimed {i : OutboxItem} (h : op.exec N db = .ok (db', items)) (hm : i ∈ items) :
    Describes i db.out := by
  obtain ⟨_, _, now, limit, -, -, -, r, hr, hid, hpk, hop⟩ := claimOutbox_items h hm
  obtain ⟨hmem, -, -⟩ := OutboxTables.mem_claimable hr
  refine ⟨hid ▸ db.out.outbox.valid.fresh r hmem, ?_⟩
  intro q hq hqid
  rw [Outbox.eq_of_id hq hmem (hqid.trans hid)]
  exact ⟨hpk.symm, .inl hop.symm⟩

structure SessionInv (s : Session) : Prop where
  outbox : s.db.out.Inv
  purged : ∀ pk, s.db.publisherPurged pk = true → UnallowLast (s.db.out.queue pk)
  pool : ∀ i ∈ s.pool, Describes i s.db.out

theorem SessionInv.empty : SessionInv .empty where
  outbox := ⟨OutboxTables.QueueInv.empty, fun _ hr => nomatch hr⟩
  purged _ h := nomatch h
  pool _ hi := nomatch hi

/-- The invariant is kept by every operation, proper or not. -/
theorem SessionInv.exec {s : Session} (hs : SessionInv s) (h : op.exec N s.db = .ok (db', items)) :
    SessionInv ⟨db', s.pool ++ items⟩ := by
  refine ⟨outboxInv_exec hs.outbox h, ?_, ?_⟩
  · intro pk hpk
    cases hb : s.db.publisherPurged pk with
    | true => exact unallowLast_exec hs.outbox h hb (hs.purged pk hb)
    | false =>
      rcases (exec_frame h).purged pk hpk with hb' | ⟨q, rfl, rfl⟩
      · rw [hb] at hb'
        cases hb'
      · exact unallowLast_purge hs.outbox h hb
  · intro i hm
    have hd : Describes i s.db.out := by
      rcases List.mem_append.1 hm with hm | hm
      · exact hs.pool i hm
      · exact describes_claimed h hm
    exact hd.exec hs.outbox h

theorem SessionInv.keepPool {s : Session} (hs : SessionInv s)
    (h : op.exec N s.db = .ok (db', items)) : SessionInv ⟨db', s.pool⟩ :=
  have hx := hs.exec h
  ⟨hx.outbox, hx.purged, fun i hi => hx.pool i (List.mem_append_left _ hi)⟩

theorem SessionInv.step {s : Session} (hs : SessionInv s) (c : Call) : SessionInv (s.step N c) := by
  unfold Session.step Call.items
  cases h : c.result N s.db with
  | error e =>
    rw [Call.next_of_error h]
    exact ⟨hs.outbox, hs.purged, by simpa using hs.pool⟩
  | ok x =>
    rw [Call.next_of_ok h]
    exact hs.exec (Call.exec_of_result h)

theorem SessionInv.run {s : Session} (hs : SessionInv s) :
    ∀ cs : List Call, SessionInv (s.run N cs)
  | [] => hs
  | c :: cs => (hs.step c).run cs

theorem purged_of_purge {q : PurgeRequest}
    (h : (StoreOp.enqueuePurge q).exec N db = .ok (db', items)) :
    db'.publisherPurged q.pubKey = true := by
  simp only [StoreOp.exec, map_ok_iff, Prod.mk.injEq] at h
  obtain ⟨_, h, rfl, -⟩ := h
  rcases SQLiteStore.enqueuePurge_ok h with ⟨hp, rfl⟩ | ⟨-, -, -, d, out, -, -, rfl⟩
  · exact hp
  · simp only [DB.publisherPurged, DB.insertPublisherPurge, Table.get?_set, if_true]
    rfl

theorem purged_run {pk : String} : ∀ (cs : List Call) {s : Session},
    s.db.publisherPurged pk = true → (s.run N cs).db.publisherPurged pk = true
  | [], _, h => h
  | c :: cs, s, h => by
    refine purged_run cs ?_
    exact Call.next_inv (I := fun db => db.publisherPurged pk = true)
      (fun _ _ _ hx => (exec_frame hx).purges pk h) h

/-- Publishes and registrations stand before every `unallow` of their publisher. -/
theorem SessionInv.ordered {s : Session} (hs : SessionInv s) {pk : String}
    (hp : s.db.publisherPurged pk = true) {u p : OutboxRow} (hu : u ∈ s.db.out.outbox.rows)
    (huk : u.pubKey = pk) (huo : u.operation = .unallowPublisher) (hpm : p ∈ s.db.out.outbox.rows)
    (hpk : p.pubKey = pk) (hpo : p.operation ≠ .unallowPublisher) : p.sequence < u.sequence := by
  have hum : u ∈ s.db.out.queueRows pk :=
    OutboxTables.mem_queueRows.2 ⟨hu, (hs.outbox.owned u hu).symm.trans huk⟩
  have hpm' : p ∈ s.db.out.queueRows pk :=
    OutboxTables.mem_queueRows.2 ⟨hpm, (hs.outbox.owned p hpm).symm.trans hpk⟩
  have hne : u ≠ p := by
    rintro rfl
    exact hpo huo
  by_contra hge
  have hseq : u.sequence < p.sequence := by
    rcases Int.lt_or_eq_of_le (Int.not_lt.1 hge) with hlt | heq
    · exact hlt
    · exact absurd (Distinct.inj OutboxTables.distinct_rowsOf
        (OutboxTables.mem_rowsOf.2 (OutboxTables.mem_queueRows.1 hum))
        (OutboxTables.mem_rowsOf.2 (OutboxTables.mem_queueRows.1 hpm')) heq) hne
  exact hpo (rel_of_lt OutboxTables.sorted_queueRows
    (List.pairwise_map.1 (hs.purged pk hp)) hum hpm' hseq huo)

/-! ## The end of a publisher -/

/-- The publisher is purged and nothing of it is left but, perhaps, further `unallow`s. -/
structure Over (pk : String) (db : DB) : Prop where
  purged : db.publisherPurged pk = true
  registered : db.publisherRegistered pk = false
  mapped : ∀ ref e, db.bridgeEvents.get? ref = some e → e.authorPubKey ≠ pk
  queue : ∀ a ∈ db.out.queue pk, a.operation = .unallowPublisher

/-- A completed registration of the dispatcher was the item's, and its row a registration. -/
theorem dispatched_registration {s : Session} (hs : SessionInv s) {id : Nat} {token pk : String}
    {now : Int} {items : List OutboxItem}
    (hd : Dispatched s.pool (.completePublisherRegistration id token pk now))
    (h : (StoreOp.completePublisherRegistration id token pk now).exec N s.db = .ok (db', items)) :
    ∃ r ∈ s.db.out.outbox.rows, r.pubKey = pk ∧ r.operation = .allowPublisher := by
  obtain ⟨d, now', result, i, hi, he⟩ := hd
  have hfollow : i.operation = .allowPublisher ∧ id = i.id ∧ pk = i.pubKey := by
    unfold Dispatcher.followUp at he
    split at he
    · unfold Dispatcher.complete at he
      split at he <;> cases he
      exact ⟨‹_›, rfl, rfl⟩
    · split at he <;> cases he
  obtain ⟨hop, rfl, rfl⟩ := hfollow
  obtain ⟨⟨r, hr, ho⟩, -⟩ := OutboxTables.completeOutbox_ok (exec_out h)
  obtain ⟨hpk, hrop⟩ := (hs.pool i hi).2 r hr ho.1
  refine ⟨r, hr, hpk, ?_⟩
  rcases hrop with hrop | ⟨-, hrop⟩
  · exact hrop.trans hop
  · exact hrop

theorem Over.exec {s : Session} {pk : String} (hs : SessionInv s) (ho : Over pk s.db)
    (hp : Proper s.pool op) (h : op.exec N s.db = .ok (db', items)) : Over pk db' := by
  have hf := exec_frame h
  refine ⟨hf.purges pk ho.purged, ?_, ?_, ?_⟩
  · cases hr : db'.publisherRegistered pk with
    | false => rfl
    | true =>
      rcases hf.registered pk hr with hr | ⟨t, rfl⟩ | ⟨id, token, now, rfl⟩
      · rw [ho.registered] at hr
        cases hr
      · exact absurd hp id
      · obtain ⟨r, hr, hpk, hop⟩ := dispatched_registration hs hp h
        have hmem : r.item ∈ s.db.out.queue pk :=
          mem_queue.2 ⟨r, hr, (hs.outbox.owned r hr).symm.trans hpk, rfl⟩
        have := ho.queue _ hmem
        rw [OutboxRow.item, hop] at this
        cases this
  · intro ref e he
    rcases hf.mapped ref e he with he | ⟨-, hv⟩ | ⟨m, rfl⟩
    · exact ho.mapped ref e he
    · rintro rfl
      have := hv.purged
      rw [ho.purged] at this
      cases this
    · exact absurd hp id
  · rcases queue_purged hs.outbox h ho.purged with ⟨new, hnew, hq⟩ | ⟨a, hq⟩ | ⟨a, rest, ha, hq, -⟩
    · rw [hq]
      intro a ha
      rcases List.mem_append.1 ha with ha | ha
      · exact ho.queue a ha
      · exact hnew a ha
    · exact fun b hb => ho.queue b (hq ▸ List.mem_cons_of_mem _ hb)
    · have := ho.queue a (hq ▸ List.mem_cons_self)
      rw [ha] at this
      cases this

theorem Over.run {pk : String} : ∀ (cs : List Call) {s : Session}, SessionInv s → Over pk s.db →
    ProperRun N s cs → Over pk (s.run N cs).db
  | [], _, _, ho, _ => ho
  | c :: cs, s, hs, ho, ⟨hp, hrun⟩ => by
    refine Over.run cs (hs.step c) ?_ hrun
    show Over pk (c.next N s.db)
    cases h : c.result N s.db with
    | error e => rwa [Call.next_of_error h]
    | ok x =>
      obtain ⟨db', items⟩ := x
      rw [Call.next_of_ok h]
      exact ho.exec hs hp (Call.exec_of_result h)

/-- The completion of an `unallow` of a purged publisher. -/
theorem over_of_unregistration {s : Session} (hs : SessionInv s) {i : OutboxItem} {now : Int}
    (hp : s.db.publisherPurged i.pubKey = true) (hi : i ∈ s.pool)
    (hop : i.operation = .unallowPublisher)
    (h : (StoreOp.completePublisherUnregistration i.id i.claimToken now i.pubKey).exec N s.db =
      .ok (db', items)) : Over i.pubKey db' := by
  have hout := exec_out h
  obtain ⟨r, rest, hr, how, hq, hq', -⟩ := OutboxTables.queueRows_complete hs.outbox.queue hout
  obtain ⟨hpk, hrop⟩ := (hs.pool i hi).2 r hr how.1
  have hrop : r.operation = .unallowPublisher := by
    rcases hrop with hrop | ⟨hpub, -⟩
    · exact hrop.trans hop
    · rw [hop] at hpub
      cases hpub
  have hk : r.aggregateKey = i.pubKey := (hs.outbox.owned r hr).symm.trans hpk
  rw [hk] at hq hq'
  have hlast := hs.purged _ hp
  rw [OutboxTables.queue, hq, List.map_cons] at hlast
  have hrest := (List.pairwise_cons.1 hlast).1
  simp only [StoreOp.exec, map_ok_iff, Prod.mk.injEq] at h
  obtain ⟨_, h, rfl, -⟩ := h
  obtain ⟨out, -, rfl⟩ := SQLiteStore.completePublisherUnregistration_ok h
  refine ⟨hp, ?_, ?_, ?_⟩
  · simp only [DB.publisherRegistered, DB.deletePublisherMappings,
      DB.deletePublisherSourceOperations, DB.clearPublisherRegistration, Table.get?_erase, if_true]
    rfl
  · intro ref e he
    simp only [DB.deletePublisherMappings, Table.get?_filter] at he
    simpa using (Option.filter_eq_some_iff.1 he).2
  · intro a ha
    rw [OutboxTables.queue, hq'] at ha
    exact hrest a ha hrop

/-- After a successful purge, in every state of every run, no publish and no registration of the
publisher stands behind one of its `unallow`s. And from the completion of such an `unallow` on,
over every run of proper calls, the publisher is not registered, is mapped nowhere, and has neither
a publish nor a registration in the outbox. The calls before this completion are arbitrary. -/
theorem purge_final (N : Nostr.Library) (before : List Call) (q : PurgeRequest) (db₁ : DB)
    (items : List OutboxItem) (after : List Call)
    (hpurge : (StoreOp.enqueuePurge q).exec N (Session.empty.run N before).db = .ok (db₁, items)) :
    let s := (Session.mk db₁ (Session.empty.run N before).pool).run N after
    (∀ u ∈ s.db.out.outbox.rows, u.pubKey = q.pubKey → u.operation = .unallowPublisher →
      ∀ p ∈ s.db.out.outbox.rows, p.pubKey = q.pubKey →
        p.operation = .publishEvent ∨ p.operation = .allowPublisher → p.sequence < u.sequence) ∧
    (∀ i ∈ s.pool, i.pubKey = q.pubKey → i.operation = .unallowPublisher → ∀ now db₂ items',
      (StoreOp.completePublisherUnregistration i.id i.claimToken now i.pubKey).exec N s.db =
        .ok (db₂, items') →
      ∀ later, ProperRun N ⟨db₂, s.pool⟩ later →
        let s' := (Session.mk db₂ s.pool).run N later
        s'.db.publisherRegistered q.pubKey = false ∧
        (∀ ref e, s'.db.bridgeEvents.get? ref = some e → e.authorPubKey ≠ q.pubKey) ∧
        ∀ p ∈ s'.db.out.outbox.rows, p.pubKey = q.pubKey →
          p.operation ≠ .publishEvent ∧ p.operation ≠ .allowPublisher) := by
  intro s
  have hs : SessionInv s := ((SessionInv.empty.run before).keepPool hpurge).run after
  have hp : s.db.publisherPurged q.pubKey = true := purged_run after (purged_of_purge hpurge)
  refine ⟨?_, ?_⟩
  · intro u hu huk huo p hpm hpk hpo
    refine hs.ordered hp hu huk huo hpm hpk ?_
    rcases hpo with hpo | hpo <;> rw [hpo] <;> decide
  · intro i hi hik hio now db₂ items' h later hlater s'
    rw [← hik] at hp ⊢
    have hs₂ : SessionInv ⟨db₂, s.pool⟩ := hs.keepPool h
    have ho : Over i.pubKey s'.db :=
      Over.run later hs₂ (over_of_unregistration hs hp hi hio h) hlater
    refine ⟨ho.registered, ho.mapped, ?_⟩
    intro p hpm hpk
    have hs' : SessionInv s' := hs₂.run later
    have hop := ho.queue p.item
      (mem_queue.2 ⟨p, hpm, (hs'.outbox.owned p hpm).symm.trans hpk, rfl⟩)
    have hop : p.operation = .unallowPublisher := hop
    rw [hop]
    exact ⟨by decide, by decide⟩

/-- The purge with the deletion of the events with these IDs. -/
def purgeOf (pubKey : String) (ids : List String) (now limit : Int) : PurgeRequest :=
  ⟨pubKey, Nostr.plainText (Nostr.plainDeletion pubKey ids), now, limit⟩

/-- The deletion of a purge is delivered, and the `unallow` is claimed. -/
def deletionDelivered : List Call :=
  [claimAt 0 0, ⟨.completeOutbox 1 (numberedToken 0) 0, false⟩, claimAt 0 1]

/-- A registered publisher is purged. -/
def purgedSession : Session :=
  Session.empty.run Nostr.Library.plain
    (⟨.setPublisherRegistered "p" 0, false⟩ :: ⟨.enqueuePurge (purgeOf "p" [] 0 10), false⟩ ::
      deletionDelivered)

theorem purge_final_delivered :
    ((Call.mk (.completePublisherUnregistration 2 (numberedToken 1) 0 "p")
      false).next Nostr.Library.plain purgedSession.db).publisherRegistered "p" = false := by
  have h := (purge_final Nostr.Library.plain [⟨.setPublisherRegistered "p" 0, false⟩]
    (purgeOf "p" [] 0 10) _ _ deletionDelivered rfl).2
  exact (h _ (List.mem_cons_of_mem _ List.mem_cons_self) rfl rfl 0 _ _ rfl [] trivial).1

end Bridge
