import Mytools.Bridge.NostrPlain
import Mytools.Bridge.Proof.Effect
import Mytools.Lib.Fifo

/-!
# The outbox is a set of first-in first-out queues

`OutboxTables.queue`: the items of an aggregate in sequence order. Every command of the outbox is
one operation on these queues (`effect`, `exec_queue`), so every sequence of calls of the store is
a run of the queues (`outbox_fifo`): nothing is lost, nothing is delivered twice, and within an
aggregate nothing overtakes.
-/

namespace Bridge

open Lib

/-- What an outbox row delivers. -/
structure QueueItem where
  operation : OutboxOperation
  pubKey : String
  payload : String
  deriving DecidableEq, Repr

def OutboxRow.item (r : OutboxRow) : QueueItem := ⟨r.operation, r.pubKey, r.payload⟩

def OutboxRequest.item (r : OutboxRequest) : QueueItem := ⟨r.operation, r.pubKey, r.payload⟩

/-! ## The invariant of the outbox -/

namespace OutboxTables

structure Inv (t : OutboxTables) : Prop where
  queue : t.QueueInv
  owned : ∀ r ∈ t.outbox.rows, r.pubKey = r.aggregateKey

variable {t t' : OutboxTables} {cmd : OutboxCmd} {k : String}

/-- The requests of an enqueue are for their own aggregates. -/
def Own : OutboxCmd → Prop
  | .enqueue rs => ∀ r ∈ rs, r.pubKey = r.aggregateKey
  | _ => True

theorem Inv.enqueue {r : OutboxRequest} (hi : Inv t) (hr : r.pubKey = r.aggregateKey)
    (h : t.enqueueOutbox r = .ok t') : Inv t' := by
  refine ⟨hi.queue.enqueue h, ?_⟩
  intro x hx
  rw [(enqueueOutbox_ok h).1, List.mem_append, List.mem_singleton] at hx
  rcases hx with hx | rfl
  · exact hi.owned x hx
  · exact hr

theorem Inv.enqueueAll : ∀ {rs : List OutboxRequest} {t : OutboxTables}, Inv t →
    (∀ r ∈ rs, r.pubKey = r.aggregateKey) → t.enqueueAll rs = .ok t' → Inv t'
  | [], _, hi, _, h => by
    cases h
    exact hi
  | r :: rs, t, hi, hr, h => by
    obtain ⟨t₁, h₁, h⟩ := enqueueAll_cons.1 h
    have hi₁ := hi.enqueue (hr r List.mem_cons_self) h₁
    exact Inv.enqueueAll hi₁ (fun x hx => hr x (List.mem_cons_of_mem _ hx)) h

theorem Inv.exec (hi : Inv t) (hown : Own cmd) (h : t.exec cmd = .ok t') :
    Inv t' := by
  cases cmd with
  | enqueue rs => exact hi.enqueueAll hown h
  | claim token claimedUntil now limit =>
    refine ⟨hi.queue.claim h, ?_⟩
    intro x hx
    rw [(claimOutbox_ok h).1, List.mem_map] at hx
    obtain ⟨y, hy, rfl⟩ := hx
    obtain ⟨token', until', he⟩ := claimRow_eq (t := t) token claimedUntil now limit y
    rw [he]
    exact hi.owned y hy
  | complete id token now =>
    refine ⟨hi.queue.complete h, ?_⟩
    intro x hx
    rw [(completeOutbox_ok h).2.1] at hx
    exact hi.owned x (List.mem_of_mem_filter hx)
  | retry id token now availableAt lastError =>
    refine ⟨hi.queue.retry h, ?_⟩
    intro x hx
    rw [(retryOutbox_ok h).2.1, List.mem_map] at hx
    obtain ⟨y, hy, rfl⟩ := hx
    have hy := hi.owned y hy
    unfold retryRow
    split
    · exact hy
    · exact hy
  | recover id token pubKey now =>
    obtain ⟨c, hc, ho, -, hk, h⟩ := recover_ok h
    refine ⟨hi.queue.recover hc ho.2.2.1 h, ?_⟩
    intro x hx
    rw [(recoverPublish_ok hi.queue.numbered hc h).1, List.mem_append, List.mem_map,
      List.mem_singleton] at hx
    rcases hx with ⟨y, hy, rfl⟩ | rfl
    · have hy' := hi.owned y hy
      unfold recoverRow
      split
      · rename_i hyc
        subst hyc
        exact hy'
      · split
        · exact hy'
        · exact hy'
    · exact hk.symm

end OutboxTables

theorem cmd_admitted {N : Nostr.Library} {db db' : DB} {op : StoreOp} {items : List OutboxItem}
    {rs : List OutboxRequest} (h : op.exec N db = .ok (db', items))
    (hc : op.cmd db = .enqueue rs) : ∀ r ∈ rs, Admitted db r := by
  have hr := requests_admitted h
  cases op <;> simp only [StoreOp.cmd, reduceCtorEq, OutboxCmd.enqueue.injEq] at hc
  case claimOutbox now lease limit rand =>
    have hnil : rs = [] := by
      cases rand with
      | none =>
        simp only [OutboxCmd.enqueue.injEq] at hc
        exact hc.symm
      | some bytes =>
        simp only at hc
        split at hc
        · cases hc
          rfl
        · cases hc
    rw [hnil]
    simp
  all_goals exact hc ▸ hr

theorem cmd_own {N : Nostr.Library} {db db' : DB} {op : StoreOp} {items : List OutboxItem}
    (h : op.exec N db = .ok (db', items)) : OutboxTables.Own (op.cmd db) := by
  cases hc : op.cmd db with
  | enqueue rs => exact fun r hr => (cmd_admitted h hc r hr).1
  | _ => trivial

theorem outboxInv_exec {N : Nostr.Library} {db db' : DB} {op : StoreOp} {items : List OutboxItem}
    (hi : db.out.Inv) (h : op.exec N db = .ok (db', items)) : db'.out.Inv :=
  hi.exec (cmd_own h) (exec_out h)

theorem outboxInv_run (N : Nostr.Library) (cs : List Call) : (DB.empty.run N cs).out.Inv :=
  DB.run_inv (fun _ _ _ _ hi h => outboxInv_exec hi h) cs
    ⟨OutboxTables.QueueInv.empty, fun _ hr => nomatch hr⟩

/-! ## Commands as operations on the queues -/

namespace OutboxTables

variable {t t' : OutboxTables} {cmd : OutboxCmd} {k : String}

def queue (t : OutboxTables) (k : String) : List QueueItem := (t.queueRows k).map OutboxRow.item

def rowWithID (t : OutboxTables) (id : Nat) : Option OutboxRow :=
  t.outbox.rows.find? (·.id = id)

/-- What a command does to the queues. A completion takes the head off the queue of the row with
its id; a recovery puts the registration ahead of the publish at the head. -/
def effect (t : OutboxTables) : OutboxCmd → QueueOp String QueueItem
  | .enqueue rs => .append (rs.map fun r => (r.aggregateKey, r.item))
  | .claim .. => .append []
  | .retry .. => .append []
  | .complete id _ _ =>
    match t.rowWithID id with
    | none => .append []
    | some r => .pop r.aggregateKey
  | .recover id _ _ _ =>
    match t.rowWithID id with
    | none => .append []
    | some r => .expand r.aggregateKey r.item [⟨.allowPublisher, r.pubKey, ""⟩, r.item]

theorem rowWithID_eq {r : OutboxRow} {id : Nat} (hr : r ∈ t.outbox.rows) (hid : r.id = id) :
    t.rowWithID id = some r := by
  cases hf : t.rowWithID id with
  | none =>
    have := List.find?_eq_none.1 hf r hr
    simp [hid] at this
  | some q =>
    have hq : q.id = id := by simpa using List.find?_some hf
    rw [Outbox.eq_of_id (List.mem_of_find?_eq_some hf) hr (hq.trans hid.symm)]

theorem apply_append_nil (q : String → List QueueItem) :
    (QueueOp.append [] : QueueOp String QueueItem).apply q = some q := by
  simp [QueueOp.apply, QueueOp.appended]

theorem queue_enqueueAll : ∀ {rs : List OutboxRequest} {t : OutboxTables}, Inv t →
    (∀ r ∈ rs, r.pubKey = r.aggregateKey) → t.enqueueAll rs = .ok t' →
    t'.queue k = t.queue k ++
      (QueueOp.append (rs.map fun r => (r.aggregateKey, r.item))).appended k
  | [], _, _, _, h => by
    cases h
    simp [QueueOp.appended]
  | r :: rs, t, hi, hr, h => by
    obtain ⟨t₁, h₁, h⟩ := enqueueAll_cons.1 h
    have hi₁ := hi.enqueue (hr r List.mem_cons_self) h₁
    rw [queue_enqueueAll hi₁ (fun x hx => hr x (List.mem_cons_of_mem _ hx)) h, queue,
      queueRows_enqueue hi.queue h₁, List.map_append, List.append_assoc]
    refine congrArg _ ?_
    simp only [QueueOp.appended, List.map_cons, List.filter_cons, decide_eq_true_eq]
    split
    · rfl
    · rfl

/-- A completion: the row with the id is the first of its queue, and only it goes. -/
theorem exec_complete {id : Nat} {token : String} {now : Int} (hi : Inv t)
    (h : t.exec (.complete id token now) = .ok t') :
    ∃ r rest, r.id = id ∧ t.queueRows r.aggregateKey = r :: rest ∧
      t'.queueRows r.aggregateKey = rest ∧
      ∀ k, k ≠ r.aggregateKey → t'.queueRows k = t.queueRows k := by
  obtain ⟨r, rest, -, ho, hq, hq', hk⟩ := queueRows_complete hi.queue h
  exact ⟨r, rest, ho.1, hq, hq', hk⟩

theorem exec_queue (hi : Inv t) (hown : Own cmd) (h : t.exec cmd = .ok t') :
    (t.effect cmd).apply t.queue = some t'.queue := by
  cases cmd with
  | enqueue rs =>
    simp only [effect, QueueOp.apply]
    refine congrArg some (funext fun k => ?_)
    exact (queue_enqueueAll hi hown h).symm
  | claim token claimedUntil now limit =>
    rw [effect, apply_append_nil]
    refine congrArg some (funext fun k => ?_)
    have hkeep := claimRow_eq (t := t) token claimedUntil now limit
    rw [queue, queue, queueRows_update (claimOutbox_ok h).1, List.map_map]
    · refine List.map_congr_left ?_
      intro r _
      obtain ⟨token', until', he⟩ := hkeep r
      show r.item = (claimRow t token claimedUntil now limit r).item
      rw [he]
      rfl
    · intro r
      obtain ⟨token', until', he⟩ := hkeep r
      rw [he]
      exact ⟨rfl, rfl⟩
  | retry id token now availableAt lastError =>
    rw [effect, apply_append_nil]
    refine congrArg some (funext fun k => ?_)
    rw [queue, queue, queueRows_update (retryOutbox_ok h).2.1, List.map_map]
    · refine List.map_congr_left ?_
      intro r _
      show r.item = (retryRow id token now availableAt lastError r).item
      unfold retryRow
      split <;> rfl
    · intro r
      unfold retryRow
      split <;> exact ⟨rfl, rfl⟩
  | complete id token now =>
    obtain ⟨r, rest, hr, ho, hq, hq', hk⟩ := queueRows_complete hi.queue h
    simp only [effect, rowWithID_eq hr ho.1, QueueOp.apply, queue, hq, List.map_cons]
    refine congrArg some (funext fun k => ?_)
    by_cases hkk : k = r.aggregateKey
    · subst hkk
      rw [Function.update_self, queue, hq']
    · rw [Function.update_of_ne hkk, queue, queue, hk k hkk]
  | recover id token pubKey now =>
    obtain ⟨c, hc, ho, hp, hk, h⟩ := recover_ok h
    obtain ⟨rest, hq, hq', hother⟩ := queueRows_recover hi.queue.numbered hc h
      (hi.queue.claimed c hc ho.2.2.1)
    have hpk : c.pubKey = pubKey := (hi.owned c hc).trans hk
    simp only [effect, rowWithID_eq hc ho.1, QueueOp.apply, queue, hq, List.map_cons, if_true]
    refine congrArg some (funext fun k => ?_)
    by_cases hkk : k = c.aggregateKey
    · subst hkk
      rw [Function.update_self, queue, hq']
      simp only [List.map_cons, List.map_map, List.cons_append, List.nil_append, OutboxRow.item,
        registrationRow, recoveredPublish, hpk, hp, Function.comp_def]
      rfl
    · rw [Function.update_of_ne hkk, queue, queue, hother k hkk]

end OutboxTables

/-! ## Runs -/

variable {N : Nostr.Library}

/-- What a call does to the queues: an error leaves them as they are, a success applies its
command's effect, and a completion removes the row with its id from the front of its queue. -/
def Refines (N : Nostr.Library) (db : DB) (c : Call) : Prop :=
  match c.result N db with
  | .error _ => (c.next N db).out.queue = db.out.queue
  | .ok _ =>
    (db.out.effect (c.op.cmd db)).apply db.out.queue = some (c.next N db).out.queue ∧
    ∀ id token now, c.op.cmd db = .complete id token now →
      ∃ r rest, r.id = id ∧ db.out.queueRows r.aggregateKey = r :: rest ∧
        (c.next N db).out.queueRows r.aggregateKey = rest

/-- The abstract queues along a sequence of calls, with all that was ever appended to them and
removed from them; `none` if an operation does not find the head that it needs. -/
def fifoRun (N : Nostr.Library) : DB → Ledger String QueueItem → List Call →
    Option (Ledger String QueueItem)
  | _, L, [] => some L
  | db, L, c :: cs => do
    let L ← match c.result N db with
      | .error _ => some L
      | .ok _ => L.apply (db.out.effect (c.op.cmd db))
    fifoRun N (c.next N db) L cs

/-- A registration is the only item that a recovery adds. -/
def lasting (i : QueueItem) : Bool := i.operation ≠ .allowPublisher

theorem effect_keeps {db : DB} {op : StoreOp} {db' : DB} {items : List OutboxItem}
    (h : op.exec N db = .ok (db', items)) : (db.out.effect (op.cmd db)).Keeps lasting := by
  have hout := exec_out h
  cases hc : op.cmd db with
  | enqueue rs => trivial
  | claim token claimedUntil now limit => trivial
  | retry id token now availableAt lastError => trivial
  | complete id token now =>
    simp only [OutboxTables.effect]
    split <;> trivial
  | recover id token pubKey now =>
    rw [hc] at hout
    obtain ⟨c, hm, ho, hp, -, -⟩ := OutboxTables.recover_ok hout
    simp only [OutboxTables.effect, OutboxTables.rowWithID_eq hm ho.1]
    refine ⟨?_, ?_⟩
    · exact (List.Sublist.refl _).cons _
    · simp [lasting]

/-- One call: the queues before and after it. -/
theorem refines_of_inv {db : DB} (hi : db.out.Inv) (c : Call) : Refines N db c := by
  unfold Refines
  cases h : c.result N db with
  | error e => rw [Call.next_of_error h]
  | ok x =>
    obtain ⟨db', items⟩ := x
    have hx := Call.exec_of_result h
    rw [Call.next_of_ok h]
    refine ⟨OutboxTables.exec_queue hi (cmd_own hx) (exec_out hx), ?_⟩
    intro id token now hc
    have hout := exec_out hx
    rw [hc] at hout
    obtain ⟨r, rest, hid, hq, hq', -⟩ := OutboxTables.exec_complete hi hout
    exact ⟨r, rest, hid, hq, hq'⟩

theorem fifoRun_of_inv : ∀ (cs : List Call) {db : DB} {L : Ledger String QueueItem},
    db.out.Inv → L.queues = db.out.queue → L.Conserved lasting →
    ∃ L', fifoRun N db L cs = some L' ∧ L'.queues = (db.run N cs).out.queue ∧
      L'.Conserved lasting
  | [], db, L, _, hq, hc => ⟨L, rfl, hq, hc⟩
  | c :: cs, db, L, hi, hq, hc => by
    have hi' : (c.next N db).out.Inv :=
      Call.next_inv (I := fun db => db.out.Inv)
        (fun _ _ _ h => outboxInv_exec hi h) hi
    have hr : Refines N db c := refines_of_inv hi c
    unfold Refines at hr
    cases h : c.result N db with
    | error e =>
      rw [h] at hr
      obtain ⟨L', hrun, hL⟩ := fifoRun_of_inv cs hi' (hq.trans hr.symm) hc
      exact ⟨L', by simp only [fifoRun, h]; exact hrun, hL⟩
    | ok x =>
      obtain ⟨db', items⟩ := x
      rw [h] at hr
      have hx := Call.exec_of_result h
      obtain ⟨L₁, hL₁, hq₁⟩ : ∃ L₁, L.apply (db.out.effect (c.op.cmd db)) = some L₁ ∧
          L₁.queues = (c.next N db).out.queue := by
        rw [Ledger.apply, hq, hr.1]
        exact ⟨_, rfl, rfl⟩
      have hc₁ := hc.apply (effect_keeps hx) hL₁
      obtain ⟨L', hrun, hL⟩ := fifoRun_of_inv cs hi' hq₁ hc₁
      exact ⟨L', by simp only [fifoRun, h, hL₁]; exact hrun, hL⟩

/-- Every call of every sequence of calls acts on the queues as `Refines` says, and over the whole
sequence what was delivered and what is still queued is what was enqueued, in order. -/
theorem outbox_fifo (N : Nostr.Library) (cs : List Call) :
    (∀ c, Refines N (DB.empty.run N cs) c) ∧
      ∃ L, fifoRun N DB.empty .empty cs = some L ∧
        L.queues = (DB.empty.run N cs).out.queue ∧ L.Conserved lasting :=
  ⟨fun c => refines_of_inv (outboxInv_run N cs) c,
    fifoRun_of_inv cs ⟨OutboxTables.QueueInv.empty, fun _ hr => nomatch hr⟩ rfl
      Ledger.conserved_empty⟩

/-! ## Calls with the plain library -/

/-- The token of the claim with this number. -/
def numberedToken (n : UInt8) : String := SQLiteStore.newClaimToken fun _ => n

def claimAt (now : Int) (n : UInt8) : Call := ⟨.claimOutbox now 1 1 (some fun _ => n), false⟩

/-- The note of a publisher with this content, as the post with this URI. -/
def notePost (pubKey uri content : String) : EventEnqueueRequest where
  mapping := ⟨⟨⟨"bluesky", "a"⟩, uri⟩, (Nostr.plainNote pubKey content).id, "post", pubKey, 0⟩
  event := ⟨pubKey, .publishEvent, pubKey, Nostr.plainText (Nostr.plainNote pubKey content), 0⟩
  limit := 10

/-- A batch of posts, with one target and a cursor. -/
def postBatch (events : List EventEnqueueRequest) (limit : Int) : ReconciliationBatchRequest where
  targetScope := ⟨"bluesky", "a"⟩
  targets := ["t"]
  eventScopes := [⟨"bluesky", "a"⟩]
  events := events
  cursorScope := ⟨"bluesky", "a"⟩
  cursor := some ⟨"c", "1"⟩
  limit := limit

/-- Two posts of a publisher that is not registered, with one of another between them. -/
def twoPosts : Call :=
  ⟨.reconcileBatch (postBatch [notePost "p" "u" "1", notePost "q" "v" "2", notePost "p" "w" "3"] 9),
    false⟩

theorem outbox_fifo_twoPosts :
    (twoPosts.next Nostr.Library.plain DB.empty).out.queue "p" =
      [⟨.allowPublisher, "p", ""⟩,
        ⟨.publishEvent, "p", Nostr.plainText (Nostr.plainNote "p" "1")⟩,
        ⟨.publishEvent, "p", Nostr.plainText (Nostr.plainNote "p" "3")⟩] := by
  have h := (outbox_fifo Nostr.Library.plain []).1 twoPosts
  have hok : twoPosts.result Nostr.Library.plain DB.empty = .ok _ := rfl
  rw [Refines, DB.run, List.foldl_nil, hok] at h
  rw [← Option.some.inj h.1]
  rfl

end Bridge
