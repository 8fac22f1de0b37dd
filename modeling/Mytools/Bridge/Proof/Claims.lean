import Mytools.Bridge.Proof.Fifo

/-!
# Claims

A row keeps its id, its aggregate and its publisher as long as it exists, and it gets a claim token
only from a claim (`Descends`, `exec_rows`). So a token that a later claim has replaced never comes
back, and whoever holds it gets `ErrClaimLost` (`claim_exclusive`).
-/

namespace Bridge

open Lib

/-! ## Rows over time -/

/-- What a command may make of a row. -/
structure Descends (cmd : OutboxCmd) (r r' : OutboxRow) : Prop where
  id : r'.id = r.id
  aggregateKey : r'.aggregateKey = r.aggregateKey
  pubKey : r'.pubKey = r.pubKey
  operation : r'.operation = r.operation ∨
    r.operation = .publishEvent ∧ r'.operation = .allowPublisher
  claimToken : (r'.claimToken = r.claimToken ∧ r'.claimedUntil = r.claimedUntil) ∨
    r'.claimToken = "" ∨
    ∃ claimedUntil now limit, cmd = .claim r'.claimToken claimedUntil now limit
  /-- A row with another operation is claimed anew before anything is done with it. -/
  released : r'.operation = r.operation ∨ r'.claimToken = ""

theorem Descends.refl (cmd : OutboxCmd) (r : OutboxRow) : Descends cmd r r :=
  ⟨rfl, rfl, rfl, .inl rfl, .inl ⟨rfl, rfl⟩, .inl rfl⟩

namespace OutboxTables

variable {t t' : OutboxTables} {cmd : OutboxCmd}

theorem enqueueAll_rows : ∀ {rs : List OutboxRequest} {t : OutboxTables},
    t.enqueueAll rs = .ok t' → t.outbox.nextID ≤ t'.outbox.nextID ∧
      ∀ r' ∈ t'.outbox.rows, t.outbox.nextID ≤ r'.id ∨ r' ∈ t.outbox.rows
  | [], t, h => by
    cases h
    exact ⟨le_refl _, fun r' hr' => .inr hr'⟩
  | r :: rs, t, h => by
    obtain ⟨t₁, h₁, h⟩ := enqueueAll_cons.1 h
    obtain ⟨hrows, hid, -⟩ := enqueueOutbox_ok h₁
    obtain ⟨hle, hr⟩ := enqueueAll_rows h
    refine ⟨by omega, ?_⟩
    intro r' hr'
    rcases hr r' hr' with hr' | hr'
    · exact .inl (by omega)
    · rw [hrows, List.mem_append, List.mem_singleton] at hr'
      rcases hr' with hr' | rfl
      · exact .inr hr'
      · exact .inl (le_refl _)

/-- A row after a command is new or comes from a row before it. -/
theorem exec_rows (hi : t.QueueInv) (h : t.exec cmd = .ok t') :
    t.outbox.nextID ≤ t'.outbox.nextID ∧
      ∀ r' ∈ t'.outbox.rows, t.outbox.nextID ≤ r'.id ∨ ∃ r ∈ t.outbox.rows, Descends cmd r r' := by
  cases cmd with
  | enqueue rs =>
    obtain ⟨hle, hr⟩ := enqueueAll_rows h
    refine ⟨hle, ?_⟩
    intro r' hr'
    exact (hr r' hr').imp_right fun hm => ⟨r', hm, .refl _ _⟩
  | claim token claimedUntil now limit =>
    obtain ⟨hrows, hid, -⟩ := claimOutbox_ok h
    refine ⟨hid.ge, ?_⟩
    intro r' hr'
    rw [hrows, List.mem_map] at hr'
    obtain ⟨r, hr, rfl⟩ := hr'
    refine .inr ⟨r, hr, ?_⟩
    unfold claimRow
    split
    · exact ⟨rfl, rfl, rfl, .inl rfl, .inr (.inr ⟨_, _, _, rfl⟩), .inl rfl⟩
    · exact .refl _ _
  | complete id token now =>
    obtain ⟨-, hrows, hid, -⟩ := completeOutbox_ok h
    refine ⟨hid.ge, ?_⟩
    intro r' hr'
    rw [hrows] at hr'
    exact .inr ⟨r', List.mem_of_mem_filter hr', .refl _ _⟩
  | retry id token now availableAt lastError =>
    obtain ⟨-, hrows, hid, -⟩ := retryOutbox_ok h
    refine ⟨hid.ge, ?_⟩
    intro r' hr'
    rw [hrows, List.mem_map] at hr'
    obtain ⟨r, hr, rfl⟩ := hr'
    refine .inr ⟨r, hr, ?_⟩
    unfold retryRow
    split
    · exact ⟨rfl, rfl, rfl, .inl rfl, .inr (.inl rfl), .inl rfl⟩
    · exact .refl _ _
  | recover id token pubKey now =>
    obtain ⟨c, hc, -, hp, -, h⟩ := recover_ok h
    obtain ⟨hrows, hid, -⟩ := recoverPublish_ok hi.numbered hc h
    refine ⟨by omega, ?_⟩
    intro r' hr'
    rw [hrows, List.mem_append, List.mem_map, List.mem_singleton] at hr'
    rcases hr' with ⟨r, hr, rfl⟩ | rfl
    swap
    · exact .inl (le_refl _)
    refine .inr ⟨r, hr, ?_⟩
    unfold recoverRow
    split
    · rename_i hrc
      subst hrc
      exact ⟨rfl, rfl, rfl, .inr ⟨hp, rfl⟩, .inr (.inl rfl), .inr rfl⟩
    · split
      · exact ⟨rfl, rfl, rfl, .inl rfl, .inl ⟨rfl, rfl⟩, .inl rfl⟩
      · exact .refl _ _

end OutboxTables

/-! ## Operations under a claim -/

/-- The row, the token and the time that an operation passes for its claim. -/
def StoreOp.underClaim : StoreOp → Option (Nat × String × Int)
  | completeOutbox id token now => some (id, token, now)
  | completePublisherRegistration id token _ now => some (id, token, now)
  | completePublisherUnregistration id token now _ => some (id, token, now)
  | recoverPublisherRegistration id token _ now => some (id, token, now)
  | retryOutbox id token now _ _ => some (id, token, now)
  | _ => none

variable {N : Nostr.Library} {db : DB}

/-- An operation whose claim no row is held by. -/
theorem claimLost {op : StoreOp} {id : Nat} {token : String} {now : Int}
    (hop : op.underClaim = some (id, token, now))
    (hno : ∀ r ∈ db.out.outbox.rows, ¬ OutboxTables.OwnedBy r id token now) :
    op.exec N db = .error .claimLost := by
  have hcomplete : db.out.completeOutbox id token now = .error .claimLost := by
    rw [OutboxTables.completeOutbox, if_neg (by simpa using hno)]
  have hnone : db.out.claimedPublishEvent id token now = none := by
    refine List.find?_eq_none.2 ?_
    intro r hr
    have := hno r hr
    simp [this]
  cases op <;> simp only [StoreOp.underClaim, Option.some.injEq, Prod.mk.injEq, reduceCtorEq] at hop
  case retryOutbox =>
    obtain ⟨rfl, rfl, rfl⟩ := hop
    simp only [StoreOp.exec, SQLiteStore.retryOutbox, OutboxTables.retryOutbox]
    rw [if_neg (by simpa using hno)]
    rfl
  case recoverPublisherRegistration =>
    obtain ⟨rfl, rfl, rfl⟩ := hop
    simp only [StoreOp.exec, SQLiteStore.recoverPublisherRegistration]
    rw [hnone]
    rfl
  all_goals
    obtain ⟨rfl, rfl, rfl⟩ := hop
    simp only [StoreOp.exec, SQLiteStore.completePublisherRegistration,
      SQLiteStore.completePublisherUnregistration, SQLiteStore.completeOutbox, hcomplete]
    rfl

/-! ## Tokens that were replaced -/

/-- The token that a claim draws. -/
def StoreOp.drawnToken : StoreOp → Option String
  | claimOutbox _ lease limit (some bytes) =>
    if 0 < lease ∧ 0 < limit then some (SQLiteStore.newClaimToken bytes) else none
  | _ => none

def Call.drawnToken (c : Call) : Option String := c.op.drawnToken

theorem newClaimToken_ne_empty (bytes : Fin 16 → UInt8) : SQLiteStore.newClaimToken bytes ≠ "" := by
  intro h
  have hl := congrArg String.toList h
  simp [SQLiteStore.newClaimToken, SQLiteStore.hexEncode, List.ofFn_succ] at hl

theorem drawnToken_ne_empty {op : StoreOp} {token : String} (h : op.drawnToken = some token) :
    token ≠ "" := by
  unfold StoreOp.drawnToken at h
  split at h
  · split at h
    · cases h
      exact newClaimToken_ne_empty _
    · cases h
  · cases h

/-- A claim that succeeds and draws a token returns the claimable rows under this token. -/
theorem claimOutbox_items {db' : DB} {op : StoreOp} {items : List OutboxItem} {i : OutboxItem}
    (h : op.exec N db = .ok (db', items)) (hi : i ∈ items) :
    ∃ token claimedUntil now limit, op.drawnToken = some token ∧
      op.cmd db = .claim token claimedUntil now limit ∧ i.claimToken = token ∧
      ∃ r ∈ db.out.claimable now limit, i.id = r.id ∧ i.pubKey = r.pubKey ∧
        i.operation = r.operation := by
  cases op <;> simp only [StoreOp.exec, map_ok_iff, Prod.mk.injEq] at h
  case claimOutbox now lease limit rand =>
    obtain ⟨hl, ⟨-, -, rfl⟩ | ⟨bytes, out, hlim, rfl, -, -, rfl⟩⟩ := SQLiteStore.claimOutbox_ok h
    · cases hi
    obtain ⟨r, hr, rfl⟩ := List.mem_map.1 hi
    refine ⟨SQLiteStore.newClaimToken bytes, now + lease, now, limit.toNat, ?_, ?_, rfl, r, hr,
      rfl, rfl, rfl⟩
    · rw [StoreOp.drawnToken, if_pos ⟨hl, by omega⟩]
    · simp only [StoreOp.cmd, if_neg hlim]
  all_goals
    obtain ⟨_, -, -, rfl⟩ := h
    cases hi

theorem drawnToken_of_cmd {db' : DB} {op : StoreOp} {items : List OutboxItem} {token : String}
    {claimedUntil now : Int} {limit : Nat} (h : op.exec N db = .ok (db', items))
    (hc : op.cmd db = .claim token claimedUntil now limit) : op.drawnToken = some token := by
  cases op <;> simp only [StoreOp.cmd, reduceCtorEq] at hc
  case claimOutbox now lease limit rand =>
    obtain ⟨hl, -⟩ := check_ok_iff.1 h
    rw [require_eq_ok] at hl
    cases rand with
    | none => simp only [reduceCtorEq] at hc
    | some bytes =>
      simp only at hc
      split at hc
      · cases hc
      · cases hc
        rw [StoreOp.drawnToken, if_pos ⟨hl, by omega⟩]

theorem lease_of_cmd {t lease limit u now : Int} {rand : Option (Fin 16 → UInt8)} {token : String}
    {n : Nat} (h : (StoreOp.claimOutbox t lease limit rand).cmd db = .claim token u now n) :
    t + lease = u := by
  cases rand with
  | none => simp only [StoreOp.cmd, reduceCtorEq] at h
  | some bytes =>
    simp only [StoreOp.cmd] at h
    split at h
    · cases h
    · cases h
      rfl

/-- A row with this id has the token only under this lease, now and later, unless a claim draws the
token again. -/
def Leased (id : Nat) (token : String) (lease : Option Int) (t : OutboxTables) : Prop :=
  id < t.outbox.nextID ∧
    ∀ r ∈ t.outbox.rows, r.id = id → r.claimToken = token → lease = some r.claimedUntil

variable {id : Nat} {token : String} {lease : Option Int}

theorem Leased.exec {db' : DB} {op : StoreOp} {items : List OutboxItem} (hi : db.out.Inv)
    (hg : Leased id token lease db.out) (ht : token ≠ "") (hd : op.drawnToken ≠ some token)
    (h : op.exec N db = .ok (db', items)) : Leased id token lease db'.out := by
  obtain ⟨hle, hrows⟩ := OutboxTables.exec_rows hi.queue (exec_out h)
  refine ⟨Nat.lt_of_lt_of_le hg.1 hle, ?_⟩
  intro r' hr' hid htok
  rcases hrows r' hr' with hnew | ⟨r, hr, hde⟩
  · have := hg.1
    omega
  · rcases hde.claimToken with ⟨hsame, huntil⟩ | hempty | ⟨u, now, limit, hc⟩
    · rw [huntil]
      exact hg.2 r hr (hde.id.symm.trans hid) (hsame.symm.trans htok)
    · exact absurd (htok.symm.trans hempty) ht
    · exact absurd (by rw [drawnToken_of_cmd h hc, htok]) hd

theorem Leased.run (ht : token ≠ "") :
    ∀ (cs : List Call) {db : DB}, db.out.Inv → Leased id token lease db.out →
      (∀ c ∈ cs, c.op.drawnToken ≠ some token) → Leased id token lease (db.run N cs).out
  | [], _, _, hg, _ => hg
  | c :: cs, db, hi, hg, hd => by
    have hstep : (c.next N db).out.Inv ∧ Leased id token lease (c.next N db).out := by
      cases h : c.result N db with
      | error e =>
        rw [Call.next_of_error h]
        exact ⟨hi, hg⟩
      | ok x =>
        obtain ⟨db', items⟩ := x
        have hx := Call.exec_of_result h
        rw [Call.next_of_ok h]
        exact ⟨outboxInv_exec hi hx, hg.exec hi ht (hd c List.mem_cons_self) hx⟩
    exact Leased.run ht cs hstep.1 hstep.2 fun x hx => hd x (List.mem_cons_of_mem _ hx)

/-- A claim puts its own token and lease on the rows that it returns. -/
theorem leased_of_claim {c : Call} {j : OutboxItem} (hj : j ∈ c.items N db)
    (hc : ∀ u now limit, c.op.cmd db = .claim token u now limit → lease = some (unixNano u)) :
    Leased j.id token lease (c.next N db).out := by
  obtain ⟨db', items, hx, hj, hnext⟩ := Call.exec_of_items hj
  rw [hnext]
  obtain ⟨token', u, now, limit, -, hcmd, -, r, hr, hid, -⟩ := claimOutbox_items hx hj
  have hout := exec_out hx
  rw [hcmd] at hout
  obtain ⟨hrows, hsame, -⟩ := OutboxTables.claimOutbox_ok hout
  obtain ⟨hm, hun, -⟩ := OutboxTables.mem_claimable hr
  refine ⟨?_, ?_⟩
  · rw [hsame, hid]
    exact db.out.outbox.valid.fresh r hm
  · intro q' hq' hqid
    rw [hrows, List.mem_map] at hq'
    obtain ⟨q, hq, rfl⟩ := hq'
    obtain ⟨tok, til, he⟩ := OutboxTables.claimRow_eq (t := db.out) token' u now limit q
    have hqr : q = r := by
      refine Outbox.eq_of_id hq hm ?_
      rw [he] at hqid
      exact hqid.trans hid
    have hmem : q.id ∈ (db.out.claimable now limit).map (·.id) :=
      List.mem_map.2 ⟨r, hr, by rw [hqr]⟩
    rw [OutboxTables.claimRow, if_pos ⟨hmem, hqr ▸ hun⟩]
    rintro rfl
    exact hc u now limit hcmd

/-- What a claim has drawn is not drawn again after it. -/
theorem drawn_once {before rest : List Call} {c : Call}
    (hd : ((before ++ c :: rest).filterMap Call.drawnToken).Nodup) (h : c.drawnToken = some token) :
    ∀ x ∈ rest, x.drawnToken ≠ some token := by
  rw [List.filterMap_append, List.nodup_append, List.filterMap_cons_some h, List.nodup_cons] at hd
  intro x hx hxt
  exact hd.2.1.1 (List.mem_filterMap.2 ⟨x, hx, hxt⟩)

/-- The lease of a claimed row after a later claim of it, and after any calls. -/
theorem leased_run (token : String) (lease : Option Int) {before : List Call} (after : List Call)
    {c : Call} {j : OutboxItem}
    (hj : j ∈ c.items N (DB.empty.run N before))
    (hc : ∀ u now limit, c.op.cmd (DB.empty.run N before) = .claim token u now limit →
      lease = some (unixNano u))
    (ht : token ≠ "") (hlater : ∀ x ∈ after, x.drawnToken ≠ some token) :
    Leased j.id token lease (DB.empty.run N (before ++ c :: after)).out := by
  have hi : (c.next N (DB.empty.run N before)).out.Inv := by
    have := outboxInv_run N (before ++ [c])
    rwa [DB.run_append] at this
  rw [DB.run_append]
  exact (leased_of_claim hj hc).run ht after hi hlater

/-! ## Exclusivity -/

/-- The times whose `UnixNano` is defined. -/
def InClock (t : Int) : Prop := -2 ^ 63 ≤ t ∧ t < 2 ^ 63

theorem unixNano_eq {t : Int} (h : InClock t) : unixNano t = t := by
  obtain ⟨hlo, hhi⟩ := h
  exact Int.bmod_eq_of_le (by omega) (by omega)

/-- An operation whose token is not on its row, or whose lease is over, changes nothing. -/
theorem refused_of_lost {op : StoreOp} {id : Nat} {token : String} {now : Int}
    (hop : op.underClaim = some (id, token, now))
    (hrow : ∀ r ∈ db.out.outbox.rows, r.id = id →
      r.claimToken ≠ token ∨ r.claimedUntil ≤ unixNano now) :
    op.exec N db = .error .claimLost ∧ ∀ fault, (Call.mk op fault).next N db = db := by
  have hx : op.exec N db = .error .claimLost := by
    refine claimLost hop ?_
    intro r hr ho
    rcases hrow r hr ho.1 with hne | hle
    · exact hne ho.2.1
    · have := ho.2.2.2
      omega
  refine ⟨hx, ?_⟩
  intro fault
  cases fault with
  | false => exact Call.next_of_error hx
  | true => rfl

/-- Once a later claim has returned the row of a claim, the row never has its token again. -/
theorem token_replaced {before between after : List Call} {c c' : Call} {i j : OutboxItem}
    (hd : ((before ++ c :: (between ++ c' :: after)).filterMap Call.drawnToken).Nodup)
    (hic : i ∈ c.items N (DB.empty.run N before))
    (hjc : j ∈ c'.items N (DB.empty.run N (before ++ c :: between))) (hji : j.id = i.id) :
    ∀ r ∈ (DB.empty.run N (before ++ c :: (between ++ c' :: after))).out.outbox.rows,
      r.id = i.id → r.claimToken ≠ i.claimToken := by
  obtain ⟨_, _, hx, hic, -⟩ := Call.exec_of_items hic
  obtain ⟨token, -, -, -, hdraw, -, htok, -⟩ := claimOutbox_items hx hic
  have hlater := drawn_once hd hdraw
  have hgone := leased_run token none after hjc
    (fun u now limit hc => absurd (by
      obtain ⟨_, _, hx', -, -⟩ := Call.exec_of_items hjc
      exact drawnToken_of_cmd hx' hc) (hlater c' (by simp)))
    (drawnToken_ne_empty hdraw) fun x hx => hlater x (by simp [hx])
  rw [List.append_assoc, List.cons_append] at hgone
  intro r hr hid
  rw [htok]
  exact fun h => nomatch hgone.2 r hr (hid.trans hji.symm) h

/-- A row that still has the token of a claim has its lease. -/
theorem lease_kept {before after : List Call} {c : Call} {i : OutboxItem} {t lease limit : Int}
    {rand : Option (Fin 16 → UInt8)}
    (hd : ((before ++ c :: after).filterMap Call.drawnToken).Nodup)
    (hop : c.op = .claimOutbox t lease limit rand) (hic : i ∈ c.items N (DB.empty.run N before))
    (hend : InClock (t + lease)) :
    ∀ r ∈ (DB.empty.run N (before ++ c :: after)).out.outbox.rows, r.id = i.id →
      r.claimToken = i.claimToken → r.claimedUntil = t + lease := by
  obtain ⟨_, _, hx, hi, -⟩ := Call.exec_of_items hic
  obtain ⟨token, -, -, -, hdraw, -, htok, -⟩ := claimOutbox_items hx hi
  have hleased := leased_run token (some (t + lease)) after hic
    (fun u _ _ hc => by rw [← unixNano_eq hend, lease_of_cmd (hop ▸ hc)])
    (drawnToken_ne_empty hdraw) (drawn_once hd hdraw)
  intro r hr hid h
  rw [htok] at h
  exact (Option.some.inj (hleased.2 r hr hid h)).symm

/-- After every sequence of calls, if no claim drew the same token twice: only the head of an
aggregate is claimed; an operation whose token is not on its row, or whose lease is over, loses
its claim and changes nothing; so does every operation under a claim `i` of a row that a later claim
has returned again as `j`; and so does every operation from the time on at which its lease ends, if
the clock is in the range of `UnixNano`. -/
theorem claim_exclusive (N : Nostr.Library) (cs : List Call)
    (hd : (cs.filterMap Call.drawnToken).Nodup) :
    (∀ r ∈ (DB.empty.run N cs).out.outbox.rows, r.claimToken ≠ "" →
      ∀ prior ∈ (DB.empty.run N cs).out.outbox.rows, prior.aggregateKey = r.aggregateKey →
        r.sequence ≤ prior.sequence) ∧
    (∀ (op : StoreOp) id token now, op.underClaim = some (id, token, now) →
      (∀ r ∈ (DB.empty.run N cs).out.outbox.rows, r.id = id →
        r.claimToken ≠ token ∨ r.claimedUntil ≤ unixNano now) →
      op.exec N (DB.empty.run N cs) = .error .claimLost ∧
        ∀ fault, (Call.mk op fault).next N (DB.empty.run N cs) = DB.empty.run N cs) ∧
    (∀ before c between c' after, cs = before ++ c :: (between ++ c' :: after) →
      ∀ i ∈ c.items N (DB.empty.run N before),
      ∀ j ∈ c'.items N (DB.empty.run N (before ++ c :: between)), j.id = i.id →
      ∀ (op : StoreOp) now, op.underClaim = some (i.id, i.claimToken, now) →
        op.exec N (DB.empty.run N cs) = .error .claimLost ∧
        ∀ fault, (Call.mk op fault).next N (DB.empty.run N cs) = DB.empty.run N cs) ∧
    (∀ before c after, cs = before ++ c :: after →
      ∀ t lease limit rand, c.op = .claimOutbox t lease limit rand →
      ∀ i ∈ c.items N (DB.empty.run N before),
      ∀ (op : StoreOp) now, op.underClaim = some (i.id, i.claimToken, now) →
        InClock (t + lease) → InClock now → t + lease ≤ now →
        op.exec N (DB.empty.run N cs) = .error .claimLost ∧
        ∀ fault, (Call.mk op fault).next N (DB.empty.run N cs) = DB.empty.run N cs) := by
  refine ⟨?_, fun op id token now => refused_of_lost, ?_, ?_⟩
  · intro r hr hne prior hp hk
    have := (outboxInv_run N cs).queue.claimed r hr hne prior hp hk
    omega
  · rintro before c between c' after rfl i hic j hjc hji op now hop
    refine refused_of_lost hop ?_
    exact fun r hr hid => .inl (token_replaced hd hic hjc hji r hr hid)
  · rintro before c after rfl t lease limit rand hop i hic op now hunder hend hnow hle
    refine refused_of_lost hunder ?_
    intro r hr hid
    rw [or_iff_not_imp_left, not_not, unixNano_eq hnow]
    intro h
    rw [lease_kept hd hop hic hend r hr hid h]
    exact hle

/-- A registration is claimed at time 0 for one nanosecond, and again at time 5. -/
def reclaimed : List Call :=
  [⟨.enqueueOutbox ⟨"p", .allowPublisher, "p", "", 0⟩, false⟩, claimAt 0 0, claimAt 5 1]

theorem claim_exclusive_reclaimed :
    (reclaimed.filterMap Call.drawnToken).Nodup ∧
      (StoreOp.completeOutbox 1 (numberedToken 0) 0).exec Nostr.Library.plain
        (DB.empty.run Nostr.Library.plain reclaimed) = .error .claimLost := by
  refine ⟨by decide, ?_⟩
  have h := (claim_exclusive Nostr.Library.plain reclaimed (by decide)).2.2.1 [_] _ [] _ [] rfl
    _ List.mem_cons_self _ List.mem_cons_self rfl
  exact (h _ 0 rfl).1

end Bridge
