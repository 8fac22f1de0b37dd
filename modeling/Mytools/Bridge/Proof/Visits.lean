import Mytools.Bridge.Proof.Fifo
import Mytools.Bridge.Visits

/-!
# The recovery of a registration, in every order of visits

No update of `RecoverPublisherRegistration` makes a number that another row of the aggregate has or
will have: the negated numbers are below every positive one, and the shifted ones above the claimed
row's successor (`negate_apart`, `shift_apart`). So each update succeeds after every single row,
whatever the order, and the insertion finds its number free.
-/

namespace Bridge

open Lib

namespace Outbox

variable {o : Outbox} {f : OutboxRow → OutboxRow}

/-- An update that keeps the aggregates is `Apart` if it is within each of them. -/
theorem apart (hk : ∀ r, (f r).aggregateKey = r.aggregateKey)
    (h : ∀ r ∈ o.rows, ∀ q ∈ o.rows, r.aggregateKey = q.aggregateKey → r.sequence ≠ q.sequence →
      (f r).sequence ≠ (f q).sequence ∧ (f r).sequence ≠ q.sequence) :
    Update.Apart OutboxRow.id OutboxRow.key f o.rows := by
  have hkey : ∀ r ∈ o.rows, ∀ q ∈ o.rows, r.id ≠ q.id → r.key ≠ q.key :=
    fun r hr q hq hne he => hne (by rw [eq_of_key hr hq he])
  have hseq : ∀ r ∈ o.rows, ∀ q ∈ o.rows, r.id ≠ q.id → r.aggregateKey = q.aggregateKey →
      r.sequence ≠ q.sequence :=
    fun r hr q hq hne ha hs => hkey r hr q hq hne (Prod.ext ha hs)
  refine ⟨hkey, fun r hr q hq hne he => ?_, fun r hr q hq hne he => ?_⟩
  · have ha : r.aggregateKey = q.aggregateKey := by
      rw [← hk r, ← hk q]
      exact congrArg Prod.fst he
    exact (h r hr q hq ha (hseq r hr q hq hne ha)).1 (congrArg Prod.snd he)
  · have ha : r.aggregateKey = q.aggregateKey := by
      rw [← hk r]
      exact congrArg Prod.fst he
    exact (h r hr q hq ha (hseq r hr q hq hne ha)).2 (congrArg Prod.snd he)

theorem ofRows_of_valid {rows : List OutboxRow} {n : Nat} (h : OutboxValid rows n) :
    ofRows rows n = .ok ⟨rows, n, h⟩ := dif_pos h

/-- An update whose rows stay apart has one result for all plans. -/
theorem updateIn_of_apart (ha : Update.Apart OutboxRow.id OutboxRow.key f o.rows)
    (hid : ∀ r, (f r).id = r.id) (hop : ∀ r ∈ o.rows, (f r).operation.Known) :
    ∃ o', o'.rows = o.rows.map f ∧ o'.nextID = o.nextID ∧ ∀ p : Plan f, o.updateIn p = .ok o' := by
  have hv : OutboxValid (o.rows.map f) o.nextID := by
    constructor
    · apply List.pairwise_map.2
      simpa [hid] using o.valid.ids
    · simpa [hid] using o.valid.fresh
    · rw [List.map_map]
      apply List.pairwise_map.2
      exact (List.pairwise_map.1 o.nodup_ids).imp_of_mem fun hr hq hne => ha.new _ hr _ hq hne
    · simpa using hop
  refine ⟨⟨_, _, hv⟩, rfl, rfl, fun p => ?_⟩
  have hrun := Update.run_of_apart ha o.nodup_ids hid (p.once o.rows) (p.complete o.rows)
  rw [updateIn, hrun]
  exact ofRows_of_valid hv

/-! ## The order of the ids -/

/-- One visit of a row that stands between others with other ids. -/
theorem visit_middle {done todo : List OutboxRow} {r : OutboxRow}
    (hn : ((done ++ r :: todo).map OutboxRow.id).Nodup) :
    Update.visit OutboxRow.id f r.id (done ++ r :: todo) = done ++ f r :: todo := by
  have hkeep : ∀ l : List OutboxRow, (∀ q ∈ l, q.id ≠ r.id) →
      l.map (fun q => if q.id = r.id then f q else q) = l := by
    intro l hl
    refine (List.map_congr_left ?_).trans (List.map_id l)
    intro q hq
    exact if_neg (hl q hq)
  rw [List.map_append, List.map_cons, List.nodup_middle, List.nodup_cons, List.mem_append,
    not_or] at hn
  have hd : ∀ q ∈ done, q.id ≠ r.id := fun q hq he => hn.1.1 (he ▸ List.mem_map_of_mem hq)
  have ht : ∀ q ∈ todo, q.id ≠ r.id := fun q hq he => hn.1.2 (he ▸ List.mem_map_of_mem hq)
  rw [Update.visit, List.map_append, List.map_cons, hkeep done hd, hkeep todo ht, if_pos rfl]

/-- `updateRows` looks at the new key alone; the other keys are known to be distinct. -/
theorem updateRows_eq_run (hid : ∀ r, (f r).id = r.id) :
    ∀ (todo done : List OutboxRow), ((done ++ todo).map OutboxRow.id).Nodup →
      ((done ++ todo).map OutboxRow.key).Nodup →
      updateRows f done todo =
        Update.run OutboxRow.id OutboxRow.key f (todo.map OutboxRow.id) (done ++ todo)
  | [], done, _, _ => by simp [updateRows, Update.run]
  | r :: todo, done, hn, hk => by
    have hiff : ((done ++ f r :: todo).map OutboxRow.key).Nodup ↔
        (f r).key ∉ (done ++ todo).map OutboxRow.key := by
      rw [List.map_append, List.map_cons, List.nodup_middle, List.nodup_cons] at hk ⊢
      rw [List.map_append]
      exact and_iff_left hk.2
    rw [updateRows, List.map_cons, Update.run, visit_middle hn]
    by_cases hmem : (f r).key ∈ (done ++ todo).map OutboxRow.key
    · rw [if_pos hmem, if_neg (fun h => hiff.1 h hmem)]
    · have happ : done ++ f r :: todo = (done ++ [f r]) ++ todo := by simp
      have hk' := hiff.2 hmem
      rw [if_neg hmem, if_pos hk']
      rw [happ] at hk' ⊢
      apply updateRows_eq_run hid todo (done ++ [f r]) _ hk'
      simpa [hid] using hn

/-- `update` is the update in the order of the ids. -/
theorem update_eq_updateIn (o : Outbox) (hid : ∀ r, (f r).id = r.id) :
    o.update f = o.updateIn (Plan.byID f) := by
  have hrun := updateRows_eq_run hid o.rows [] o.nodup_ids o.valid.unique
  have hord : (Plan.byID f).order o.rows = o.rows.map OutboxRow.id :=
    List.Nodup.dedup o.nodup_ids
  rw [update, updateIn, hord, hrun]
  rfl

end Outbox

namespace OutboxTables

variable {t : OutboxTables} {o : Outbox} {c : OutboxRow} {k : String} {now : Int}

/-! ## The three updates -/

theorem reset_id (now : Int) (id : Nat) (r : OutboxRow) :
    (resetRejectedPublishAsRegistration now id r).id = r.id := by
  unfold resetRejectedPublishAsRegistration
  split <;> rfl

theorem negate_id (k : String) (sequence : Int) (r : OutboxRow) :
    (negateLaterOutboxSequences k sequence r).id = r.id := by
  unfold negateLaterOutboxSequences
  split <;> rfl

theorem shift_id (k : String) (r : OutboxRow) : (shiftNegatedOutboxSequences k r).id = r.id := by
  unfold shiftNegatedOutboxSequences
  split <;> rfl

/-- The reset touches no number. -/
theorem reset_apart (o : Outbox) (now : Int) (id : Nat) :
    Update.Apart OutboxRow.id OutboxRow.key (resetRejectedPublishAsRegistration now id) o.rows := by
  have hsame : ∀ r, (resetRejectedPublishAsRegistration now id r).aggregateKey = r.aggregateKey ∧
      (resetRejectedPublishAsRegistration now id r).sequence = r.sequence := by
    intro r
    unfold resetRejectedPublishAsRegistration
    split <;> simp
  apply Outbox.apart (fun r => (hsame r).1)
  intro r _ q _ _ hs
  rw [(hsame r).2, (hsame q).2]
  exact ⟨hs, hs⟩

theorem negate_sequence (k : String) (sequence : Int) (r : OutboxRow) :
    (negateLaterOutboxSequences k sequence r).sequence =
      if r.aggregateKey = k ∧ r.sequence > sequence then -r.sequence else r.sequence := by
  unfold negateLaterOutboxSequences
  split <;> rfl

theorem negate_aggregateKey (k : String) (sequence : Int) (r : OutboxRow) :
    (negateLaterOutboxSequences k sequence r).aggregateKey = r.aggregateKey := by
  unfold negateLaterOutboxSequences
  split <;> rfl

theorem shift_sequence (k : String) (r : OutboxRow) :
    (shiftNegatedOutboxSequences k r).sequence =
      if r.aggregateKey = k ∧ r.sequence < 0 then -r.sequence + 1 else r.sequence := by
  unfold shiftNegatedOutboxSequences
  split <;> rfl

theorem shift_aggregateKey (k : String) (r : OutboxRow) :
    (shiftNegatedOutboxSequences k r).aggregateKey = r.aggregateKey := by
  unfold shiftNegatedOutboxSequences
  split <;> rfl

/-- A negated number lies below those that are not negated. -/
theorem negate_apart (hp : ∀ r ∈ o.rows, 1 ≤ r.sequence) (k : String) (sequence : Int) :
    Update.Apart OutboxRow.id OutboxRow.key (negateLaterOutboxSequences k sequence) o.rows := by
  apply Outbox.apart (negate_aggregateKey k sequence)
  intro r hr q hq ha hs
  have hr := hp r hr
  have hq := hp q hq
  rw [negate_sequence, negate_sequence]
  split <;> split <;> omega

/-- What the negation leaves in the aggregate: numbers up to the claimed row's, and negated ones. -/
def Parted (rows : List OutboxRow) (k : String) (sequence : Int) : Prop :=
  ∀ r ∈ rows, r.aggregateKey = k →
    (1 ≤ r.sequence ∧ r.sequence ≤ sequence) ∨ r.sequence < -sequence

/-- A shifted number lies above those that were not negated. -/
theorem shift_apart {sequence : Int} (h0 : 1 ≤ sequence) (hp : Parted o.rows k sequence) :
    Update.Apart OutboxRow.id OutboxRow.key (shiftNegatedOutboxSequences k) o.rows := by
  apply Outbox.apart (shift_aggregateKey k)
  intro r hr q hq ha hs
  rw [shift_sequence, shift_sequence, ← ha]
  by_cases hk : r.aggregateKey = k
  · have hr := hp r hr hk
    have hq := hp q hq (ha ▸ hk)
    simp only [hk, true_and]
    split <;> split <;> omega
  · simp only [hk, false_and, if_false]
    exact ⟨hs, hs⟩

theorem parted_negate {rows : List OutboxRow} (hp : ∀ r ∈ rows, 1 ≤ r.sequence) (k : String)
    (sequence : Int) : Parted (rows.map (negateLaterOutboxSequences k sequence)) k sequence := by
  intro r hr hk
  obtain ⟨x, hx, rfl⟩ := List.mem_map.1 hr
  have hx := hp x hx
  rw [negate_aggregateKey] at hk
  simp only [negate_sequence, hk, true_and]
  split <;> omega

/-! ## The recovery -/

/-- The number behind the claimed row's is free once the later rows are shifted. -/
theorem recovered_free (c : OutboxRow) (now : Int) (r : OutboxRow)
    (ha : r.aggregateKey = c.aggregateKey) : (recoverRow c now r).sequence ≠ c.sequence + 1 := by
  by_cases hs : c.sequence < r.sequence
  · rw [recoverRow_later ha hs]
    show r.sequence + 1 ≠ c.sequence + 1
    omega
  · have := recoverRow_le c now r
    unfold recoverRow
    split
    · show c.sequence ≠ c.sequence + 1
      omega
    · rw [if_neg (fun h => hs h.2)]
      omega

theorem insert_recovered (hrows : o.rows = t.outbox.rows.map (recoverRow c now)) (pubKey : String) :
    ∃ o', o.insert (recoveredPublish c pubKey now) = .ok o' := by
  have hv : OutboxValid (o.rows ++ [recoveredPublish c pubKey now o.nextID]) (o.nextID + 1) := by
    constructor
    · apply List.pairwise_append.2
      simpa [recoveredPublish] using ⟨o.valid.ids, o.valid.fresh⟩
    · intro r hr
      rcases List.mem_append.1 hr with hr | hr
      · exact Nat.lt_succ_of_lt (o.valid.fresh r hr)
      · rw [List.mem_singleton.1 hr]
        exact Nat.lt_succ_self _
    · rw [List.map_append, List.map_singleton]
      apply List.nodup_append.2
      refine ⟨o.valid.unique, List.nodup_singleton _, ?_⟩
      intro a ha b hb he
      rw [hrows, List.map_map] at ha
      obtain ⟨r, -, rfl⟩ := List.mem_map.1 ha
      rw [List.mem_singleton] at hb
      subst hb
      have hk : r.aggregateKey = c.aggregateKey := by
        rw [← recoverRow_aggregateKey (c := c) r]
        exact congrArg Prod.fst he
      exact recovered_free c now r hk (congrArg Prod.snd he)
    · intro r hr
      rcases List.mem_append.1 hr with hr | hr
      · exact o.valid.known r hr
      · rw [List.mem_singleton.1 hr]
        trivial
  exact ⟨_, Outbox.ofRows_of_valid hv⟩

theorem updateOutboxIn_ok {f : OutboxRow → OutboxRow} {p : Plan f}
    (h : t.outbox.updateIn p = .ok o) : t.updateOutboxIn p = .ok { t with outbox := o } := by
  rw [updateOutboxIn, h]
  rfl

/-- The recovery succeeds for all plans, with one result. -/
theorem recoverPublishIn_total (hi : Numbered t) (hc : c ∈ t.outbox.rows) (pubKey : String)
    (now : Int) : ∃ t', ∀ p, t.recoverPublishIn p c pubKey now = .ok t' := by
  have hpos := hi.positive
  obtain ⟨o₁, hr₁, -, h₁⟩ := Outbox.updateIn_of_apart (reset_apart t.outbox now c.id)
    (reset_id now c.id)
    (fun r hr => by
      unfold resetRejectedPublishAsRegistration
      split
      · trivial
      · exact t.outbox.valid.known r hr)
  have hpos₁ : ∀ r ∈ o₁.rows, 1 ≤ r.sequence := by
    intro r hr
    rw [hr₁] at hr
    obtain ⟨x, hx, rfl⟩ := List.mem_map.1 hr
    unfold resetRejectedPublishAsRegistration
    split <;> exact hpos x hx
  obtain ⟨o₂, hr₂, -, h₂⟩ := Outbox.updateIn_of_apart (negate_apart hpos₁ c.aggregateKey c.sequence)
    (negate_id c.aggregateKey c.sequence)
    (fun r hr => by unfold negateLaterOutboxSequences; split <;> exact o₁.valid.known r hr)
  have hparted : Parted o₂.rows c.aggregateKey c.sequence := hr₂ ▸ parted_negate hpos₁ _ _
  obtain ⟨o₃, hr₃, -, h₃⟩ := Outbox.updateIn_of_apart (shift_apart (hpos c hc) hparted)
    (shift_id c.aggregateKey)
    (fun r hr => by unfold shiftNegatedOutboxSequences; split <;> exact o₂.valid.known r hr)
  have hrows : o₃.rows = t.outbox.rows.map (recoverRow c now) := by
    rw [hr₃, hr₂, hr₁, List.map_map, List.map_map]
    apply List.map_congr_left
    intro r hr
    exact recoverRow_eq hi hc hr
  obtain ⟨n, hn, -⟩ := hi.counted c hc
  obtain ⟨o₄, h₄⟩ := insert_recovered hrows pubKey
  refine ⟨{ outbox := o₄, sequences := t.sequences.set c.aggregateKey (n + 1) }, fun p => ?_⟩
  refine bind_ok_iff.2 ⟨_, updateOutboxIn_ok (h₁ _), ?_⟩
  refine bind_ok_iff.2 ⟨_, updateOutboxIn_ok (h₂ _), ?_⟩
  refine bind_ok_iff.2 ⟨_, updateOutboxIn_ok (h₃ _), ?_⟩
  simp only [incrementOutboxLastSequence, hn]
  exact bind_ok_iff.2 ⟨o₄, h₄, rfl⟩

theorem updateOutbox_eq_updateOutboxIn {f : OutboxRow → OutboxRow} (t : OutboxTables)
    (hid : ∀ r, (f r).id = r.id) : t.updateOutbox f = t.updateOutboxIn (.byID f) := by
  rw [updateOutbox, updateOutboxIn, Outbox.update_eq_updateIn t.outbox hid]

theorem recoverPublish_eq_recoverPublishIn (t : OutboxTables) (c : OutboxRow) (pubKey : String)
    (now : Int) : t.recoverPublish c pubKey now = t.recoverPublishIn .byID c pubKey now := by
  simp only [recoverPublish, recoverPublishIn, updateOutbox_eq_updateOutboxIn _ (reset_id now c.id),
    updateOutbox_eq_updateOutboxIn _ (negate_id c.aggregateKey c.sequence),
    updateOutbox_eq_updateOutboxIn _ (shift_id c.aggregateKey)]
  rfl

theorem mem_of_claimedPublishEvent {id : Nat} {token : String}
    (h : t.claimedPublishEvent id token now = some c) : c ∈ t.outbox.rows :=
  List.mem_of_find?_eq_some h

end OutboxTables

/-! ## The transaction -/

/-- The transaction does not fail on a constraint, whatever the plans. -/
theorem SQLiteStore.recoverPublisherRegistrationIn_ne {db : DB} (hi : db.out.Numbered)
    (p : OutboxTables.RecoverPlans) (id : Nat) (token pubKey : String) (now : Int) :
    recoverPublisherRegistrationIn p db id token pubKey now ≠ .error .constraint := by
  unfold recoverPublisherRegistrationIn
  split
  · nofun
  · next c hc =>
    by_cases hk : c.aggregateKey = pubKey
    · obtain ⟨t', ht⟩ := OutboxTables.recoverPublishIn_total hi
        (OutboxTables.mem_of_claimedPublishEvent hc) pubKey now
      have hout : (db.clearPublisherRegistration pubKey).out.recoverPublishIn p c pubKey now =
          .ok t' := ht p
      simp only [require, hk, if_true, hout]
      nofun
    · simp only [require, hk, if_false]
      nofun

open OutboxTables in
/-- In every state of the store the sequence numbers are positive, distinct and counted. From every
such state the recovery of a claimed head succeeds in every order of visits, each of them checked;
it has one result, which is again such a state, with the later rows in their order. -/
theorem recover_unique :
    (∀ (N : Nostr.Library) (cs : List Call), Numbered (DB.empty.run N cs).out) ∧
    (∀ (t : OutboxTables) (id : Nat) (token pubKey : String) (now : Int) (c : OutboxRow),
      Numbered t → t.claimedPublishEvent id token now = some c → Head t.outbox.rows c →
      ∃ t', (∀ p : RecoverPlans, t.recoverPublishIn p c pubKey now = .ok t') ∧
        t.recoverPublish c pubKey now = .ok t' ∧ Numbered t' ∧
        ∃ rest, t.queueRows c.aggregateKey = c :: rest ∧
          t'.queueRows c.aggregateKey = registrationRow c now ::
            recoveredPublish c pubKey now t.outbox.nextID ::
            rest.map (fun r => { r with sequence := r.sequence + 1 }) ∧
          ∀ k, k ≠ c.aggregateKey → t'.queueRows k = t.queueRows k) ∧
    ∀ (db : DB) (id : Nat) (token pubKey : String) (now : Int) (p : RecoverPlans),
      Numbered db.out →
      SQLiteStore.recoverPublisherRegistrationIn p db id token pubKey now ≠ .error .constraint := by
  refine ⟨fun N cs => (outboxInv_run N cs).queue.numbered, ?_,
    fun db id token pubKey now p hi => SQLiteStore.recoverPublisherRegistrationIn_ne hi p id token
      pubKey now⟩
  intro t id token pubKey now c hi hclaimed hh
  have hc := mem_of_claimedPublishEvent hclaimed
  obtain ⟨t', ht⟩ := recoverPublishIn_total hi hc pubKey now
  have hok : t.recoverPublish c pubKey now = .ok t' := by
    rw [recoverPublish_eq_recoverPublishIn, ht]
  exact ⟨t', ht, hok, hi.recover hc hok, queueRows_recover hi hc hok hh⟩

/-- A claimed publish with two rows behind it. -/
def claimedRows : List OutboxRow :=
  [{ id := 1, aggregateKey := "k", sequence := 1, operation := .publishEvent, pubKey := "k",
     payload := "a", availableAt := 0, claimToken := "t", claimedUntil := 9 },
   { id := 2, aggregateKey := "k", sequence := 2, operation := .publishEvent, pubKey := "k",
     payload := "b", availableAt := 0 },
   { id := 3, aggregateKey := "k", sequence := 3, operation := .unallowPublisher, pubKey := "k",
     payload := "", availableAt := 0 }]

theorem claimedRows_valid : OutboxValid claimedRows 4 := by decide

def claimedTables : OutboxTables :=
  { outbox := ⟨claimedRows, 4, claimedRows_valid⟩, sequences := Table.empty.set "k" 3 }

theorem claimedTables_numbered : claimedTables.Numbered where
  positive := by decide
  distinct := by decide
  counted := by
    intro r hr
    have hk : ∀ r ∈ claimedRows, r.aggregateKey = "k" ∧ r.sequence ≤ 3 := by decide
    obtain ⟨hk, hs⟩ := hk r hr
    exact ⟨3, by rw [hk]; rfl, hs⟩

theorem recover_unique_claimed :
    ∃ c, claimedTables.claimedPublishEvent 1 "t" 0 = some c ∧
      ∃ t', ∀ p, claimedTables.recoverPublishIn p c "k" 0 = .ok t' := by
  obtain ⟨t', ht, -⟩ := recover_unique.2.1 claimedTables 1 "t" "k" 0 _ claimedTables_numbered
    rfl (by decide)
  exact ⟨_, rfl, t', ht⟩

end Bridge
