import Mytools.Bridge.Store
import Mytools.Lib.InOrder

/-!
# The queue of an aggregate

`queueRows t k`: the rows of aggregate `k` in the order of their sequence numbers. `QueueInv` holds
in every state of the store: sequence numbers are positive and at most the aggregate's counter, and
only the head of an aggregate is claimed. One lemma for each query of the outbox says what it does
to the queues and that it keeps the invariant.
-/

namespace Bridge

open Lib

namespace OutboxTables

def rowsOf (t : OutboxTables) (k : String) : List OutboxRow :=
  t.outbox.rows.filter (·.aggregateKey = k)

def queueRows (t : OutboxTables) (k : String) : List OutboxRow :=
  inOrder (·.sequence) (t.rowsOf k)

/-- The sequence numbers of an aggregate are positive, distinct and at most its counter. -/
structure Numbered (t : OutboxTables) : Prop where
  positive : ∀ r ∈ t.outbox.rows, 1 ≤ r.sequence
  distinct : (t.outbox.rows.map OutboxRow.key).Nodup
  counted : ∀ r ∈ t.outbox.rows, ∃ n, t.sequences.get? r.aggregateKey = some n ∧ r.sequence ≤ n

structure QueueInv (t : OutboxTables) : Prop where
  counted : ∀ r ∈ t.outbox.rows, ∃ n, t.sequences.get? r.aggregateKey = some n ∧ r.sequence ≤ n
  positive : ∀ r ∈ t.outbox.rows, 1 ≤ r.sequence
  counters : ∀ k n, t.sequences.get? k = some n → 1 ≤ n
  claimed : ∀ r ∈ t.outbox.rows, r.claimToken ≠ "" → Head t.outbox.rows r

variable {t t' : OutboxTables} {k : String} {r : OutboxRow}

theorem QueueInv.empty : QueueInv ⟨.empty, .empty⟩ where
  counted := by intro r hr; cases hr
  positive := by intro r hr; cases hr
  counters := by intro k n h; cases h
  claimed := by intro r hr; cases hr

theorem QueueInv.numbered (hi : QueueInv t) : Numbered t :=
  ⟨hi.positive, t.outbox.valid.unique, hi.counted⟩

theorem mem_rowsOf : r ∈ t.rowsOf k ↔ r ∈ t.outbox.rows ∧ r.aggregateKey = k := by
  simp [rowsOf]

theorem mem_queueRows : r ∈ t.queueRows k ↔ r ∈ t.outbox.rows ∧ r.aggregateKey = k := by
  rw [queueRows, mem_inOrder, mem_rowsOf]

theorem distinct_rowsOf : Distinct (·.sequence) (t.rowsOf k) := by
  have hu : t.outbox.rows.Pairwise fun a b => a.key ≠ b.key :=
    List.pairwise_map.1 t.outbox.valid.unique
  refine (hu.filter _).imp_of_mem ?_
  intro a b ha hb hne he
  rw [List.mem_filter, decide_eq_true_eq] at ha hb
  exact hne (Prod.ext (ha.2.trans hb.2.symm) he)

theorem sorted_queueRows : (t.queueRows k).Pairwise (·.sequence < ·.sequence) :=
  inOrder_sorted distinct_rowsOf

/-- The head of an aggregate is the first row of its queue. -/
theorem queueRows_head (hr : r ∈ t.outbox.rows) (hh : Head t.outbox.rows r) :
    ∃ rest, t.queueRows r.aggregateKey = r :: rest := by
  refine inOrder_eq_cons distinct_rowsOf (mem_rowsOf.2 ⟨hr, rfl⟩) ?_
  intro x hx
  obtain ⟨hx, hk⟩ := mem_rowsOf.1 hx
  have := hh x hx hk
  omega

/-! ## Enqueueing -/

/-- The row that a request is stored as. -/
def requestRow (r : OutboxRequest) (id : Nat) (sequence : Int) : OutboxRow where
  id
  aggregateKey := r.aggregateKey
  sequence
  operation := r.operation
  pubKey := r.pubKey
  payload := r.payload
  availableAt := unix r.availableAt

def nextSequence (t : OutboxTables) (k : String) : Int :=
  match t.sequences.get? k with
  | none => 1
  | some n => n + 1

theorem get?_advanceOutboxSequence :
    (t.advanceOutboxSequence k).sequences.get? k = some (t.nextSequence k) := by
  simp only [advanceOutboxSequence, Table.get?_set, if_true]
  rfl

theorem enqueueOutbox_ok {q : OutboxRequest} (h : t.enqueueOutbox q = .ok t') :
    t'.outbox.rows = t.outbox.rows ++
        [requestRow q t.outbox.nextID (t.nextSequence q.aggregateKey)] ∧
      t'.outbox.nextID = t.outbox.nextID + 1 ∧
      t'.sequences = t.sequences.set q.aggregateKey (t.nextSequence q.aggregateKey) := by
  unfold enqueueOutbox insertOutbox at h
  rw [get?_advanceOutboxSequence] at h
  obtain ⟨o, ho, ht⟩ := bind_ok_iff.1 h
  cases ht
  obtain ⟨hr, hn⟩ := Outbox.insert_ok ho
  exact ⟨hr, hn, rfl⟩

theorem QueueInv.lt_nextSequence (hi : QueueInv t) (hr : r ∈ t.outbox.rows) :
    r.sequence < t.nextSequence r.aggregateKey := by
  obtain ⟨n, hn, hle⟩ := hi.counted r hr
  rw [nextSequence, hn]
  show r.sequence < n + 1
  omega

theorem QueueInv.one_le_nextSequence (hi : QueueInv t) : 1 ≤ t.nextSequence k := by
  unfold nextSequence
  split
  · omega
  · rename_i n hn
    have := hi.counters k n hn
    omega

/-- A request becomes the last row of its aggregate. -/
theorem queueRows_enqueue {q : OutboxRequest} (hi : QueueInv t) (h : t.enqueueOutbox q = .ok t') :
    t'.queueRows k = t.queueRows k ++ if q.aggregateKey = k then
      [requestRow q t.outbox.nextID (t.nextSequence q.aggregateKey)] else [] := by
  obtain ⟨hrows, -, -⟩ := enqueueOutbox_ok h
  have hof : t'.rowsOf k = t.rowsOf k ++ if q.aggregateKey = k then
      [requestRow q t.outbox.nextID (t.nextSequence q.aggregateKey)] else [] := by
    rw [rowsOf, hrows, List.filter_append, List.filter_singleton, Bool.cond_decide]
    rfl
  rw [queueRows, hof]
  split
  · rename_i hk
    refine inOrder_append distinct_rowsOf ?_
    intro x hx
    obtain ⟨hx, hxk⟩ := mem_rowsOf.1 hx
    have hlt := hi.lt_nextSequence hx
    rwa [hxk, ← hk] at hlt
  · rw [List.append_nil, List.append_nil]
    rfl

theorem QueueInv.enqueue {q : OutboxRequest} (hi : QueueInv t) (h : t.enqueueOutbox q = .ok t') :
    QueueInv t' := by
  obtain ⟨hrows, -, hseq⟩ := enqueueOutbox_ok h
  have hmem : ∀ r ∈ t'.outbox.rows, r ∈ t.outbox.rows ∨
      r = requestRow q t.outbox.nextID (t.nextSequence q.aggregateKey) := by
    intro r hr
    rwa [hrows, List.mem_append, List.mem_singleton] at hr
  constructor
  · intro r hr
    rw [hseq, Table.get?_set]
    rcases hmem r hr with hr | rfl
    · obtain ⟨n, hn, hle⟩ := hi.counted r hr
      have hlt := hi.lt_nextSequence hr
      split
      · rename_i hk
        rw [hk] at hlt
        exact ⟨_, rfl, hlt.le⟩
      · exact ⟨n, hn, hle⟩
    · exact ⟨_, if_pos rfl, le_refl _⟩
  · intro r hr
    rcases hmem r hr with hr | rfl
    · exact hi.positive r hr
    · exact hi.one_le_nextSequence
  · intro k n hn
    rw [hseq, Table.get?_set] at hn
    split at hn
    · cases hn
      exact hi.one_le_nextSequence
    · exact hi.counters k n hn
  · intro r hr hc prior hp hk
    rcases hmem r hr with hr | rfl
    · rcases hmem prior hp with hp | rfl
      · exact hi.claimed r hr hc prior hp hk
      · -- the new row comes after every row of its aggregate
        have hlt := hi.lt_nextSequence hr
        rw [← hk] at hlt
        exact fun hlt' => absurd hlt' (by simpa [requestRow] using hlt.le)
    · exact absurd rfl hc

/-- The schema admits every request of a known operation. -/
theorem QueueInv.enqueue_total {q : OutboxRequest} (hi : QueueInv t) (hq : q.operation.Known) :
    ∃ t', t.enqueueOutbox q = .ok t' := by
  have hv : OutboxValid (t.outbox.rows ++
      [requestRow q t.outbox.nextID (t.nextSequence q.aggregateKey)]) (t.outbox.nextID + 1) := by
    refine ⟨?_, ?_, ?_, ?_⟩
    · refine List.pairwise_append.2 ⟨t.outbox.valid.ids, List.pairwise_singleton _ _, ?_⟩
      intro r hr x hx
      rw [List.mem_singleton.1 hx]
      exact t.outbox.valid.fresh r hr
    · intro r hr
      rcases List.mem_append.1 hr with hr | hr
      · exact Nat.lt_succ_of_lt (t.outbox.valid.fresh r hr)
      · rw [List.mem_singleton.1 hr]
        exact Nat.lt_succ_self _
    · rw [List.map_append, List.nodup_append]
      refine ⟨t.outbox.valid.unique, List.nodup_singleton _, ?_⟩
      rintro _ ha _ hb rfl
      obtain ⟨r, hr, he⟩ := List.mem_map.1 ha
      have hb := List.mem_singleton.1 hb
      rw [← he] at hb
      have hlt := hi.lt_nextSequence hr
      obtain ⟨hk, hs⟩ := Prod.mk.inj hb
      rw [hk, hs] at hlt
      exact absurd hlt (lt_irrefl _)
    · intro r hr
      rcases List.mem_append.1 hr with hr | hr
      · exact t.outbox.valid.known r hr
      · rw [List.mem_singleton.1 hr]
        exact hq
  unfold enqueueOutbox insertOutbox
  rw [get?_advanceOutboxSequence]
  exact ⟨_, bind_ok_iff.2 ⟨⟨_, _, hv⟩, dif_pos hv, rfl⟩⟩

/-! ## Updates that keep the queues' order -/

section
variable {f : OutboxRow → OutboxRow} (hrows : t'.outbox.rows = t.outbox.rows.map f)
  (hf : ∀ r, (f r).aggregateKey = r.aggregateKey ∧ (f r).sequence = r.sequence)
include hrows hf

theorem queueRows_update : t'.queueRows k = (t.queueRows k).map f := by
  have hof : t'.rowsOf k = (t.rowsOf k).map f := by
    rw [rowsOf, hrows, List.filter_map]
    simp only [Function.comp_def, (hf _).1]
    rfl
  rw [queueRows, hof]
  refine inOrder_map distinct_rowsOf ?_
  intro x _ y _ hxy
  rwa [(hf x).2, (hf y).2]

theorem QueueInv.update (hi : QueueInv t) (hseq : t'.sequences = t.sequences)
    (hc : ∀ r ∈ t.outbox.rows, (f r).claimToken ≠ "" → Head t.outbox.rows r) : QueueInv t' := by
  have hmem : ∀ r ∈ t'.outbox.rows, ∃ x ∈ t.outbox.rows, f x = r := by
    intro r hr
    rwa [hrows, List.mem_map] at hr
  constructor
  · intro r hr
    obtain ⟨x, hx, rfl⟩ := hmem r hr
    rw [hseq, (hf x).1, (hf x).2]
    exact hi.counted x hx
  · intro r hr
    obtain ⟨x, hx, rfl⟩ := hmem r hr
    rw [(hf x).2]
    exact hi.positive x hx
  · rw [hseq]
    exact hi.counters
  · intro r hr hne prior hp hk
    obtain ⟨x, hx, rfl⟩ := hmem r hr
    obtain ⟨y, hy, rfl⟩ := hmem prior hp
    rw [(hf x).1, (hf y).1] at hk
    rw [(hf x).2, (hf y).2]
    exact hc x hx hne y hy hk

end

/-! ## Claim and retry -/

theorem updateOutbox_ok {f : OutboxRow → OutboxRow} (h : t.updateOutbox f = .ok t') :
    t'.outbox.rows = t.outbox.rows.map f ∧ t'.outbox.nextID = t.outbox.nextID ∧
      t'.sequences = t.sequences := by
  obtain ⟨o, ho, ht⟩ := bind_ok_iff.1 h
  cases ht
  obtain ⟨hr, hn⟩ := Outbox.update_ok ho
  exact ⟨hr, hn, rfl⟩

/-- What a claim makes of a row. -/
def claimRow (t : OutboxTables) (token : String) (claimedUntil now : Int) (limit : Nat)
    (r : OutboxRow) : OutboxRow :=
  if r.id ∈ (t.claimable now limit).map (·.id) ∧ Unclaimed r now then
    { r with claimToken := token, claimedUntil := unixNano claimedUntil }
  else r

theorem claimOutbox_ok {token : String} {claimedUntil now : Int} {limit : Nat}
    (h : t.claimOutbox token claimedUntil now limit = .ok t') :
    t'.outbox.rows = t.outbox.rows.map (t.claimRow token claimedUntil now limit) ∧
      t'.outbox.nextID = t.outbox.nextID ∧ t'.sequences = t.sequences :=
  updateOutbox_ok h

theorem claimRow_eq (token : String) (claimedUntil now : Int) (limit : Nat) (r : OutboxRow) :
    ∃ token' until', t.claimRow token claimedUntil now limit r =
      { r with claimToken := token', claimedUntil := until' } := by
  unfold claimRow
  split
  · exact ⟨_, _, rfl⟩
  · exact ⟨_, _, rfl⟩

theorem mem_claimable {now : Int} {limit : Nat} (h : r ∈ t.claimable now limit) :
    r ∈ t.outbox.rows ∧ Unclaimed r now ∧ Head t.outbox.rows r := by
  have hs := List.mem_of_mem_take h
  rw [(List.perm_insertionSort _ _).mem_iff, List.mem_filter, decide_eq_true_eq] at hs
  exact ⟨hs.1, hs.2.1, hs.2.2.2⟩

/-- A row whose id was claimed is the head of its aggregate. -/
theorem head_of_mem_claimable {now : Int} {limit : Nat} (hr : r ∈ t.outbox.rows)
    (h : r.id ∈ (t.claimable now limit).map (·.id)) : Head t.outbox.rows r := by
  obtain ⟨x, hx, hid⟩ := List.mem_map.1 h
  obtain ⟨hm, -, hh⟩ := mem_claimable hx
  rwa [← Outbox.eq_of_id hm hr hid]

theorem QueueInv.claim {token : String} {claimedUntil now : Int} {limit : Nat} (hi : QueueInv t)
    (h : t.claimOutbox token claimedUntil now limit = .ok t') : QueueInv t' := by
  obtain ⟨hrows, -, hseq⟩ := claimOutbox_ok h
  refine hi.update hrows ?_ hseq ?_
  · intro r
    obtain ⟨token', until', he⟩ := claimRow_eq (t := t) token claimedUntil now limit r
    rw [he]
    exact ⟨rfl, rfl⟩
  · intro r hr hne
    unfold claimRow at hne
    split at hne
    · rename_i hc
      exact head_of_mem_claimable hr hc.1
    · exact hi.claimed r hr hne

/-- What a retry makes of a row. -/
def retryRow (id : Nat) (token : String) (now availableAt : Int) (lastError : String)
    (r : OutboxRow) : OutboxRow :=
  if OwnedBy r id token now then
    { r with attempts := r.attempts + 1, availableAt := unix availableAt, lastError,
             claimToken := "", claimedUntil := 0 }
  else r

theorem retryOutbox_ok {id : Nat} {token lastError : String} {now availableAt : Int}
    (h : t.retryOutbox id token now availableAt lastError = .ok t') :
    (∃ r ∈ t.outbox.rows, OwnedBy r id token now) ∧
      t'.outbox.rows = t.outbox.rows.map (retryRow id token now availableAt lastError) ∧
      t'.outbox.nextID = t.outbox.nextID ∧ t'.sequences = t.sequences := by
  unfold retryOutbox at h
  split at h
  · rename_i hany
    exact ⟨by simpa using hany, updateOutbox_ok h⟩
  · cases h

theorem QueueInv.retry {id : Nat} {token lastError : String} {now availableAt : Int}
    (hi : QueueInv t) (h : t.retryOutbox id token now availableAt lastError = .ok t') :
    QueueInv t' := by
  obtain ⟨-, hrows, -, hseq⟩ := retryOutbox_ok h
  refine hi.update hrows ?_ hseq ?_
  · intro r
    unfold retryRow
    split <;> exact ⟨rfl, rfl⟩
  · intro r hr hne
    unfold retryRow at hne
    split at hne
    · exact absurd rfl hne
    · exact hi.claimed r hr hne

/-! ## Completion -/

/-- A completion finds the row of its claim and deletes the row with this id and no other. -/
theorem completeOutbox_ok {id : Nat} {token : String} {now : Int}
    (h : t.completeOutbox id token now = .ok t') :
    (∃ r ∈ t.outbox.rows, OwnedBy r id token now) ∧
      t'.outbox.rows = t.outbox.rows.filter (·.id ≠ id) ∧
      t'.outbox.nextID = t.outbox.nextID ∧ t'.sequences = t.sequences := by
  unfold completeOutbox at h
  split at h
  swap
  · cases h
  rename_i hany
  obtain ⟨r, hr, ho⟩ : ∃ r ∈ t.outbox.rows, OwnedBy r id token now := by simpa using hany
  cases h
  refine ⟨⟨r, hr, ho⟩, ?_, rfl, rfl⟩
  refine List.filter_congr ?_
  intro x hx
  by_cases hid : x.id = id
  · have hxr : x = r := Outbox.eq_of_id hx hr (hid.trans ho.1.symm)
    simp [hxr, ho, ho.1]
  · have hno : ¬ OwnedBy x id token now := fun hx => hid hx.1
    simp [hid, hno]

theorem QueueInv.complete {id : Nat} {token : String} {now : Int} (hi : QueueInv t)
    (h : t.completeOutbox id token now = .ok t') : QueueInv t' := by
  obtain ⟨-, hrows, -, hseq⟩ := completeOutbox_ok h
  have hmem : ∀ r ∈ t'.outbox.rows, r ∈ t.outbox.rows := by
    intro r hr
    rw [hrows] at hr
    exact List.mem_of_mem_filter hr
  constructor
  · intro r hr
    rw [hseq]
    exact hi.counted r (hmem r hr)
  · exact fun r hr => hi.positive r (hmem r hr)
  · rw [hseq]
    exact hi.counters
  · exact fun r hr hc prior hp => hi.claimed r (hmem r hr) hc prior (hmem prior hp)

theorem queueRows_delete {id : Nat} (hrows : t'.outbox.rows = t.outbox.rows.filter (·.id ≠ id)) :
    t'.queueRows k = (t.queueRows k).filter (·.id ≠ id) := by
  have hof : t'.rowsOf k = (t.rowsOf k).filter (·.id ≠ id) := by
    rw [rowsOf, hrows, List.filter_filter, rowsOf, List.filter_filter]
    simp only [Bool.and_comm]
  rw [queueRows, hof]
  exact inOrder_filter distinct_rowsOf _

/-- A completion removes the head of the claimed row's aggregate, and nothing else. -/
theorem queueRows_complete {id : Nat} {token : String} {now : Int} (hi : QueueInv t)
    (h : t.completeOutbox id token now = .ok t') :
    ∃ r rest, r ∈ t.outbox.rows ∧ OwnedBy r id token now ∧
      t.queueRows r.aggregateKey = r :: rest ∧
      t'.queueRows r.aggregateKey = rest ∧
      ∀ k, k ≠ r.aggregateKey → t'.queueRows k = t.queueRows k := by
  obtain ⟨⟨r, hr, ho⟩, hrows, -, -⟩ := completeOutbox_ok h
  obtain ⟨rest, hq⟩ := queueRows_head hr (hi.claimed r hr ho.2.2.1)
  refine ⟨r, rest, hr, ho, hq, ?_, ?_⟩
  · rw [queueRows_delete hrows, hq, List.filter_cons_of_neg (by simp [ho.1])]
    refine List.filter_eq_self.2 ?_
    intro x hx
    have hs : (r :: rest).Pairwise (·.sequence < ·.sequence) := hq ▸ sorted_queueRows
    have hlt := (List.pairwise_cons.1 hs).1 x hx
    have hxm : x ∈ t.queueRows r.aggregateKey := hq ▸ List.mem_cons_of_mem _ hx
    rw [decide_eq_true_eq]
    intro hid
    have hxr : x = r := Outbox.eq_of_id (mem_queueRows.1 hxm).1 hr (hid.trans ho.1.symm)
    rw [hxr] at hlt
    omega
  · intro k hk
    rw [queueRows_delete hrows]
    refine List.filter_eq_self.2 ?_
    intro x hx
    obtain ⟨hxm, hxk⟩ := mem_queueRows.1 hx
    rw [decide_eq_true_eq]
    intro hid
    have hxr : x = r := Outbox.eq_of_id hxm hr (hid.trans ho.1.symm)
    exact hk (by rw [← hxk, hxr])

end OutboxTables

end Bridge
