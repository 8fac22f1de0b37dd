import Mytools.Bridge.Proof.Queue

/-!
# The recovery of a registration

`RecoverPublisherRegistration` turns the claimed publish at the head of an aggregate into a
registration and puts the publish behind it. The later rows are moved out of the way in two
statements, first to negative numbers and then to their new ones (`recoverPublish_ok`); in the
queue they stay in place (`queueRows_recover`).
-/

namespace Bridge

open Lib

namespace OutboxTables

variable {t t' : OutboxTables} {c : OutboxRow} {pubKey : String} {now : Int}

/-- The claimed row as a registration. -/
def registrationRow (c : OutboxRow) (now : Int) : OutboxRow :=
  { c with operation := .allowPublisher, payload := "", attempts := 0, lastError := "",
           claimToken := "", claimedUntil := 0, availableAt := unix now }

/-- What the three updates make of a row. -/
def recoverRow (c : OutboxRow) (now : Int) (r : OutboxRow) : OutboxRow :=
  if r = c then registrationRow c now
  else if r.aggregateKey = c.aggregateKey ∧ c.sequence < r.sequence then
    { r with sequence := r.sequence + 1 }
  else r

/-- The publish that is put behind the registration. -/
def recoveredPublish (c : OutboxRow) (pubKey : String) (now : Int) (id : Nat) : OutboxRow where
  id
  aggregateKey := c.aggregateKey
  sequence := c.sequence + 1
  operation := .publishEvent
  pubKey
  payload := c.payload
  availableAt := unix now

theorem recoverRow_aggregateKey (r : OutboxRow) :
    (recoverRow c now r).aggregateKey = r.aggregateKey := by
  unfold recoverRow
  split
  · rename_i h
    rw [h]
    rfl
  · split <;> rfl

theorem recoverRow_self : recoverRow c now c = registrationRow c now := if_pos rfl

theorem recoverRow_other {r : OutboxRow} (h : r.aggregateKey ≠ c.aggregateKey) :
    recoverRow c now r = r := by
  have hne : r ≠ c := fun he => h (by rw [he])
  rw [recoverRow, if_neg hne, if_neg (fun hk => h hk.1)]

theorem recoverRow_later {r : OutboxRow} (hk : r.aggregateKey = c.aggregateKey)
    (hs : c.sequence < r.sequence) :
    recoverRow c now r = { r with sequence := r.sequence + 1 } := by
  have hne : r ≠ c := by
    rintro rfl
    omega
  rw [recoverRow, if_neg hne, if_pos ⟨hk, hs⟩]

theorem le_recoverRow (c : OutboxRow) (now : Int) (r : OutboxRow) :
    r.sequence ≤ (recoverRow c now r).sequence := by
  unfold recoverRow
  split
  · next h =>
    subst h
    exact le_refl _
  · split
    · show r.sequence ≤ r.sequence + 1
      omega
    · exact le_refl _

theorem recoverRow_le (c : OutboxRow) (now : Int) (r : OutboxRow) :
    (recoverRow c now r).sequence ≤ r.sequence + 1 := by
  unfold recoverRow
  split
  · next h =>
    subst h
    show r.sequence ≤ _
    omega
  · split
    · exact le_refl _
    · omega

/-- The three updates together; no number is negative before them. -/
theorem recoverRow_eq (hi : Numbered t) (hc : c ∈ t.outbox.rows) {r : OutboxRow}
    (hr : r ∈ t.outbox.rows) :
    shiftNegatedOutboxSequences c.aggregateKey
      (negateLaterOutboxSequences c.aggregateKey c.sequence
        (resetRejectedPublishAsRegistration now c.id r)) = recoverRow c now r := by
  have hpos := hi.positive r hr
  by_cases hid : r.id = c.id
  · have hrc : r = c := Outbox.eq_of_id hr hc hid
    subst hrc
    have h0 : ¬ r.sequence < 0 := by omega
    simp [recoverRow_self, registrationRow, resetRejectedPublishAsRegistration,
      negateLaterOutboxSequences, shiftNegatedOutboxSequences, h0]
  · have hne : r ≠ c := fun he => hid (by rw [he])
    rw [resetRejectedPublishAsRegistration, if_neg hid, negateLaterOutboxSequences, recoverRow,
      if_neg hne]
    by_cases hk : r.aggregateKey = c.aggregateKey ∧ r.sequence > c.sequence
    · have hneg : -r.sequence < 0 := by omega
      rw [if_pos hk, shiftNegatedOutboxSequences, if_pos ⟨hk.1, hneg⟩, if_pos ⟨hk.1, hk.2⟩]
      simp
    · have h0 : ¬ r.sequence < 0 := by omega
      rw [if_neg hk, shiftNegatedOutboxSequences, if_neg (fun h => h0 h.2), if_neg hk]

theorem recoverPublish_ok (hi : Numbered t) (hc : c ∈ t.outbox.rows)
    (h : t.recoverPublish c pubKey now = .ok t') :
    t'.outbox.rows = t.outbox.rows.map (recoverRow c now) ++
        [recoveredPublish c pubKey now t.outbox.nextID] ∧
      t'.outbox.nextID = t.outbox.nextID + 1 ∧
      ∃ n, t.sequences.get? c.aggregateKey = some n ∧
        t'.sequences = t.sequences.set c.aggregateKey (n + 1) := by
  obtain ⟨t₁, h₁, h⟩ := bind_ok_iff.1 h
  obtain ⟨t₂, h₂, h⟩ := bind_ok_iff.1 h
  obtain ⟨t₃, h₃, h⟩ := bind_ok_iff.1 h
  obtain ⟨o, ho, ht⟩ := bind_ok_iff.1 h
  cases ht
  obtain ⟨hr₁, hn₁, hs₁⟩ := updateOutbox_ok h₁
  obtain ⟨hr₂, hn₂, hs₂⟩ := updateOutbox_ok h₂
  obtain ⟨hr₃, hn₃, hs₃⟩ := updateOutbox_ok h₃
  obtain ⟨n, hn, -⟩ := hi.counted c hc
  have hn3 : t₃.sequences.get? c.aggregateKey = some n := by rw [hs₃, hs₂, hs₁, hn]
  have hinc : t₃.incrementOutboxLastSequence c.aggregateKey =
      { t₃ with sequences := t₃.sequences.set c.aggregateKey (n + 1) } := by
    rw [incrementOutboxLastSequence, hn3]
  rw [hinc] at ho ⊢
  obtain ⟨hr, hid⟩ := Outbox.insert_ok ho
  refine ⟨?_, ?_, n, hn, ?_⟩
  · rw [hr, hr₃, hr₂, hr₁, List.map_map, List.map_map, hn₃, hn₂, hn₁]
    refine congrArg (· ++ _) (List.map_congr_left ?_)
    intro r hr
    exact recoverRow_eq hi hc hr
  · rw [hid, hn₃, hn₂, hn₁]
  · show t₃.sequences.set _ _ = _
    rw [hs₃, hs₂, hs₁]

section
variable (hi : Numbered t) (hc : c ∈ t.outbox.rows) (h : t.recoverPublish c pubKey now = .ok t')
include hi hc h

/-- The registration and the publish stand in the place of the publish, ahead of the later rows. -/
theorem queueRows_recover (hh : Head t.outbox.rows c) :
    ∃ rest, t.queueRows c.aggregateKey = c :: rest ∧
      t'.queueRows c.aggregateKey = registrationRow c now ::
        recoveredPublish c pubKey now t.outbox.nextID ::
        rest.map (fun r => { r with sequence := r.sequence + 1 }) ∧
      ∀ k, k ≠ c.aggregateKey → t'.queueRows k = t.queueRows k := by
  obtain ⟨hrows, -, -⟩ := recoverPublish_ok hi hc h
  obtain ⟨rest, hq⟩ := queueRows_head hc hh
  have hs : (c :: rest).Pairwise (·.sequence < ·.sequence) := hq ▸ sorted_queueRows
  obtain ⟨hlater, hrest⟩ := List.pairwise_cons.1 hs
  have hof : ∀ k, t'.rowsOf k = (t.rowsOf k).map (recoverRow c now) ++
      if c.aggregateKey = k then [recoveredPublish c pubKey now t.outbox.nextID] else [] := by
    intro k
    rw [rowsOf, hrows, List.filter_append, List.filter_singleton, Bool.cond_decide, List.filter_map]
    simp only [Function.comp_def, recoverRow_aggregateKey]
    rfl
  refine ⟨rest, hq, ?_, ?_⟩
  · have hmap : (c :: rest).map (recoverRow c now) = registrationRow c now ::
        rest.map (fun r => { r with sequence := r.sequence + 1 }) := by
      rw [List.map_cons, recoverRow_self]
      refine congrArg _ (List.map_congr_left ?_)
      intro r hr
      have hm : r ∈ t.queueRows c.aggregateKey := hq ▸ List.mem_cons_of_mem _ hr
      exact recoverRow_later (mem_queueRows.1 hm).2 (hlater r hr)
    refine inOrder_eq ?_ ?_
    · -- the publish moves from the end to the second place
      have hp : (c :: rest).Perm (t.rowsOf c.aggregateKey) := hq ▸ inOrder_perm
      rw [hof, if_pos rfl]
      refine List.Perm.trans ?_ ((hp.map _).append_right _)
      rw [hmap, List.cons_append]
      exact (List.perm_append_singleton _ _).symm.cons _
    · rw [List.pairwise_cons, List.pairwise_cons, List.pairwise_map]
      refine ⟨?_, ?_, ?_⟩
      · intro x hx
        show c.sequence < x.sequence
        rcases List.mem_cons.1 hx with rfl | hx
        · exact Int.lt_succ _
        · obtain ⟨r, hr, rfl⟩ := List.mem_map.1 hx
          have := hlater r hr
          show c.sequence < r.sequence + 1
          omega
      · intro x hx
        obtain ⟨r, hr, rfl⟩ := List.mem_map.1 hx
        have := hlater r hr
        show c.sequence + 1 < r.sequence + 1
        omega
      · exact hrest.imp fun hlt => by show _ + 1 < _ + 1; omega
  · intro k hk
    have hid : (t.rowsOf k).map (recoverRow c now) = t.rowsOf k := by
      refine (List.map_congr_left ?_).trans (List.map_id _)
      intro r hr
      exact recoverRow_other fun he => hk ((mem_rowsOf.1 hr).2.symm.trans he)
    rw [queueRows, hof, if_neg (Ne.symm hk), List.append_nil, hid]
    rfl

theorem mem_recover {r : OutboxRow} (hr : r ∈ t'.outbox.rows) :
    (∃ x ∈ t.outbox.rows, recoverRow c now x = r) ∨
      r = recoveredPublish c pubKey now t.outbox.nextID := by
  rwa [(recoverPublish_ok hi hc h).1, List.mem_append, List.mem_map, List.mem_singleton] at hr

theorem Numbered.recover : Numbered t' := by
  obtain ⟨-, -, n, hn, hseq⟩ := recoverPublish_ok hi hc h
  have hcn : c.sequence ≤ n := by
    obtain ⟨m, hm, hle⟩ := hi.counted c hc
    rw [hn] at hm
    cases hm
    exact hle
  refine ⟨?_, t'.outbox.valid.unique, ?_⟩
  · intro r hr
    rcases mem_recover hi hc h hr with ⟨x, hx, rfl⟩ | rfl
    · have := hi.positive x hx
      have := le_recoverRow c now x
      omega
    · have := hi.positive c hc
      show 1 ≤ c.sequence + 1
      omega
  · intro r hr
    rw [hseq, Table.get?_set]
    rcases mem_recover hi hc h hr with ⟨x, hx, rfl⟩ | rfl
    · rw [recoverRow_aggregateKey]
      obtain ⟨m, hm, hle⟩ := hi.counted x hx
      by_cases hk : x.aggregateKey = c.aggregateKey
      · rw [if_pos hk]
        rw [hk, hn] at hm
        cases hm
        exact ⟨_, rfl, by have := recoverRow_le c now x; omega⟩
      · rw [if_neg hk, recoverRow_other hk]
        exact ⟨m, hm, hle⟩
    · exact ⟨_, if_pos rfl, by show c.sequence + 1 ≤ _; omega⟩

end

theorem QueueInv.recover (hi : QueueInv t) (hc : c ∈ t.outbox.rows) (hclaimed : c.claimToken ≠ "")
    (h : t.recoverPublish c pubKey now = .ok t') : QueueInv t' := by
  obtain ⟨-, -, n, hn, hseq⟩ := recoverPublish_ok hi.numbered hc h
  have hnum := hi.numbered.recover hc h
  have hmem := fun r => mem_recover (r := r) hi.numbered hc h
  refine ⟨hnum.counted, hnum.positive, ?_, ?_⟩
  · intro k m hm
    rw [hseq, Table.get?_set] at hm
    split at hm
    · cases hm
      have := hi.counters _ _ hn
      omega
    · exact hi.counters k m hm
  · intro r hr hne prior hp hk
    rcases hmem r hr with ⟨x, hx, rfl⟩ | rfl
    swap
    · exact absurd rfl hne
    -- the only claimed row of the aggregate was `c`, whose claim is gone
    have hxk : x.aggregateKey ≠ c.aggregateKey := by
      intro hxk
      have hxc : x ≠ c := by
        rintro rfl
        rw [recoverRow_self] at hne
        exact hne rfl
      have htok : x.claimToken ≠ "" := by
        unfold recoverRow at hne
        rw [if_neg hxc] at hne
        split at hne
        · exact hne
        · exact hne
      have h1 := hi.claimed x hx htok c hc hxk.symm
      have h2 := hi.claimed c hc hclaimed x hx hxk
      exact hxc (Outbox.eq_of_key hx hc (Prod.ext hxk (by show x.sequence = c.sequence; omega)))
    rw [recoverRow_other hxk] at hne hk ⊢
    rcases hmem prior hp with ⟨y, hy, rfl⟩ | rfl
    · rw [recoverRow_aggregateKey] at hk
      rw [recoverRow_other (hk ▸ hxk)]
      exact hi.claimed x hx hne y hy hk
    · exact absurd hk.symm hxk

end OutboxTables

end Bridge
