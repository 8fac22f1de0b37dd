import Mathlib.Data.Set.Lattice
import Mytools.Relay.Proof.Save

/-!
# One event per key

A replaceable event is kept once per author and kind, an addressable one once per author, kind and
`d` tag. `saveEventTx_cases` says once what a transaction can do to the table; uniqueness (`Unique`)
and the newest event of each key (`Newest`) are carried through any sequence of calls from it.
-/

namespace Relay

open Lib

variable {N : Nostr.Library} {db db' : DB} {R U : Set Nostr.Event} {e x y z : Nostr.Event}

/-- `IsOlder` orders the events of `U`, told apart by their IDs. -/
structure Ordered (N : Nostr.Library) (U : Set Nostr.Event) : Prop where
  ne : ∀ a ∈ U, ∀ b ∈ U, N.isOlder a b = true → a.id ≠ b.id
  trans : ∀ a ∈ U, ∀ b ∈ U, ∀ c ∈ U,
    N.isOlder a b = true → N.isOlder b c = true → N.isOlder a c = true
  total : ∀ a ∈ U, ∀ b ∈ U, a.id ≠ b.id → N.isOlder a b = true ∨ N.isOlder b a = true

/-- The ID of an event of `U` determines its author, kind and `d` tag. -/
def Identified (N : Nostr.Library) (U : Set Nostr.Event) : Prop :=
  ∀ a ∈ U, ∀ b ∈ U, a.id = b.id →
    a.pubKey = b.pubKey ∧ a.kind = b.kind ∧ N.getD a.tags = N.getD b.tags

/-- Two events of which the relay keeps one. -/
structure SameKey (N : Nostr.Library) (a b : Nostr.Event) : Prop where
  pubKey : a.pubKey = b.pubKey
  kind : a.kind = b.kind
  key : N.isReplaceable a.kind = true ∨
    (N.isAddressable a.kind = true ∧ N.getD a.tags = N.getD b.tags)

theorem SameKey.symm (h : SameKey N x y) : SameKey N y x where
  pubKey := h.pubKey.symm
  kind := h.kind.symm
  key := by
    rw [← h.kind]
    exact h.key.imp_right fun ⟨ha, hd⟩ => ⟨ha, hd.symm⟩

theorem SameKey.trans (h : SameKey N x y) (h' : SameKey N y z) : SameKey N x z where
  pubKey := h.pubKey.trans h'.pubKey
  kind := h.kind.trans h'.kind
  key := by
    have h₁ := h.key
    have h₂ := h'.key
    rw [← h.kind] at h₂
    rcases h₁ with hr | ⟨ha, hd⟩
    · exact .inl hr
    · rcases h₂ with hr | ⟨-, hd'⟩
      · exact .inl hr
      · exact .inr ⟨ha, hd.trans hd'⟩

def Stores (N : Nostr.Library) (db : DB) (e : Nostr.Event) : Prop :=
  db.events.get? e.id = some (eventRow N e)

/-- The table after the events `R` have been received: it has no other rows and tombstones than
those of `R`. -/
structure Received (N : Nostr.Library) (db : DB) (R : Set Nostr.Event) : Prop where
  rows : ∀ i row, db.events.get? i = some row → ∃ e ∈ R, e.id = i ∧ eventRow N e = row
  tombstones : ∀ p i, db.eventTombstoned p i = true → Tombstoned N R p i

/-! ## The scan -/

/-- The row of a stored event that `e` competes with, which is older or not. -/
def Competes (N : Nostr.Library) (e : Nostr.Event) (older : Bool) (json : String) : Prop :=
  ∃ p, N.unmarshal json = some p ∧ ¬(N.isAddressable e.kind ∧ N.getD p.tags ≠ N.getD e.tags) ∧
    N.isOlder p e = older

theorem scanReplaced_ok : ∀ (rows : List (String × String)) (ids : List String) (store : Bool),
    (∀ r ∈ rows, ∃ p, N.unmarshal r.2 = some p) →
    ∃ ids' store', scanReplaced N e rows ids store = .ok (ids', store') ∧
      (∀ i, i ∈ ids' ↔ i ∈ ids ∨ ∃ r ∈ rows, r.1 = i ∧ Competes N e true r.2) ∧
      (store' = true ↔ store = true ∧ ∀ r ∈ rows, ¬Competes N e false r.2)
  | [], ids, store, _ => ⟨ids, store, rfl, by simp, by simp⟩
  | (id, json) :: rows, ids, store, h => by
    obtain ⟨p, hp⟩ := h (id, json) List.mem_cons_self
    have hc : ∀ b, Competes N e b json ↔
        ¬(N.isAddressable e.kind ∧ N.getD p.tags ≠ N.getD e.tags) ∧ N.isOlder p e = b := by
      intro b
      simp only [Competes, hp, Option.some.injEq, exists_eq_left']
    have ih := fun ids store => scanReplaced_ok rows ids store fun r hr =>
      h r (List.mem_cons_of_mem _ hr)
    rw [scanReplaced, hp]
    simp only [List.mem_cons, exists_eq_or_imp, forall_eq_or_imp, hc]
    split
    · rename_i hd
      obtain ⟨ids', store', hs, hi, hst⟩ := ih ids store
      exact ⟨ids', store', hs, fun i => by simp [hi, hd], by simp [hst, hd]⟩
    · rename_i hd
      cases ho : N.isOlder p e with
      | true =>
        obtain ⟨ids', store', hs, hi, hst⟩ := ih (ids ++ [id]) store
        refine ⟨ids', store', hs, fun i => ?_, by simp [hst]⟩
        rw [hi, List.mem_append, List.mem_singleton, or_assoc, eq_comm (a := i)]
        simp [hd]
      | false =>
        obtain ⟨ids', store', hs, hi, hst⟩ := ih ids false
        exact ⟨ids', store', hs, fun i => by simp [hi], by simp [hst, hd]⟩

theorem mem_eventsByPubKeyAndKind {p : String} {k : Nat} {r : String × String} :
    r ∈ db.eventsByPubKeyAndKind p k ↔
      ∃ row, db.events.get? r.1 = some row ∧ row.pubkey = p ∧ row.kind = k ∧
        row.eventJSON = r.2 := by
  simp only [DB.eventsByPubKeyAndKind, List.mem_map, List.mem_filter, decide_eq_true_eq,
    Table.get?_eq_some_iff]
  constructor
  · rintro ⟨⟨i, row⟩, ⟨hm, hp, hk⟩, rfl⟩
    exact ⟨row, hm, hp, hk, rfl⟩
  · rintro ⟨row, hm, hp, hk, hj⟩
    exact ⟨(r.1, row), ⟨hm, hp, hk⟩, by rw [hj]⟩

theorem get?_deleteEvents : ∀ (ids : List String) (db : DB) (i : String),
    (ids.foldl DB.deleteEventByID db).events.get? i =
      if i ∈ ids then none else db.events.get? i
  | [], db, i => by simp
  | id :: ids, db, i => by
    have h : (db.deleteEventByID id).events.get? i = if i = id then none else db.events.get? i :=
      Table.get?_erase
    rw [List.foldl_cons, get?_deleteEvents ids, h]
    by_cases hi : i = id <;> simp [hi]

theorem tombstones_deleteEvents : ∀ (ids : List String) (db : DB),
    (ids.foldl DB.deleteEventByID db).tombstones = db.tombstones
  | [], _ => rfl
  | _ :: ids, _ => tombstones_deleteEvents ids _

/-! ## What a transaction does -/

section Step

variable (hjson : ∀ e ∈ U, N.unmarshal (N.marshal e) = some e)
  (hkinds : ∀ k, N.isReplaceable k = true → N.isAddressable k = false)

include hjson hkinds

/-- A row that `e` competes with is that of a received event with the same key. -/
theorem competes_iff (hR : R ⊆ U) (h : Received N db R)
    (he : N.isReplaceable e.kind = true ∨ N.isAddressable e.kind = true) {older : Bool}
    {i : String} : (∃ r ∈ db.eventsByPubKeyAndKind e.pubKey e.kind, r.1 = i ∧
        Competes N e older r.2) ↔
      ∃ x ∈ R, x.id = i ∧ Stores N db x ∧ SameKey N x e ∧ N.isOlder x e = older := by
  constructor
  · rintro ⟨r, hr, rfl, p, hp, hd, ho⟩
    obtain ⟨row, hrow, hpk, hk, hj⟩ := mem_eventsByPubKeyAndKind.1 hr
    obtain ⟨x, hx, hid, rfl⟩ := h.rows _ _ hrow
    have hpx : p = x := by
      rw [← hj] at hp
      exact Option.some.inj (hp.symm.trans (hjson x (hR hx)))
    subst hpx
    refine ⟨p, hx, hid, by rw [Stores, hid]; exact hrow, ⟨hpk, hk, ?_⟩, ho⟩
    have hk' : p.kind = e.kind := hk
    rw [hk']
    rcases he with hr | ha
    · exact .inl hr
    · exact .inr ⟨ha, not_not.1 fun hne => hd ⟨ha, hne⟩⟩
  · rintro ⟨x, hx, rfl, hs, hk, ho⟩
    refine ⟨(x.id, N.marshal x), mem_eventsByPubKeyAndKind.2 ⟨_, hs, hk.pubKey, hk.kind, rfl⟩, rfl,
      x, hjson x (hR hx), ?_, ho⟩
    rintro ⟨ha, hne⟩
    rcases hk.key with hr | ⟨-, hd⟩
    · rw [hk.kind] at hr
      rw [hkinds _ hr] at ha
      cases ha
    · exact hne hd

/-- The event is stored in the place of all stored events with its key, or it is not stored: then it
is tombstoned, or an event with its key that is not older is stored. -/
theorem saveEventTx_cases (hR : R ⊆ U) (h : Received N db R) (e : Nostr.Event) :
    ∃ db', saveEventTx N db e = .ok db' ∧ db'.tombstones = db.tombstones ∧
      ((db' = db ∧ (db.eventTombstoned e.pubKey e.id = true ∨
          ∃ x ∈ R, Stores N db x ∧ SameKey N x e ∧ N.isOlder x e = false)) ∨
        ((∀ x ∈ R, Stores N db x → SameKey N x e → N.isOlder x e = true) ∧
          ∀ i row, db'.events.get? i = some row ↔
            (db.events.get? i = some row ∧ ¬∃ x ∈ R, x.id = i ∧ Stores N db x ∧ SameKey N x e) ∨
            (i = e.id ∧ eventRow N e = row ∧ ∀ r, db.events.get? i = some r →
              ∃ x ∈ R, x.id = i ∧ Stores N db x ∧ SameKey N x e))) := by
  unfold saveEventTx
  split
  · rename_i ht
    exact ⟨db, rfl, rfl, .inl ⟨rfl, .inl ht⟩⟩
  · have htomb : ∀ (db : DB) row, (db.insertEvent e.id row).tombstones = db.tombstones := by
      intro db row
      unfold DB.insertEvent
      split <;> rfl
    split
    · rename_i he
      have hdec : ∀ r ∈ db.eventsByPubKeyAndKind e.pubKey e.kind,
          ∃ p, N.unmarshal r.2 = some p := by
        intro r hr
        obtain ⟨row, hrow, -, -, hj⟩ := mem_eventsByPubKeyAndKind.1 hr
        obtain ⟨x, hx, -, rfl⟩ := h.rows _ _ hrow
        exact ⟨x, hj ▸ hjson x (hR hx)⟩
      obtain ⟨ids, store, hscan, hids, hstore⟩ := scanReplaced_ok (e := e) _ [] true hdec
      rw [hscan]
      cases store with
      | false =>
        refine ⟨db, rfl, rfl, .inl ⟨rfl, .inr ?_⟩⟩
        -- some row competes with the event and is not older
        by_contra hn
        refine absurd (hstore.2 ⟨rfl, fun r hr hc => hn ?_⟩) Bool.false_ne_true
        obtain ⟨x, hx, -, hs, hk, ho⟩ :=
          (competes_iff hjson hkinds hR h he).1 ⟨r, hr, rfl, hc⟩
        exact ⟨x, hx, hs, hk, ho⟩
      | true =>
        have hold : ∀ x ∈ R, Stores N db x → SameKey N x e → N.isOlder x e = true := by
          intro x hx hs hk
          rw [← Bool.not_eq_false]
          intro ho
          obtain ⟨r, hr, -, hc⟩ :=
            (competes_iff hjson hkinds hR h he).2 ⟨x, hx, rfl, hs, hk, ho⟩
          exact (hstore.1 rfl).2 r hr hc
        have hdel : ∀ i, i ∈ ids ↔ ∃ x ∈ R, x.id = i ∧ Stores N db x ∧ SameKey N x e := by
          intro i
          rw [hids, competes_iff hjson hkinds hR h he]
          simp only [List.not_mem_nil, false_or]
          constructor
          · rintro ⟨x, hx, hid, hs, hk, -⟩
            exact ⟨x, hx, hid, hs, hk⟩
          · rintro ⟨x, hx, hid, hs, hk⟩
            exact ⟨x, hx, hid, hs, hk, hold x hx hs hk⟩
        refine ⟨_, rfl, (htomb _ _).trans (tombstones_deleteEvents ids db), .inr ⟨hold, ?_⟩⟩
        intro i row
        rw [get?_insertEvent, get?_deleteEvents, get?_deleteEvents, ← hdel]
        by_cases hi : i ∈ ids
        · by_cases hie : i = e.id
          · subst hie
            simp [hi]
          · simp [hi, hie]
        · by_cases hie : i = e.id
          · subst hie
            cases hg : db.events.get? e.id <;> simp [hi]
          · simp [hi, hie]
    · rename_i he
      -- a regular event competes with none
      have hnone : ∀ x, ¬SameKey N x e := by
        intro x hk
        have := hk.key
        rw [hk.kind] at this
        exact he (this.imp_right And.left)
      refine ⟨_, rfl, htomb _ _, .inr ⟨fun x _ _ hk => absurd hk (hnone x), ?_⟩⟩
      intro i row
      rw [get?_insertEvent]
      simp only [hnone, and_false, exists_false, not_false_iff, and_true, imp_false]
      by_cases hie : i = e.id
      · subst hie
        cases hg : db.events.get? e.id <;> simp
      · simp [hie]

end Step

/-! ## Deletions -/

/-- What a call does after it has stored its event: the rows it keeps, and the new tombstones. -/
structure Purged (N : Nostr.Library) (e : Nostr.Event) (db db' : DB) : Prop where
  rows : ∀ i row, db'.events.get? i = some row → db.events.get? i = some row
  kept : ∀ i row, db.events.get? i = some row →
    ¬(e.kind = 5 ∧ e.pubKey = row.pubkey ∧ i ∈ targets N e) → db'.events.get? i = some row
  tombstones : ∀ p i, db'.eventTombstoned p i = true →
    db.eventTombstoned p i = true ∨ (e.kind = 5 ∧ e.pubKey = p ∧ i ∈ targets N e)

theorem purged_refl : Purged N e db db :=
  ⟨fun _ _ h => h, fun _ _ h _ => h, fun _ _ h => .inl h⟩

theorem purged_deletions (hk : e.kind = 5) :
    Purged N e db ((targets N e).foldl (applyDeletion e) db) := by
  obtain ⟨ht, he⟩ := applyDeletions (e := e) (targets N e) db
  refine ⟨?_, ?_, ?_⟩
  · intro i row h
    rw [he, Option.filter_eq_some_iff] at h
    exact h.1
  · intro i row h hn
    rw [he, Option.filter_eq_some_iff]
    refine ⟨h, ?_⟩
    simp only [Bool.not_eq_true', decide_eq_false_iff_not]
    rintro ⟨hm, hp⟩
    exact hn ⟨hk, hp.symm, hm⟩
  · intro p i h
    rw [ht] at h
    exact h.imp_right fun ⟨hp, hm⟩ => ⟨hk, hp, hm⟩

theorem exec_purged {c : Call} {db₁ : DB} (h : saveEventTx N db c.event = .ok db₁) :
    ∃ db', c.exec N db = .ok db' ∧ Purged N c.event db₁ db' := by
  cases c with
  | saveEvent e => exact ⟨db₁, h, purged_refl⟩
  | saveEventAndApplyDeletion e =>
    have h' : saveEventTx N db e = .ok db₁ := h
    refine ⟨_, by rw [Call.exec, saveEventAndApplyDeletion, h']; rfl, ?_⟩
    split
    · rename_i hk
      exact purged_deletions hk
    · exact purged_refl

/-! ## The invariants -/

/-- At most one event of each key is stored. -/
def Unique (N : Nostr.Library) (db : DB) (U : Set Nostr.Event) : Prop :=
  ∀ x ∈ U, ∀ y ∈ U, Stores N db x → Stores N db y → SameKey N x y → x.id = y.id

/-- No deletion in `R` by the owner of the key of `e` names an event of that key. -/
def Unnamed (N : Nostr.Library) (R : Set Nostr.Event) (e : Nostr.Event) : Prop :=
  ∀ x ∈ R, SameKey N x e → ¬Tombstoned N R x.pubKey x.id

/-- The newest event of the key of `e` is stored. -/
def Newest (N : Nostr.Library) (db : DB) (R : Set Nostr.Event) (e : Nostr.Event) : Prop :=
  ∃ m ∈ R, SameKey N m e ∧ Stores N db m ∧
    ∀ x ∈ R, SameKey N x e → x.id = m.id ∨ N.isOlder x m = true

theorem Tombstoned.mono {R' : Set Nostr.Event} {p i : String} (hR : R ⊆ R')
    (h : Tombstoned N R p i) : Tombstoned N R' p i := by
  obtain ⟨d, hd, hn⟩ := h
  exact ⟨d, hR hd, hn⟩

theorem Unnamed.mono {R' : Set Nostr.Event} (hR : R ⊆ R') (h : Unnamed N R' e) : Unnamed N R e :=
  fun x hx hk ht => h x (hR hx) hk (ht.mono hR)

/-- A row is that of one event. -/
theorem eq_of_eventRow (hjson : ∀ e ∈ U, N.unmarshal (N.marshal e) = some e) (hx : x ∈ U)
    (hy : y ∈ U) (hs : eventRow N x = eventRow N y) : x = y := by
  have hm : N.marshal x = N.marshal y := congrArg EventRow.eventJSON hs
  have hj := hjson x hx
  rw [hm, hjson y hy] at hj
  exact (Option.some.inj hj).symm

theorem Received.mem (hjson : ∀ e ∈ U, N.unmarshal (N.marshal e) = some e) (hR : R ⊆ U)
    (h : Received N db R) (hx : x ∈ U) (hs : Stores N db x) : x ∈ R := by
  obtain ⟨y, hy, -, hrow⟩ := h.rows _ _ hs
  rw [← eq_of_eventRow hjson (hR hy) hx hrow]
  exact hy

/-- A stored event that no deletion names stays. -/
theorem Purged.stores (h : Purged N e db db') (hs : Stores N db x)
    (hn : ¬Tombstoned N (insert e R) x.pubKey x.id) : Stores N db' x :=
  h.kept _ _ hs fun ⟨hk, hp, ht⟩ => hn ⟨e, .inl rfl, hk, hp, ht⟩

/-- The events that the calls pass. -/
def passedEvents (cs : List Call) : Set Nostr.Event := {e | ∃ c ∈ cs, c.event = e}

/-- The invariants of a run that receives events of `U` only. -/
structure Kept (N : Nostr.Library) (U : Set Nostr.Event) (db : DB) (R : Set Nostr.Event) :
    Prop where
  sub : R ⊆ U
  received : Received N db R
  unique : Unique N db U
  newest : Ordered N U → Identified N U →
    ∀ e ∈ R, SameKey N e e → Unnamed N R e → Newest N db R e

theorem kept_empty : Kept N U .empty ∅ where
  sub := Set.empty_subset U
  received := ⟨fun _ _ h => (nomatch h), fun _ _ h => (nomatch h)⟩
  unique _ _ _ _ h := nomatch h
  newest _ _ _ h := h.elim

section Run

variable (hjson : ∀ e ∈ U, N.unmarshal (N.marshal e) = some e)
  (hkinds : ∀ k, N.isReplaceable k = true → N.isAddressable k = false)

include hjson hkinds

theorem Received.step {c : Call} (hR : R ⊆ U) (h : Received N db R) :
    Received N (db.after N c) (insert c.event R) := by
  obtain ⟨db₁, htx, htomb, hcases⟩ := saveEventTx_cases hjson hkinds hR h c.event
  obtain ⟨db₂, hexec, hp⟩ := exec_purged htx
  have hafter : db.after N c = db₂ := by rw [DB.after, hexec]
  rw [hafter]
  refine ⟨?_, ?_⟩
  · intro i row hrow
    have hrow₁ := hp.rows i row hrow
    rcases hcases with ⟨rfl, -⟩ | ⟨-, hget⟩
    · obtain ⟨x, hx, hid⟩ := h.rows i row hrow₁
      exact ⟨x, .inr hx, hid⟩
    · rcases (hget i row).1 hrow₁ with ⟨hold, -⟩ | ⟨rfl, rfl, -⟩
      · obtain ⟨x, hx, hid⟩ := h.rows i row hold
        exact ⟨x, .inr hx, hid⟩
      · exact ⟨c.event, .inl rfl, rfl, rfl⟩
  · intro p i ht
    rw [tombstoned_insert]
    rcases hp.tombstones p i ht with ht₁ | hn
    · refine .inr (h.tombstones p i ?_)
      rw [DB.eventTombstoned, ← htomb]
      exact ht₁
    · exact .inl hn

theorem Unique.step {c : Call} (hR : R ⊆ U) (hc : c.event ∈ U) (h : Received N db R)
    (hu : Unique N db U) : Unique N (db.after N c) U := by
  obtain ⟨db₁, htx, -, hcases⟩ := saveEventTx_cases hjson hkinds hR h c.event
  obtain ⟨db₂, hexec, hp⟩ := exec_purged htx
  have hafter : db.after N c = db₂ := by rw [DB.after, hexec]
  rw [hafter]
  intro x hx y hy hsx hsy hk
  have hx₁ := hp.rows _ _ hsx
  have hy₁ := hp.rows _ _ hsy
  rcases hcases with ⟨rfl, -⟩ | ⟨-, hget⟩
  · exact hu x hx y hy hx₁ hy₁ hk
  · -- the stored events with the key of the new one have gone
    have hgone : ∀ z ∈ U, SameKey N z c.event → ¬(Stores N db z ∧ ¬∃ w ∈ R, w.id = z.id ∧
        Stores N db w ∧ SameKey N w c.event) := by
      rintro z hz hkz ⟨hsz, hn⟩
      exact hn ⟨z, h.mem hjson hR hz hsz, rfl, hsz, hkz⟩
    rcases (hget _ _).1 hx₁ with hxo | ⟨hxid, hxe, -⟩
    · rcases (hget _ _).1 hy₁ with hyo | ⟨hyid, hye, -⟩
      · exact hu x hx y hy hxo.1 hyo.1 hk
      · rw [← eq_of_eventRow hjson hc hy hye] at hk
        exact absurd hxo (hgone x hx hk)
    · rcases (hget _ _).1 hy₁ with hyo | ⟨hyid, -, -⟩
      · rw [← eq_of_eventRow hjson hc hx hxe] at hk
        exact absurd hyo (hgone y hy hk.symm)
      · exact hxid.trans hyid.symm

theorem Newest.step (hord : Ordered N U) (hid : Identified N U) {c : Call} (hR : R ⊆ U)
    (hc : c.event ∈ U) (h : Received N db R) (hu : Unique N db U)
    (ih : ∀ e ∈ R, SameKey N e e → Unnamed N R e → Newest N db R e) :
    ∀ e ∈ insert c.event R, SameKey N e e → Unnamed N (insert c.event R) e →
      Newest N (db.after N c) (insert c.event R) e := by
  obtain ⟨db₁, htx, htomb, hcases⟩ := saveEventTx_cases hjson hkinds hR h c.event
  obtain ⟨db₂, hexec, hp⟩ := exec_purged htx
  have hafter : db.after N c = db₂ := by rw [DB.after, hexec]
  rw [hafter]
  intro e he hself hun
  have hsub : R ⊆ insert c.event R := Set.subset_insert _ _
  by_cases hk : SameKey N c.event e
  · -- the new event competes for the key
    have hnt : ¬Tombstoned N (insert c.event R) c.event.pubKey c.event.id := hun _ (.inl rfl) hk
    have hnew : ∀ x ∈ R, SameKey N x e → Newest N db R x := fun x hx hkx =>
      ih x hx (hkx.trans hkx.symm) fun y hy hky =>
        hun.mono hsub y hy (hky.trans hkx)
    rcases hcases with ⟨rfl, ht | ⟨x, hx, hsx, hkx, ho⟩⟩ | ⟨hold, hget⟩
    · exact absurd ((h.tombstones _ _ ht).mono hsub) hnt
    · obtain ⟨m, hm, hkm, hsm, hmax⟩ := hnew x hx (hkx.trans hk)
      have hmx : m = x := by
        have := hu m (hR hm) x (hR hx) hsm hsx hkm
        rw [Stores, this] at hsm
        exact eq_of_eventRow hjson (hR hm) (hR hx) (Option.some.inj (hsm.symm.trans hsx))
      subst hmx
      have hke : SameKey N m e := hkx.trans hk
      refine ⟨m, .inr hm, hke, hp.stores hsm (hun m (.inr hm) hke), ?_⟩
      rintro y (rfl | hy) hky
      · by_cases hne : c.event.id = m.id
        · exact .inl hne
        · refine .inr ((hord.total _ hc _ (hR hm) hne).resolve_right ?_)
          rw [ho]
          exact Bool.false_ne_true
      · exact hmax y hy (hky.trans hke.symm)
    · have hstore : Stores N db₁ c.event := by
        refine (hget _ _).2 (.inr ⟨rfl, rfl, fun r hr => ?_⟩)
        obtain ⟨z, hz, hzid, rfl⟩ := h.rows _ _ hr
        obtain ⟨hpk, hkd, hd⟩ := hid z (hR hz) _ hc hzid
        refine ⟨z, hz, hzid, by rw [Stores, hzid]; exact hr, hpk, hkd, ?_⟩
        have := hk.key
        rw [hkd]
        exact this.imp_right fun ⟨ha, _⟩ => ⟨ha, hd⟩
      refine ⟨c.event, .inl rfl, hk, hp.stores hstore hnt, ?_⟩
      rintro y (rfl | hy) hky
      · exact .inl rfl
      · obtain ⟨m, hm, hkm, hsm, hmax⟩ := hnew y hy hky
        have hlt := hold m hm hsm ((hkm.trans hky).trans hk.symm)
        by_cases hne : y.id = c.event.id
        · exact .inl hne
        · right
          rcases hmax y hy (hky.trans hky.symm) with hym | hym
          · -- the same event as the newest before: were it newer than the new one, so would that be
            refine (hord.total _ (hR hy) _ hc hne).resolve_right fun hgt => ?_
            exact hord.ne _ (hR hm) _ (hR hy) (hord.trans _ (hR hm) _ hc _ (hR hy) hlt hgt) hym.symm
          · exact hord.trans _ (hR hy) _ (hR hm) _ hc hym hlt
  · -- the key is another one
    have heR : e ∈ R := he.resolve_left fun h' => hk (h' ▸ hself)
    obtain ⟨m, hm, hkm, hsm, hmax⟩ := ih e heR hself (hun.mono hsub)
    have hsm₁ : Stores N db₁ m := by
      rcases hcases with ⟨rfl, -⟩ | ⟨-, hget⟩
      · exact hsm
      · refine (hget _ _).2 (.inl ⟨hsm, ?_⟩)
        rintro ⟨x, hx, hxid, hsx, hkx⟩
        rw [Stores, hxid] at hsx
        have hxm := eq_of_eventRow hjson (hR hx) (hR hm) (Option.some.inj (hsx.symm.trans hsm))
        exact hk (hkx.symm.trans (hxm ▸ hkm))
    refine ⟨m, .inr hm, hkm, hp.stores hsm₁ (hun m (.inr hm) hkm), ?_⟩
    rintro y (rfl | hy) hky
    · exact absurd hky hk
    · exact hmax y hy hky

theorem Kept.step {c : Call} (hc : c.event ∈ U) (h : Kept N U db R) :
    Kept N U (db.after N c) (insert c.event R) where
  sub := Set.insert_subset hc h.sub
  received := h.received.step hjson hkinds h.sub
  unique := h.unique.step hjson hkinds h.sub hc h.received
  newest hord hid := Newest.step hjson hkinds hord hid h.sub hc h.received h.unique
    (h.newest hord hid)

theorem Kept.run : ∀ (cs : List Call) {db : DB} {R : Set Nostr.Event}, Kept N U db R →
    (∀ c ∈ cs, c.event ∈ U) → Kept N U (cs.foldl (DB.after N) db) (R ∪ passedEvents cs)
  | [], db, R, h, _ => by simpa [passedEvents] using h
  | c :: cs, db, R, h, hU => by
    have hset : R ∪ passedEvents (c :: cs) = insert c.event R ∪ passedEvents cs := by
      ext e
      simp only [passedEvents, Set.mem_union, Set.mem_insert_iff, Set.mem_ofPred_eq, List.mem_cons,
        exists_eq_or_imp, eq_comm (a := e)]
      rw [or_left_comm, or_assoc]
    rw [hset]
    exact Kept.run cs (h.step hjson hkinds (hU c List.mem_cons_self)) fun c' hc' =>
      hU c' (List.mem_cons_of_mem c hc')

end Run

/-- After any calls, what is stored was received, one event of each key is stored, and where no
deletion names an event of the key it is the newest of those received. -/
theorem replaceable_converges (cs : List Call)
    (hjson : ∀ e ∈ passedEvents cs, N.unmarshal (N.marshal e) = some e)
    (hkinds : ∀ k, N.isReplaceable k = true → N.isAddressable k = false) :
    (∀ i row, (cs.foldl (DB.after N) .empty).events.get? i = some row →
      ∃ e ∈ passedEvents cs, e.id = i ∧ eventRow N e = row) ∧
    (∀ x ∈ passedEvents cs, ∀ y ∈ passedEvents cs, Stores N (cs.foldl (DB.after N) .empty) x →
      Stores N (cs.foldl (DB.after N) .empty) y → SameKey N x y → x.id = y.id) ∧
    (Ordered N (passedEvents cs) → Identified N (passedEvents cs) →
      ∀ e ∈ passedEvents cs, SameKey N e e → Unnamed N (passedEvents cs) e →
        Newest N (cs.foldl (DB.after N) .empty) (passedEvents cs) e) := by
  have h := Kept.run hjson hkinds cs kept_empty fun c hc => ⟨c, hc, rfl⟩
  rw [Set.empty_union] at h
  exact ⟨h.received.rows, h.unique, h.newest⟩

/-- The profile of an author, at a time. -/
def sampleProfile (createdAt : Int) : Nostr.Event where
  id := Nostr.Library.plain.hash "k" createdAt 0 [] ""
  pubKey := "k"
  createdAt := createdAt
  kind := 0

/-- The newer profile arrives before the older one. -/
def sampleCalls : List Call :=
  [.saveEventAndApplyDeletion (sampleProfile 2), .saveEvent (sampleProfile 1)]

theorem mem_sampleCalls (h : e ∈ passedEvents sampleCalls) :
    e = sampleProfile 2 ∨ e = sampleProfile 1 := by
  simpa [passedEvents, sampleCalls, Call.event, eq_comm] using h

theorem sampleProfile_ne : (sampleProfile 1).id ≠ (sampleProfile 2).id := by
  intro h
  have ht := (Nostr.Library.plain_collisionFree (sampleProfile 1) (sampleProfile 2) h).2.1
  exact absurd ht (by decide)

theorem isOlder_sampleProfile {t u : Int} (h : u < t) :
    Nostr.Library.plain.isOlder (sampleProfile t) (sampleProfile u) = false ∧
      Nostr.Library.plain.isOlder (sampleProfile u) (sampleProfile t) = true ∧
      Nostr.Library.plain.isOlder (sampleProfile t) (sampleProfile t) = false := by
  have hne : t ≠ u := by omega
  have hle : ¬t < u := by omega
  simp only [Nostr.Library.plain, sampleProfile, decide_eq_false_iff_not, decide_eq_true_eq, not_or,
    not_and, lt_self_iff_false, not_false_iff, implies_true, and_true]
  exact ⟨⟨hle, fun he => absurd he hne⟩, .inl h⟩

theorem sampleCalls_ordered : Ordered Nostr.Library.plain (passedEvents sampleCalls) := by
  obtain ⟨h21, h12, h22⟩ := isOlder_sampleProfile (t := 2) (u := 1) (by decide)
  have h11 := (isOlder_sampleProfile (t := 1) (u := 0) (by decide)).2.2
  refine ⟨?_, ?_, ?_⟩
  · intro a ha b hb
    rcases mem_sampleCalls ha with rfl | rfl <;> rcases mem_sampleCalls hb with rfl | rfl <;>
      simp [h11, h22, h21, sampleProfile_ne]
  · intro a ha b hb c hc
    rcases mem_sampleCalls ha with rfl | rfl <;> rcases mem_sampleCalls hb with rfl | rfl <;>
      rcases mem_sampleCalls hc with rfl | rfl <;> simp [h11, h22, h21, h12]
  · intro a ha b hb
    rcases mem_sampleCalls ha with rfl | rfl <;> rcases mem_sampleCalls hb with rfl | rfl <;>
      simp [h12]

theorem sampleCalls_identified : Identified Nostr.Library.plain (passedEvents sampleCalls) := by
  intro a ha b hb _
  rcases mem_sampleCalls ha with rfl | rfl <;> rcases mem_sampleCalls hb with rfl | rfl <;>
    exact ⟨rfl, rfl, rfl⟩

/-- The older profile, saved last, leaves the newer one stored. -/
theorem replaceable_converges_profile :
    Stores Nostr.Library.plain (sampleCalls.foldl (DB.after .plain) .empty) (sampleProfile 2) := by
  obtain ⟨-, -, h⟩ := replaceable_converges (N := .plain) sampleCalls
    (fun e _ => by
      rw [Nostr.Library.plain_unmarshal, Nostr.Library.plain_marshal]
      exact Nostr.eventWire.decode_encode e)
    (fun k hk => by
      simp only [Nostr.Library.plain, decide_eq_true_eq, decide_eq_false_iff_not] at hk ⊢
      omega)
  have hin : sampleProfile 2 ∈ passedEvents sampleCalls := ⟨_, List.mem_cons_self, rfl⟩
  have hself : SameKey Nostr.Library.plain (sampleProfile 2) (sampleProfile 2) :=
    ⟨rfl, rfl, .inl rfl⟩
  have hun : Unnamed Nostr.Library.plain (passedEvents sampleCalls) (sampleProfile 2) := by
    rintro x - - ⟨d, hd, hk, -⟩
    rcases mem_sampleCalls hd with rfl | rfl <;> cases hk
  obtain ⟨m, hm, -, hs, hmax⟩ :=
    h sampleCalls_ordered sampleCalls_identified (sampleProfile 2) hin hself hun
  rcases mem_sampleCalls hm with rfl | rfl
  · exact hs
  · rcases hmax (sampleProfile 2) hin hself with he | ho
    · exact absurd he.symm sampleProfile_ne
    · rw [(isOlder_sampleProfile (by decide)).1] at ho
      cases ho

end Relay
