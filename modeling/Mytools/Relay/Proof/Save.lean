import Mathlib.Data.Set.Insert
import Mytools.Bridge.NostrPlain
import Mytools.Relay.Store

/-!
# What the relay holds

A set of regular events has been saved, in any order (`Holds`): the relay has a tombstone for every
target of a deletion, and it stores the events that no deletion of their author names. An event that
is named before it arrives is not stored, but if it is a deletion itself its targets still go.
-/

namespace Relay

open Lib

variable {N : Nostr.Library} {db db' : DB} {D : Set Nostr.Event} {e e' : Nostr.Event}

/-- A kind of which the relay keeps every event. -/
structure Regular (N : Nostr.Library) (kind : Nat) : Prop where
  notReplaceable : N.isReplaceable kind = false
  notAddressable : N.isAddressable kind = false

/-- A regular event under its own ID. -/
structure Proper (N : Nostr.Library) (e : Nostr.Event) : Prop where
  regular : Regular N e.kind
  id : e.id = N.getID e

/-- A deletion in the set names the event `i` of `p`. -/
def Tombstoned (N : Nostr.Library) (D : Set Nostr.Event) (p i : String) : Prop :=
  ∃ d ∈ D, d.kind = 5 ∧ d.pubKey = p ∧ i ∈ targets N d

structure Holds (N : Nostr.Library) (db : DB) (D : Set Nostr.Event) : Prop where
  proper : ∀ e ∈ D, Proper N e
  rows : ∀ i row, db.events.get? i = some row →
    ∃ e ∈ D, e.id = i ∧ eventRow N e = row
  tombstones : ∀ p i, db.eventTombstoned p i = true ↔ Tombstoned N D p i
  stored : ∀ e ∈ D, (db.events.get? e.id).isSome = true ↔ ¬Tombstoned N D e.pubKey e.id

theorem holds_empty : Holds N .empty ∅ where
  proper e h := h.elim
  rows i row h := by cases h
  tombstones p i := ⟨fun h => (nomatch h), fun ⟨_, h, _⟩ => h.elim⟩
  stored e h := h.elim

/-- Events with one ID have the same author and kind. -/
theorem Proper.same (hcf : N.CollisionFree) (h : Proper N e) (h' : Proper N e')
    (hid : e.id = e'.id) : e.pubKey = e'.pubKey ∧ e.kind = e'.kind := by
  rw [h.id, h'.id] at hid
  obtain ⟨hp, -, hk, -, -⟩ := hcf e e' hid
  exact ⟨hp, hk⟩

theorem tombstoned_insert {p i : String} : Tombstoned N (insert e D) p i ↔
    (e.kind = 5 ∧ e.pubKey = p ∧ i ∈ targets N e) ∨ Tombstoned N D p i := by
  simp only [Tombstoned, Set.mem_insert_iff]
  constructor
  · rintro ⟨d, rfl | hd, h⟩
    · exact .inl h
    · exact .inr ⟨d, hd, h⟩
  · rintro (h | ⟨d, hd, h⟩)
    · exact ⟨e, .inl rfl, h⟩
    · exact ⟨d, .inr hd, h⟩

/-! ## Deletions -/

theorem get?_deleteOwnedEvent {id pubkey i : String} :
    (db.deleteOwnedEvent id pubkey).events.get? i =
      (db.events.get? i).filter fun row => !(i = id ∧ row.pubkey = pubkey) :=
  Table.get?_filter

theorem eventTombstoned_insert {owner target p i : String} {t : Tombstone} :
    (db.insertDeletionTombstone owner target t).eventTombstoned p i = true ↔
      db.eventTombstoned p i = true ∨ (p = owner ∧ i = target) := by
  unfold DB.insertDeletionTombstone
  split
  · rename_i h
    constructor
    · exact .inl
    · rintro (h' | ⟨rfl, rfl⟩)
      · exact h'
      · exact h
  · simp only [DB.eventTombstoned, Table.get?_set, Prod.mk.injEq]
    split
    · rename_i h
      simp [h]
    · rename_i h
      simp [h]

/-- The tombstones and the events after the targets `ts` of a deletion. -/
theorem applyDeletions : ∀ (ts : List String) (db : DB),
    (∀ p i, (ts.foldl (applyDeletion e) db).eventTombstoned p i = true ↔
      db.eventTombstoned p i = true ∨ (e.pubKey = p ∧ i ∈ ts)) ∧
    ∀ i, (ts.foldl (applyDeletion e) db).events.get? i =
      (db.events.get? i).filter fun row => !(i ∈ ts ∧ row.pubkey = e.pubKey)
  | [], db => by
    refine ⟨by simp, ?_⟩
    intro i
    show db.events.get? i = _
    cases db.events.get? i <;> simp [Option.filter]
  | t :: ts, db => by
    obtain ⟨ht, he⟩ := applyDeletions ts (applyDeletion e db t)
    refine ⟨?_, ?_⟩
    · intro p i
      have h₁ : (applyDeletion e db t).eventTombstoned p i = true ↔
          db.eventTombstoned p i = true ∨ (p = e.pubKey ∧ i = t) := eventTombstoned_insert
      rw [List.foldl_cons, ht, h₁, List.mem_cons]
      tauto
    · intro i
      have h₁ : (applyDeletion e db t).events.get? i =
          (db.events.get? i).filter fun row => !(i = t ∧ row.pubkey = e.pubKey) := by
        have hs :
            (db.insertDeletionTombstone e.pubKey t ⟨e.id, e.createdAt⟩).events = db.events := by
          unfold DB.insertDeletionTombstone
          split <;> rfl
        rw [applyDeletion, get?_deleteOwnedEvent, hs]
      rw [List.foldl_cons, he, h₁, Option.filter_filter]
      congr 1
      funext row
      by_cases hp : row.pubkey = e.pubKey <;> simp [hp]

/-! ## Saving -/

theorem get?_insertEvent {id i : String} {row : EventRow} :
    (db.insertEvent id row).events.get? i =
      if i = id ∧ db.events.get? id = none then some row else db.events.get? i := by
  unfold DB.insertEvent
  cases h : db.events.get? id with
  | some r => simp
  | none =>
    simp only [Option.isSome_none, Bool.false_eq_true, if_false, and_true]
    exact Table.get?_set

theorem saveEventTx_regular (he : Regular N e.kind) :
    saveEventTx N db e = .ok (if db.eventTombstoned e.pubKey e.id then db
      else db.insertEvent e.id (eventRow N e)) := by
  unfold saveEventTx
  split
  · rfl
  · rw [if_neg (by simp [he.notReplaceable, he.notAddressable])]

/-- What a transaction leaves of the event with an ID, and which tombstones it leaves. -/
theorem save_regular (db : DB) (he : Regular N e.kind) :
    ∃ db', saveEventAndApplyDeletion N db e = .ok db' ∧
      (∀ p i, db'.eventTombstoned p i = true ↔ db.eventTombstoned p i = true ∨
        (e.kind = 5 ∧ e.pubKey = p ∧ i ∈ targets N e)) ∧
      ∀ i, db'.events.get? i =
        (if i = e.id ∧ db.events.get? e.id = none ∧ db.eventTombstoned e.pubKey e.id = false then
          some (eventRow N e) else db.events.get? i).filter fun row =>
            !(e.kind = 5 ∧ i ∈ targets N e ∧ row.pubkey = e.pubKey) := by
  have hins : ∀ i, (if db.eventTombstoned e.pubKey e.id then db
      else db.insertEvent e.id (eventRow N e)).events.get? i =
        if i = e.id ∧ db.events.get? e.id = none ∧ db.eventTombstoned e.pubKey e.id = false then
          some (eventRow N e) else db.events.get? i := by
    intro i
    cases ht : db.eventTombstoned e.pubKey e.id with
    | true => simp
    | false =>
      simp only [Bool.false_eq_true, if_false, and_true]
      exact get?_insertEvent
  have htomb : ∀ p i, (if db.eventTombstoned e.pubKey e.id then db
      else db.insertEvent e.id (eventRow N e)).eventTombstoned p i = db.eventTombstoned p i := by
    intro p i
    split
    · rfl
    · unfold DB.insertEvent
      split <;> rfl
  refine ⟨_, by rw [saveEventAndApplyDeletion, saveEventTx_regular he]; rfl, ?_, ?_⟩
  · intro p i
    split
    · rename_i hk
      rw [(applyDeletions (targets N e) _).1, htomb]
      simp [hk]
    · rename_i hk
      rw [htomb]
      simp [hk]
  · intro i
    split
    · rename_i hk
      rw [(applyDeletions (targets N e) _).2, hins]
      simp [hk]
    · rename_i hk
      rw [hins]
      apply Option.ext
      intro row
      rw [Option.filter_eq_some_iff]
      simp [hk]

/-- An event under whose ID a row is stored is not tombstoned. -/
theorem Holds.present (hcf : N.CollisionFree) (h : Holds N db D) (he : Proper N e)
    (hs : (db.events.get? e.id).isSome = true) : ¬Tombstoned N D e.pubKey e.id := by
  obtain ⟨row, hrow⟩ := Option.isSome_iff_exists.1 hs
  obtain ⟨x, hx, hid, -⟩ := h.rows e.id row hrow
  rw [← ((h.proper x hx).same hcf he hid).1, ← hid]
  refine (h.stored x hx).1 ?_
  rw [hid]
  exact hs

theorem Holds.save (hcf : N.CollisionFree) (h : Holds N db D) (he : Proper N e) :
    ∃ db', saveEventAndApplyDeletion N db e = .ok db' ∧ Holds N db' (insert e D) := by
  obtain ⟨db', hsave, htomb, hget⟩ := save_regular db he.regular
  have hproper : ∀ x ∈ insert e D, Proper N x := by
    rintro x (rfl | hx)
    · exact he
    · exact h.proper x hx
  refine ⟨db', hsave, hproper, ?_, ?_, ?_⟩
  · intro i row hrow
    rw [hget, Option.filter_eq_some_iff] at hrow
    obtain ⟨hrow, -⟩ := hrow
    split at hrow
    · rename_i hi
      cases hrow
      exact ⟨e, .inl rfl, hi.1.symm, rfl⟩
    · obtain ⟨x, hx, hr⟩ := h.rows i row hrow
      exact ⟨x, .inr hx, hr⟩
  · intro p i
    rw [htomb, tombstoned_insert, h.tombstones, or_comm]
  · intro x hx
    -- the row of an event belongs to its author, so that the deletion finds it
    have howner : ∀ row, (if x.id = e.id ∧ db.events.get? e.id = none ∧
        db.eventTombstoned e.pubKey e.id = false then some (eventRow N e)
        else db.events.get? x.id) = some row → row.pubkey = x.pubKey := by
      intro row hrow
      split at hrow
      · rename_i hi
        cases hrow
        exact (he.same hcf (hproper x hx) hi.1.symm).1
      · obtain ⟨y, hy, hid, rfl⟩ := h.rows x.id row hrow
        exact ((h.proper y hy).same hcf (hproper x hx) hid).1
    have hbefore : (if x.id = e.id ∧ db.events.get? e.id = none ∧
        db.eventTombstoned e.pubKey e.id = false then some (eventRow N e)
        else db.events.get? x.id).isSome = true ↔ ¬Tombstoned N D x.pubKey x.id := by
      by_cases hid : x.id = e.id
      · rw [hid, ((hproper x hx).same hcf he hid).1]
        split
        · rename_i hi
          rw [← h.tombstones, hi.2.2]
          simp
        · rename_i hi
          constructor
          · exact h.present hcf he
          · intro hn
            rw [← h.tombstones, Bool.not_eq_true] at hn
            rw [Option.isSome_iff_ne_none]
            exact fun hnone => hi ⟨rfl, hnone, hn⟩
      · rw [if_neg (fun hi => hid hi.1)]
        rcases hx with rfl | hx
        · exact absurd rfl hid
        · exact h.stored x hx
    rw [tombstoned_insert, not_or, ← hbefore, hget]
    constructor
    · intro hs
      obtain ⟨row, hrow⟩ := Option.isSome_iff_exists.1 hs
      rw [Option.filter_eq_some_iff] at hrow
      refine ⟨?_, by rw [hrow.1]; rfl⟩
      rintro ⟨hd, hpk, hm⟩
      have := hrow.2
      simp [hd, hm, howner row hrow.1, hpk] at this
    · rintro ⟨hn, hs⟩
      obtain ⟨row, hrow⟩ := Option.isSome_iff_exists.1 hs
      rw [Option.isSome_iff_exists]
      refine ⟨row, Option.filter_eq_some_iff.2 ⟨hrow, ?_⟩⟩
      rw [Bool.not_eq_true', decide_eq_false_iff_not]
      rintro ⟨hd, hm, hpk⟩
      rw [howner row hrow] at hpk
      exact hn ⟨hd, hpk.symm, hm⟩

/-! ## Any order -/

theorem Holds.saveAll (hcf : N.CollisionFree) : ∀ (es : List Nostr.Event) {db : DB}
    {D : Set Nostr.Event}, Holds N db D → (∀ e ∈ es, Proper N e) →
    ∃ db', es.foldlM (saveEventAndApplyDeletion N) db = .ok db' ∧ Holds N db' (D ∪ {e | e ∈ es})
  | [], db, D, h, _ => ⟨db, rfl, by simpa using h⟩
  | e :: es, db, D, h, hp => by
    obtain ⟨db₁, hsave, h₁⟩ := h.save hcf (hp e List.mem_cons_self)
    obtain ⟨db₂, hall, h₂⟩ := saveAll hcf es h₁ fun x hx => hp x (List.mem_cons_of_mem e hx)
    refine ⟨db₂, by rw [List.foldlM_cons, hsave]; exact hall, ?_⟩
    have hset : D ∪ {x | x ∈ e :: es} = insert e D ∪ {x | x ∈ es} := by
      ext x
      simp only [Set.mem_union, Set.mem_insert_iff, Set.mem_ofPred_eq, List.mem_cons]
      tauto
    rw [hset]
    exact h₂

/-- What is stored at the end depends on the set of events alone. -/
theorem stored_order_independent (hcf : N.CollisionFree) (S : Set Nostr.Event)
    (hS : ∀ e ∈ S, Proper N e) (es : List Nostr.Event) (hes : ∀ e, e ∈ es ↔ e ∈ S) :
    ∃ db, es.foldlM (saveEventAndApplyDeletion N) .empty = .ok db ∧
      (∀ e ∈ S, (db.events.get? e.id).isSome = true ↔
        ¬∃ d ∈ S, d.kind = 5 ∧ d.pubKey = e.pubKey ∧ e.id ∈ targets N d) ∧
      ∀ i row, db.events.get? i = some row → ∃ e ∈ S, e.id = i ∧ eventRow N e = row := by
  obtain ⟨db, hrun, h⟩ := holds_empty.saveAll hcf es fun e he => hS e ((hes e).1 he)
  have hset : ∅ ∪ {e | e ∈ es} = S := by
    ext e
    simp [hes]
  rw [hset] at h
  exact ⟨db, hrun, h.stored, h.rows⟩

def sampleNote : Nostr.Event :=
  { id := Nostr.Library.plain.hash "k" 1 1 [] "", pubKey := "k", createdAt := 1, kind := 1 }

/-- The deletion of `sampleNote` by its author. -/
def sampleRemoval : Nostr.Event where
  id := Nostr.Library.plain.hash "k" 2 5 [["e", sampleNote.id]] ""
  pubKey := "k"
  createdAt := 2
  kind := 5
  tags := [["e", sampleNote.id]]

/-- The deletion arrives first, and its target twice. -/
theorem stored_after_removal :
    ∃ db, [sampleRemoval, sampleNote, sampleNote].foldlM
      (saveEventAndApplyDeletion Nostr.Library.plain) .empty = .ok db ∧
      (db.events.get? sampleNote.id).isSome = false := by
  obtain ⟨db, hrun, hstored, -⟩ := stored_order_independent Nostr.Library.plain_collisionFree
    {e | e = sampleNote ∨ e = sampleRemoval}
    (by rintro e (rfl | rfl) <;> exact ⟨⟨rfl, rfl⟩, rfl⟩)
    [sampleRemoval, sampleNote, sampleNote] (by intro e; simp [or_comm])
  refine ⟨db, hrun, ?_⟩
  rw [Bool.eq_false_iff, Ne, hstored sampleNote (.inl rfl), not_not]
  exact ⟨sampleRemoval, .inr rfl, rfl, rfl, List.mem_singleton.2 rfl⟩

end Relay
