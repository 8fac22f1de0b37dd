import Mytools.Bridge.Bluesky
import Mytools.Bridge.Proof.Publish

/-!
# What `Handle` does

`handle_ok_iff`: a call that returns nil found its work done (`Settled`) and saved the cursor at
most, or it made one write of the store: it published a post, replaced it or withdrew it
(`Outcome`). `Plan` splits a call into what it reads and what it writes: after the write the work
is done (`Plan.settled_after`) and the cursor is the time of the event (`Plan.cursor`).
-/

namespace Bridge.Bluesky

open Lib

variable {N : Nostr.Library} {C : Codec} {s : Syncer} {db db' : DB} {clock : Clock} {e : Event}

namespace Syncer

section
variable (N : Nostr.Library) (C : Codec) (s : Syncer)

/-- The event that a create publishes. -/
def createdEvent (db : DB) (e : Event) : Except HandleErr Nostr.Event :=
  match C.record e.record with
  | none => .error .decodeRecord
  | some r => do
    let uri ← mappedURI e r
    let parents ← s.parents N db (r.reply.getD "")
    let sourceURL ← blueskyPostURL uri
    (postEvent N s.masterSeed (post e.did uri sourceURL (r.content e.did)) parents).mapError .map

/-- The event that an update publishes. -/
def replacementEvent (e : Event) : Except HandleErr Nostr.Event :=
  match C.record e.record with
  | none => .error .decodeRecord
  | some r => do
    let uri ← mappedURI e r
    let sourceURL ← blueskyPostURL uri
    (postEvent N s.masterSeed (post e.did uri sourceURL (r.content e.did)) []).mapError .map

/-- The deletion of the event `id` of an author. -/
def deletionEvent (did id reason : String) (now : Int) : Except HandleErr Nostr.Event := do
  let key ← (deriveKey N s.masterSeed did).mapError .map
  (signedEvent N key (deletionOf id reason now)).mapError .map

/-- The store has the effect of the event. -/
def Settled (db : DB) (e : Event) : Prop :=
  match e.operation with
  | .create => (db.bridgeEvents.get? (s.ref e.uri)).isSome
  | .update => db.operations.get? (s.ref e.uri) = some (e.updateIdentity C)
  | .delete => db.bridgeEvents.get? (s.ref e.uri) = none
  | .other _ => False

/-- What a call of `Handle` for a target's post or repost can do. -/
inductive Outcome (clock : Clock) (db : DB) (e : Event) : DB → Prop
  | settled (h : s.Settled C db e) : Outcome clock db e (s.saveTime db e.timeUS)
  | created {event : Nostr.Event} {db' : DB} (ho : e.operation = .create)
      (hm : db.bridgeEvents.get? (s.ref e.uri) = none) (he : s.createdEvent N C db e = .ok event)
      (hs : SQLiteStore.enqueueEvent N db (s.eventRequest N clock e.uri event e.timeUS "") =
        .ok db') :
      Outcome clock db e db'
  | replaced {old : BridgeEvent} {oldID : String} {deletion replacement : Nostr.Event} {db' : DB}
      (ho : e.operation = .update)
      (hi : db.operations.get? (s.ref e.uri) ≠ some (e.updateIdentity C))
      (hm : db.bridgeEvents.get? (s.ref e.uri) = some old)
      (hid : N.idFromHex old.nostrEventID = some oldID)
      (hd : s.deletionEvent N e.did oldID "source record replaced" clock.signed = .ok deletion)
      (he : s.replacementEvent N C e = .ok replacement)
      (hs : SQLiteStore.enqueueUpdate N db (s.updateRequest N C clock e deletion replacement) =
        .ok db') : Outcome clock db e db'
  | deleted {old : BridgeEvent} {oldID : String} {deletion : Nostr.Event} {db' : DB}
      (ho : e.operation = .delete) (hm : db.bridgeEvents.get? (s.ref e.uri) = some old)
      (hid : N.idFromHex old.nostrEventID = some oldID)
      (hd : s.deletionEvent N e.did oldID "source record deleted" clock.signed = .ok deletion)
      (hs : SQLiteStore.enqueueDelete N db (s.deleteRequest N clock e deletion) = .ok db') :
      Outcome clock db e db'

end

theorem settled_create (ho : e.operation = .create) :
    s.Settled C db e ↔ (db.bridgeEvents.get? (s.ref e.uri)).isSome := by
  rw [Settled, ho]

theorem settled_update (ho : e.operation = .update) :
    s.Settled C db e ↔ db.operations.get? (s.ref e.uri) = some (e.updateIdentity C) := by
  rw [Settled, ho]

theorem settled_delete (ho : e.operation = .delete) :
    s.Settled C db e ↔ db.bridgeEvents.get? (s.ref e.uri) = none := by
  rw [Settled, ho]

/-! ## The branches -/

theorem mapping_eq_none {ref : SourceRef} :
    SQLiteStore.eventMappingBySourceURI db ref = none ↔ db.bridgeEvents.get? ref = none :=
  Option.map_eq_none_iff

theorem publishPost_ok {sourceURI did uri op : String} {c : Content} {timeUS : Int}
    (hm : db.bridgeEvents.get? (s.ref sourceURI) = none) :
    s.publishPost N db clock sourceURI did uri c timeUS op = .ok db' ↔
      ∃ parents url event, s.parents N db c.replyTo = .ok parents ∧ blueskyPostURL uri = .ok url ∧
        postEvent N s.masterSeed (post did uri url c) parents = .ok event ∧
        SQLiteStore.enqueueEvent N db (s.eventRequest N clock sourceURI event timeUS op) =
          .ok db' := by
  rw [publishPost, mapping_eq_none.2 hm]
  simp only [bind_ok_iff, enqueueMappedEvent, mapError_ok_iff]
  constructor
  · rintro ⟨parents, hp, url, hu, event, he, hs⟩
    exact ⟨parents, url, event, hp, hu, he, hs⟩
  · rintro ⟨parents, url, event, hp, hu, he, hs⟩
    exact ⟨parents, hp, url, hu, event, he, hs⟩

theorem createdEvent_ok {event : Nostr.Event} :
    s.createdEvent N C db e = .ok event ↔ ∃ r uri parents url, C.record e.record = some r ∧
      mappedURI e r = .ok uri ∧ s.parents N db (r.content e.did).replyTo = .ok parents ∧
      blueskyPostURL uri = .ok url ∧
      postEvent N s.masterSeed (post e.did uri url (r.content e.did)) parents =
        .ok event := by
  unfold createdEvent
  cases hr : C.record e.record with
  | none => simp
  | some r =>
    simp only [bind_ok_iff, mapError_ok_iff]
    constructor
    · rintro ⟨uri, hu, parents, hp, url, hl, he⟩
      exact ⟨r, uri, parents, url, rfl, hu, hp, hl, he⟩
    · rintro ⟨_, uri, parents, url, hw, hu, hp, hl, he⟩
      cases hw
      exact ⟨uri, hu, parents, hp, url, hl, he⟩

theorem replacementEvent_ok {event : Nostr.Event} :
    s.replacementEvent N C e = .ok event ↔ ∃ r uri url, C.record e.record = some r ∧
      mappedURI e r = .ok uri ∧ blueskyPostURL uri = .ok url ∧
      postEvent N s.masterSeed (post e.did uri url (r.content e.did)) [] = .ok event := by
  unfold replacementEvent
  cases hr : C.record e.record with
  | none => simp
  | some r =>
    simp only [bind_ok_iff, mapError_ok_iff]
    constructor
    · rintro ⟨uri, hu, url, hl, he⟩
      exact ⟨r, uri, url, rfl, hu, hl, he⟩
    · rintro ⟨_, uri, url, hw, hu, hl, he⟩
      cases hw
      exact ⟨uri, hu, url, hl, he⟩

theorem deletionEvent_ok {did id reason : String} {now : Int} {event : Nostr.Event} :
    s.deletionEvent N did id reason now = .ok event ↔
      ∃ key, deriveKey N s.masterSeed did = .ok key ∧
        N.sign key (deletionOf id reason now) = some event := by
  simp only [deletionEvent, bind_ok_iff, mapError_ok_iff, signedEvent_ok]

theorem enqueueReplacement_ok {uri : String} {c : Content} :
    s.enqueueReplacement N C db clock e uri c = .ok db' ↔
      ∃ old oldID deletion url event, db.bridgeEvents.get? (s.ref e.uri) = some old ∧
        N.idFromHex old.nostrEventID = some oldID ∧
        s.deletionEvent N e.did oldID "source record replaced" clock.signed = .ok deletion ∧
        blueskyPostURL uri = .ok url ∧
        postEvent N s.masterSeed (post e.did uri url c) [] = .ok event ∧
        SQLiteStore.enqueueUpdate N db (s.updateRequest N C clock e deletion event) = .ok db' := by
  simp only [deletionEvent_ok]
  unfold enqueueReplacement SQLiteStore.eventMappingBySourceURI
  cases hg : db.bridgeEvents.get? (s.ref e.uri) with
  | none => simp
  | some old =>
    simp only [Option.map_some, bind_ok_iff, mapError_ok_iff]
    cases hid : N.idFromHex old.nostrEventID with
    | none =>
      constructor
      · rintro ⟨key, -, h⟩
        cases h
      · rintro ⟨_, _, _, _, _, hw, h, -⟩
        cases hw
        rw [hid] at h
        cases h
    | some oldID =>
      simp only [bind_ok_iff, mapError_ok_iff, signedEvent_ok]
      constructor
      · rintro ⟨key, hk, deletion, hd, url, hu, event, he, hs⟩
        exact ⟨old, oldID, deletion, url, event, rfl, hid, ⟨key, hk, hd⟩, hu, he, hs⟩
      · rintro ⟨_, _, deletion, url, event, hw, h, ⟨key, hk, hd⟩, hu, he, hs⟩
        cases hw
        rw [hid] at h
        cases h
        exact ⟨key, hk, deletion, hd, url, hu, event, he, hs⟩

theorem deleteSource_ok :
    s.deleteSource N db clock e = .ok db' ↔
      (db.bridgeEvents.get? (s.ref e.uri) = none ∧ db' = s.saveTime db e.timeUS) ∨
      ∃ old oldID deletion, db.bridgeEvents.get? (s.ref e.uri) = some old ∧
        N.idFromHex old.nostrEventID = some oldID ∧
        s.deletionEvent N e.did oldID "source record deleted" clock.signed = .ok deletion ∧
        SQLiteStore.enqueueDelete N db (s.deleteRequest N clock e deletion) = .ok db' := by
  simp only [deletionEvent_ok]
  unfold deleteSource SQLiteStore.eventMappingBySourceURI
  cases hg : db.bridgeEvents.get? (s.ref e.uri) with
  | none => simp [eq_comm]
  | some old =>
    simp only [Option.map_some, bind_ok_iff, mapError_ok_iff]
    cases hid : N.idFromHex old.nostrEventID with
    | none =>
      constructor
      · rintro ⟨key, -, h⟩
        cases h
      · rintro (⟨h, -⟩ | ⟨_, _, _, h, hi, -⟩)
        · cases h
        · cases h
          rw [hid] at hi
          cases hi
    | some oldID =>
      simp only [bind_ok_iff, mapError_ok_iff, signedEvent_ok]
      constructor
      · rintro ⟨key, hk, deletion, hd, hs⟩
        exact .inr ⟨old, oldID, deletion, rfl, hid, ⟨key, hk, hd⟩, hs⟩
      · rintro (⟨h, -⟩ | ⟨_, _, deletion, h, hi, ⟨key, hk, hd⟩, hs⟩)
        · cases h
        · cases h
          rw [hid] at hi
          cases hi
          exact ⟨key, hk, deletion, hd, hs⟩

/-! ## The whole call -/

theorem publishRecord_create (ho : e.operation = .create)
    (hm : db.bridgeEvents.get? (s.ref e.uri) = none) :
    s.publishRecord N C db clock e = .ok db' ↔ ∃ event, s.createdEvent N C db e = .ok event ∧
      SQLiteStore.enqueueEvent N db (s.eventRequest N clock e.uri event e.timeUS "") = .ok db' := by
  simp only [createdEvent_ok]
  unfold publishRecord
  cases hr : C.record e.record with
  | none => simp
  | some r =>
    simp only [bind_ok_iff, ho, reduceCtorEq, if_false, publishPost_ok hm]
    constructor
    · rintro ⟨uri, hu, parents, url, event, hp, hl, he, hs⟩
      exact ⟨event, ⟨r, uri, parents, url, rfl, hu, hp, hl, he⟩, hs⟩
    · rintro ⟨event, ⟨_, uri, parents, url, hw, hu, hp, hl, he⟩, hs⟩
      cases hw
      exact ⟨uri, hu, parents, url, event, hp, hl, he, hs⟩

theorem publishRecord_update (ho : e.operation = .update) :
    s.publishRecord N C db clock e = .ok db' ↔
      ∃ old oldID deletion event, db.bridgeEvents.get? (s.ref e.uri) = some old ∧
        N.idFromHex old.nostrEventID = some oldID ∧
        s.deletionEvent N e.did oldID "source record replaced" clock.signed = .ok deletion ∧
        s.replacementEvent N C e = .ok event ∧
        SQLiteStore.enqueueUpdate N db (s.updateRequest N C clock e deletion event) = .ok db' := by
  simp only [replacementEvent_ok]
  unfold publishRecord
  cases hr : C.record e.record with
  | none => simp
  | some r =>
    simp only [bind_ok_iff, ho, if_true, enqueueReplacement_ok]
    constructor
    · rintro ⟨uri, hu, old, oldID, deletion, url, event, hm, hi, hd, hl, he, hs⟩
      exact ⟨old, oldID, deletion, event, hm, hi, hd, ⟨r, uri, url, rfl, hu, hl, he⟩, hs⟩
    · rintro ⟨old, oldID, deletion, event, hm, hi, hd, ⟨_, uri, url, hw, hu, hl, he⟩, hs⟩
      cases hw
      exact ⟨uri, hu, old, oldID, deletion, url, event, hm, hi, hd, hl, he, hs⟩

theorem handle_ok_iff (hc : e.collection = postCollection ∨ e.collection = repostCollection)
    (ht : s.isTarget e.did = true) :
    s.handle N C db clock e = .ok db' ↔ s.Outcome N C clock db e db' := by
  have hc' : ¬(e.collection ≠ postCollection ∧ e.collection ≠ repostCollection) := by tauto
  have ht' : ¬s.isTarget e.did = false := by simp [ht]
  rw [handle, if_neg hc', if_neg ht']
  cases ho : e.operation with
  | create =>
    cases hm : db.bridgeEvents.get? (s.ref e.uri) with
    | some old =>
      have hset : s.Settled C db e := (settled_create ho).2 (by rw [hm]; rfl)
      simp only [SQLiteStore.eventMappingBySourceURI, hm, Option.map_some]
      constructor
      · intro h
        cases h
        exact .settled hset
      · rintro (_ | ⟨-, hn, -, -⟩ | ⟨hu, -, -, -, -, -, -⟩ | ⟨hd, -, -, -, -⟩)
        · rfl
        · rw [hm] at hn; cases hn
        · rw [ho] at hu; cases hu
        · rw [ho] at hd; cases hd
    | none =>
      simp only [mapping_eq_none.2 hm, publishRecord_create ho hm]
      constructor
      · rintro ⟨event, he, hs⟩
        exact .created ho hm he hs
      · rintro (hset | ⟨-, -, he, hs⟩ | ⟨hu, -, -, -, -, -, -⟩ | ⟨hd, -, -, -, -⟩)
        · rw [settled_create ho, hm] at hset
          cases hset
        · exact ⟨_, he, hs⟩
        · rw [ho] at hu; cases hu
        · rw [ho] at hd; cases hd
  | update =>
    show (if SQLiteStore.sourceOperationBySourceURI db (s.ref e.uri) = some (e.updateIdentity C)
      then _ else _) = _ ↔ _
    by_cases hi : SQLiteStore.sourceOperationBySourceURI db (s.ref e.uri) =
      some (e.updateIdentity C)
    · rw [if_pos hi]
      have hset : s.Settled C db e := (settled_update ho).2 hi
      constructor
      · intro h
        cases h
        exact .settled hset
      · rintro (_ | ⟨hu, -, -, -⟩ | ⟨-, hn, -, -, -, -, -⟩ | ⟨hd, -, -, -, -⟩)
        · rfl
        · rw [ho] at hu; cases hu
        · exact absurd hi hn
        · rw [ho] at hd; cases hd
    · rw [if_neg hi, publishRecord_update ho]
      constructor
      · rintro ⟨old, oldID, deletion, event, hm, hid, hd, he, hs⟩
        exact .replaced ho hi hm hid hd he hs
      · rintro (hset | ⟨hu, -, -, -⟩ | ⟨-, -, hm, hid, hd, he, hs⟩ | ⟨hd, -, -, -, -⟩)
        · exact absurd ((settled_update ho).1 hset) hi
        · rw [ho] at hu; cases hu
        · exact ⟨_, _, _, _, hm, hid, hd, he, hs⟩
        · rw [ho] at hd; cases hd
  | delete =>
    rw [deleteSource_ok]
    constructor
    · rintro (⟨hm, rfl⟩ | ⟨old, oldID, deletion, hm, hid, hd, hs⟩)
      · exact .settled ((settled_delete ho).2 hm)
      · exact .deleted ho hm hid hd hs
    · rintro (hset | ⟨hu, -, -, -⟩ | ⟨hu, -, -, -, -, -, -⟩ | ⟨-, hm, hid, hd, hs⟩)
      · exact .inl ⟨(settled_delete ho).1 hset, rfl⟩
      · rw [ho] at hu; cases hu
      · rw [ho] at hu; cases hu
      · exact .inr ⟨_, _, _, hm, hid, hd, hs⟩
  | other name =>
    constructor
    · intro h
      cases h
    · rintro (hset | ⟨hu, -, -, -⟩ | ⟨hu, -, -, -, -, -, -⟩ | ⟨hd, -, -, -, -⟩)
      · simp [Settled, ho] at hset
      · rw [ho] at hu; cases hu
      · rw [ho] at hu; cases hu
      · rw [ho] at hd; cases hd

/-! ## Reads and the write

A call reads the store and then writes it at most once. `Plan`: the write that a call decides on
when it has read the state `db`. Other transactions may come in between, so that the write meets
another state.
-/

section
variable (N : Nostr.Library) (C : Codec) (s : Syncer)

inductive Plan (clock : Clock) (db : DB) (e : Event) : Option StoreOp → Prop
  | settled (h : s.Settled C db e) :
      Plan clock db e ((cursorUpdate e.timeUS).map (.saveCursor s.scope))
  | created {event : Nostr.Event} (ho : e.operation = .create)
      (hm : db.bridgeEvents.get? (s.ref e.uri) = none) (he : s.createdEvent N C db e = .ok event) :
      Plan clock db e (some (.enqueueEvent (s.eventRequest N clock e.uri event e.timeUS "")))
  | replaced {old : BridgeEvent} {oldID : String} {deletion replacement : Nostr.Event}
      (ho : e.operation = .update)
      (hi : db.operations.get? (s.ref e.uri) ≠ some (e.updateIdentity C))
      (hm : db.bridgeEvents.get? (s.ref e.uri) = some old)
      (hid : N.idFromHex old.nostrEventID = some oldID)
      (hd : s.deletionEvent N e.did oldID "source record replaced" clock.signed = .ok deletion)
      (he : s.replacementEvent N C e = .ok replacement) :
      Plan clock db e (some (.enqueueUpdate (s.updateRequest N C clock e deletion replacement)))
  | deleted {old : BridgeEvent} {oldID : String} {deletion : Nostr.Event}
      (ho : e.operation = .delete) (hm : db.bridgeEvents.get? (s.ref e.uri) = some old)
      (hid : N.idFromHex old.nostrEventID = some oldID)
      (hd : s.deletionEvent N e.did oldID "source record deleted" clock.signed = .ok deletion) :
      Plan clock db e (some (.enqueueDelete (s.deleteRequest N clock e deletion)))

/-- The write of a plan, if it has one. -/
def write (db : DB) : Option StoreOp → Except StoreErr DB
  | none => .ok db
  | some op => (op.exec N db).map (·.1)

end

theorem write_event {q : EventEnqueueRequest} :
    write N db (some (.enqueueEvent q)) = .ok db' ↔ SQLiteStore.enqueueEvent N db q = .ok db' := by
  simp [write, StoreOp.exec, map_ok_iff]

theorem write_update {q : UpdateEnqueueRequest} :
    write N db (some (.enqueueUpdate q)) = .ok db' ↔
      SQLiteStore.enqueueUpdate N db q = .ok db' := by
  simp [write, StoreOp.exec, map_ok_iff]

theorem write_delete {q : DeleteEnqueueRequest} :
    write N db (some (.enqueueDelete q)) = .ok db' ↔
      SQLiteStore.enqueueDelete N db q = .ok db' := by
  simp [write, StoreOp.exec, map_ok_iff]

theorem write_cursor {timeUS : Int} :
    write N db ((cursorUpdate timeUS).map (.saveCursor s.scope)) = .ok db' ↔
      s.saveTime db timeUS = db' := by
  rw [saveTime]
  cases cursorUpdate timeUS with
  | none => exact ⟨fun h => Except.ok.inj h, fun h => congrArg Except.ok h⟩
  | some c => exact ⟨fun h => Except.ok.inj h, fun h => congrArg Except.ok h⟩

/-- Without a transaction in between, a plan and its write are a call of `Handle`. -/
theorem outcome_iff_plan :
    s.Outcome N C clock db e db' ↔ ∃ op, s.Plan N C clock db e op ∧ write N db op = .ok db' := by
  constructor
  · intro h
    cases h with
    | settled hset => exact ⟨_, .settled hset, write_cursor.2 rfl⟩
    | created ho hm he hs => exact ⟨_, .created ho hm he, write_event.2 hs⟩
    | replaced ho hi hm hid hd he hs => exact ⟨_, .replaced ho hi hm hid hd he, write_update.2 hs⟩
    | deleted ho hm hid hd hs => exact ⟨_, .deleted ho hm hid hd, write_delete.2 hs⟩
  · rintro ⟨op, h, hw⟩
    cases h with
    | settled hset =>
      cases write_cursor.1 hw
      exact .settled hset
    | created ho hm he => exact .created ho hm he (write_event.1 hw)
    | replaced ho hi hm hid hd he => exact .replaced ho hi hm hid hd he (write_update.1 hw)
    | deleted ho hm hid hd => exact .deleted ho hm hid hd (write_delete.1 hw)

/-! ## After the write -/

theorem updateIdentity_ne_empty : e.updateIdentity C ≠ "" := by
  intro h
  have hl := congrArg String.toList h
  unfold Event.updateIdentity at hl
  split at hl <;> simp at hl

theorem get?_saveOptionalCursor {scope : SourceScope} {timeUS : Int} (ht : 0 < timeUS) :
    (saveOptionalCursor db scope (cursorUpdate timeUS)).cursors.get? (scope, jetstreamCursor) =
      some (sprint timeUS) := by
  rw [cursorUpdate, if_pos ht]
  exact Table.get?_set.trans (if_pos rfl)

theorem get?_saveOptionalOperation {ref : SourceRef} {identity : String} (h : identity ≠ "") :
    (saveOptionalOperation db ref identity).operations.get? ref = some identity := by
  rw [saveOptionalOperation, if_neg h]
  exact Table.get?_set.trans (if_pos rfl)

section
variable {seen : DB} {op : Option StoreOp} (h : s.Plan N C clock seen e op)
  (hw : write N db op = .ok db')
include h hw

/-- The effect of the event was there when the call read the store, or the write makes it. -/
theorem Plan.settled_after : s.Settled C seen e ∨ s.Settled C db' e := by
  cases h with
  | settled hset => exact .inl hset
  | created ho hm he =>
    obtain ⟨-, -, -, -, -, out, -, rfl⟩ := SQLiteStore.enqueueEvent_ok.1 (write_event.1 hw)
    refine .inr ((settled_create ho).2 ?_)
    rw [saveOptionalOperation_bridgeEvents, saveOptionalCursor_bridgeEvents]
    exact congrArg Option.isSome (Table.get?_set.trans (if_pos rfl))
  | replaced ho hi hm hid hd he =>
    obtain ⟨-, -, -, -, -, -, out, -, rfl⟩ := SQLiteStore.enqueueUpdate_ok.1 (write_update.1 hw)
    refine .inr ((settled_update ho).2 ?_)
    rw [saveOptionalCursor_operations]
    exact get?_saveOptionalOperation updateIdentity_ne_empty
  | deleted ho hm hid hd =>
    obtain ⟨stored, -, -, -, -, -, out, -, rfl⟩ :=
      SQLiteStore.enqueueDelete_ok.1 (write_delete.1 hw)
    refine .inr ((settled_delete ho).2 ?_)
    rw [saveOptionalCursor_bridgeEvents]
    exact Table.get?_erase.trans (if_pos rfl)

/-- The write stores the time of the event as the cursor. -/
theorem Plan.cursor (ht : 0 < e.timeUS) :
    SQLiteStore.cursor db' s.scope jetstreamCursor = some (sprint e.timeUS) := by
  unfold SQLiteStore.cursor
  cases h with
  | settled hset =>
    cases write_cursor.1 hw
    exact get?_saveOptionalCursor ht
  | created ho hm he =>
    obtain ⟨-, -, -, -, -, out, -, rfl⟩ := SQLiteStore.enqueueEvent_ok.1 (write_event.1 hw)
    rw [saveOptionalOperation_cursors]
    exact get?_saveOptionalCursor ht
  | replaced ho hi hm hid hd he =>
    obtain ⟨-, -, -, -, -, -, out, -, rfl⟩ := SQLiteStore.enqueueUpdate_ok.1 (write_update.1 hw)
    exact get?_saveOptionalCursor ht
  | deleted ho hm hid hd =>
    obtain ⟨stored, -, -, -, -, -, out, -, rfl⟩ :=
      SQLiteStore.enqueueDelete_ok.1 (write_delete.1 hw)
    exact get?_saveOptionalCursor ht

end

end Syncer

end Bridge.Bluesky
