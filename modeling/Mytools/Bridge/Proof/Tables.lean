import Mytools.Bridge.Proof.Effect

/-!
# What the operations do to the other tables

`Written`: which operations write a marker of a purge or make a publisher registered or mapped. One
case analysis over the operations; from it `Frame`, by which a purge is never undone. The statements
about whole runs use only these two.
-/

namespace Bridge

open Lib

variable {N : Nostr.Library} {db db' : DB} {op : StoreOp} {items : List OutboxItem}

/-- The sources that an operation may map. -/
def StoreOp.maps : StoreOp → List SourceRef
  | saveEventAndEnqueue m _ => [m.source]
  | enqueueEvent q => [q.mapping.source]
  | enqueueUpdate q => [q.mapping.source]
  | reconcileBatch q => q.events.map (·.mapping.source)
  | saveEventMapping m => [m.source]
  | _ => []

/-- What the checks leave of a mapping: its author is a public key that is not purged, and its
event is one that was decoded. -/
structure Validated (N : Nostr.Library) (db : DB) (e : BridgeEvent) : Prop where
  purged : db.publisherPurged e.authorPubKey = false
  author : N.pubKeyFromHex e.authorPubKey = some e.authorPubKey
  event : ∃ payload event, N.unmarshal payload = some event ∧ e.nostrEventID = event.id

theorem Validated.of_checks {m : EventMapping} {r : OutboxRequest}
    (hk : r.pubKey = m.authorPubKey) (hv : validatePublishRequest N r = .ok ())
    (hid : validateMappingEventID N m r = .ok ()) (hp : db.publisherPurged r.pubKey = false) :
    Validated N db m.row := by
  obtain ⟨-, hv⟩ := check_ok_iff.1 hv
  obtain ⟨hown, -⟩ := check_ok_iff.1 hv
  have hown := (require_eq_ok.1 hown).1
  unfold validateMappingEventID at hid
  split at hid
  · cases hid
  · rename_i event hu
    exact ⟨by rw [EventMapping.row, ← hk]; exact hp, by rw [EventMapping.row, ← hk]; exact hown,
      r.payload, event, hu, require_eq_ok.1 hid⟩

/-- The tables beside the outbox: a purge is never undone, and only certain operations make a
publisher purged, registered or mapped. -/
structure Frame (N : Nostr.Library) (op : StoreOp) (db db' : DB) : Prop where
  purges : ∀ pk, db.publisherPurged pk = true → db'.publisherPurged pk = true
  purged : ∀ pk, db'.publisherPurged pk = true → db.publisherPurged pk = true ∨
    ∃ q, op = .enqueuePurge q ∧ q.pubKey = pk
  registered : ∀ pk, db'.publisherRegistered pk = true → db.publisherRegistered pk = true ∨
    (∃ t, op = .setPublisherRegistered pk t) ∨
    ∃ id token now, op = .completePublisherRegistration id token pk now
  mapped : ∀ ref e, db'.bridgeEvents.get? ref = some e → db.bridgeEvents.get? ref = some e ∨
    (ref ∈ op.maps ∧ Validated N db e) ∨ ∃ m, op = .saveEventMapping m

theorem get?_upsertEventMapping {m : EventMapping} {ref : SourceRef} {e : BridgeEvent}
    (h : (db.upsertEventMapping m).bridgeEvents.get? ref = some e) :
    db.bridgeEvents.get? ref = some e ∨ ref = m.source ∧ e = m.row := by
  simp only [DB.upsertEventMapping, Table.get?_set] at h
  split at h
  · rename_i hk
    cases h
    exact .inr ⟨hk, rfl⟩
  · exact .inl h

theorem publisherRegistered_clear {pk pubKey : String}
    (h : (db.clearPublisherRegistration pubKey).publisherRegistered pk = true) :
    pk ≠ pubKey ∧ db.publisherRegistered pk = true := by
  simp only [DB.publisherRegistered, DB.clearPublisherRegistration, Table.get?_erase] at h
  split at h
  · cases h
  · rename_i hne
    exact ⟨hne, h⟩

/-- Only a purge of a publisher that is not marked writes a marker, and only certain operations make
a publisher registered or mapped. -/
structure Written (N : Nostr.Library) (op : StoreOp) (db db' : DB) : Prop where
  purges : db'.purges = db.purges ∨ ∃ q marker, op = .enqueuePurge q ∧
    db.publisherPurged q.pubKey = false ∧ db'.purges = db.purges.set q.pubKey marker
  registered : ∀ pk, db'.publisherRegistered pk = true → db.publisherRegistered pk = true ∨
    (∃ t, op = .setPublisherRegistered pk t) ∨
    ∃ id token now, op = .completePublisherRegistration id token pk now
  mapped : ∀ ref e, db'.bridgeEvents.get? ref = some e → db.bridgeEvents.get? ref = some e ∨
    (ref ∈ op.maps ∧ Validated N db e) ∨ ∃ m, op = .saveEventMapping m

/-- An operation that writes neither purges nor registrations. -/
theorem Written.of_same (hp : db'.purges = db.purges) (hr : db'.registrations = db.registrations)
    (hm : ∀ ref e, db'.bridgeEvents.get? ref = some e → db.bridgeEvents.get? ref = some e ∨
      (ref ∈ op.maps ∧ Validated N db e) ∨ ∃ m, op = .saveEventMapping m) :
    Written N op db db' where
  purges := .inl hp
  registered pk h := .inl (by rwa [DB.publisherRegistered, hr] at h)
  mapped := hm

/-- An operation that registers a publisher at most. -/
theorem Written.of_set {pubKey : String} {t : Int} {out : OutboxTables}
    (hop : (∃ t, op = .setPublisherRegistered pubKey t) ∨
      ∃ id token now, op = .completePublisherRegistration id token pubKey now) :
    Written N op db ({ db with out }.setPublisherRegistered pubKey t) := by
  refine ⟨.inl rfl, fun pk hpk => ?_, fun _ _ h => .inl h⟩
  simp only [DB.publisherRegistered, DB.setPublisherRegistered, Table.get?_set] at hpk
  split at hpk
  · rename_i hk
    exact .inr (hk ▸ hop)
  · exact .inl hpk

theorem exec_written (h : op.exec N db = .ok (db', items)) : Written N op db db' := by
  cases op <;> simp only [StoreOp.exec, map_ok_iff, Prod.mk.injEq] at h
  case enqueueOutbox r =>
    obtain ⟨_, h, rfl, -⟩ := h
    obtain ⟨-, -, -, out, -, rfl⟩ := SQLiteStore.enqueueOutbox_ok h
    exact .of_same rfl rfl fun _ _ h => .inl h
  case saveEventAndEnqueue m r =>
    obtain ⟨_, h, rfl, -⟩ := h
    obtain ⟨hk, hv, hid, hp, out, -, rfl⟩ := SQLiteStore.saveEventAndEnqueue_ok h
    refine .of_same rfl rfl fun ref e he => ?_
    refine (get?_upsertEventMapping he).imp_right ?_
    rintro ⟨rfl, rfl⟩
    exact .inl ⟨List.mem_singleton.2 rfl, .of_checks hk hv hid hp⟩
  case enqueueEvent q =>
    obtain ⟨_, h, rfl, -⟩ := h
    obtain ⟨hk, hv, hid, hp, -, out, -, rfl⟩ := SQLiteStore.enqueueEvent_ok.1 h
    refine .of_same (by simp; rfl) (by simp; rfl) fun ref e he => ?_
    rw [saveOptionalOperation_bridgeEvents, saveOptionalCursor_bridgeEvents] at he
    refine (get?_upsertEventMapping he).imp_right ?_
    rintro ⟨rfl, rfl⟩
    exact .inl ⟨List.mem_singleton.2 rfl, .of_checks hk hv hid hp⟩
  case enqueueUpdate q =>
    obtain ⟨_, h, rfl, -⟩ := h
    obtain ⟨⟨-, hk⟩, -, hv, hid, hp, -, out, -, rfl⟩ := SQLiteStore.enqueueUpdate_ok.1 h
    refine .of_same (by simp; rfl) (by simp; rfl) fun ref e he => ?_
    rw [saveOptionalCursor_bridgeEvents, saveOptionalOperation_bridgeEvents] at he
    refine (get?_upsertEventMapping he).imp_right ?_
    rintro ⟨rfl, rfl⟩
    exact .inl ⟨List.mem_singleton.2 rfl, .of_checks hk hv hid hp⟩
  case enqueueDelete q =>
    obtain ⟨_, h, rfl, -⟩ := h
    obtain ⟨-, -, -, -, -, -, out, -, rfl⟩ := SQLiteStore.enqueueDelete_ok.1 h
    refine .of_same (by simp; rfl) (by simp; rfl) fun ref e he => .inl ?_
    rw [saveOptionalCursor_bridgeEvents] at he
    simp only [DB.deleteSourceOperation, DB.deleteEventMapping, Table.get?_erase] at he
    split at he
    · cases he
    · exact he
  case enqueuePurge q =>
    obtain ⟨_, h, rfl, -⟩ := h
    rcases SQLiteStore.enqueuePurge_ok h with ⟨-, rfl⟩ | ⟨hp, -, -, d, out, -, -, rfl⟩
    · exact .of_same rfl rfl fun _ _ h => .inl h
    · exact ⟨.inr ⟨q, _, rfl, hp, rfl⟩, fun _ h => .inl h, fun _ _ h => .inl h⟩
  case reconcileBatch q =>
    obtain ⟨_, h, rfl, -⟩ := h
    obtain ⟨r, hr, -, hreg, hpur, hev⟩ := SQLiteStore.reconcileBatch_ok h
    refine .of_same hpur hreg fun ref e he => ?_
    refine (hev ref e he).imp_right ?_
    rintro ⟨p, hp, rfl, rfl⟩
    obtain ⟨hm, hc⟩ := SQLiteStore.checked_of_scanned hr hp
    obtain ⟨hk, hv, hid, hnp⟩ := SQLiteStore.checkReconciled_ok hc
    exact .inl ⟨List.mem_map.2 ⟨p, hm, rfl⟩, .of_checks hk hv hid hnp⟩
  case claimOutbox now lease limit rand =>
    obtain ⟨-, ⟨-, rfl, -⟩ | ⟨bytes, out, -, -, -, rfl, -⟩⟩ := SQLiteStore.claimOutbox_ok h
    · exact .of_same rfl rfl fun _ _ h => .inl h
    · exact .of_same rfl rfl fun _ _ h => .inl h
  case completeOutbox id token now =>
    obtain ⟨_, h, rfl, -⟩ := h
    obtain ⟨out, -, rfl⟩ := SQLiteStore.completeOutbox_ok h
    exact .of_same rfl rfl fun _ _ h => .inl h
  case completePublisherRegistration id token pubKey now =>
    obtain ⟨_, h, rfl, -⟩ := h
    obtain ⟨out, -, rfl⟩ := SQLiteStore.completePublisherRegistration_ok h
    exact .of_set (.inr ⟨id, token, now, rfl⟩)
  case completePublisherUnregistration id token now pubKey =>
    obtain ⟨_, h, rfl, -⟩ := h
    obtain ⟨out, -, rfl⟩ := SQLiteStore.completePublisherUnregistration_ok h
    refine ⟨.inl rfl, fun pk hpk => .inl ?_, fun ref e he => .inl ?_⟩
    · exact (publisherRegistered_clear hpk).2
    · simp only [DB.deletePublisherMappings, Table.get?_filter] at he
      exact (Option.filter_eq_some_iff.1 he).1
  case recoverPublisherRegistration id token pubKey now =>
    obtain ⟨_, h, rfl, -⟩ := h
    obtain ⟨c, out, -, -, -, rfl⟩ := SQLiteStore.recoverPublisherRegistration_ok h
    exact ⟨.inl rfl, fun pk hpk => .inl (publisherRegistered_clear hpk).2, fun _ _ h => .inl h⟩
  case retryOutbox id token now availableAt lastError =>
    obtain ⟨_, h, rfl, -⟩ := h
    obtain ⟨out, -, rfl⟩ := SQLiteStore.retryOutbox_ok h
    exact .of_same rfl rfl fun _ _ h => .inl h
  case saveEventMapping m =>
    cases h
    exact .of_same rfl rfl fun _ _ _ => .inr (.inr ⟨m, rfl⟩)
  case deleteEventBySourceURI ref =>
    cases h
    refine .of_same rfl rfl fun ref' e he => .inl ?_
    simp only [DB.deleteEventMapping, Table.get?_erase] at he
    split at he
    · cases he
    · exact he
  case setPublisherRegistered pubKey t =>
    cases h
    exact .of_set (.inl ⟨t, rfl⟩)
  case clearPublisherRegistration pubKey =>
    cases h
    exact ⟨.inl rfl, fun pk hpk => .inl (publisherRegistered_clear hpk).2, fun _ _ h => .inl h⟩
  all_goals
    cases h
    exact .of_same rfl rfl fun _ _ h => .inl h

theorem exec_frame (h : op.exec N db = .ok (db', items)) : Frame N op db db' := by
  have hw := exec_written h
  refine ⟨fun pk hpk => ?_, fun pk hpk => ?_, hw.registered, hw.mapped⟩
  · rcases hw.purges with he | ⟨q, marker, -, -, he⟩
    · rwa [DB.publisherPurged, he]
    · rw [DB.publisherPurged, he, Table.get?_set]
      split
      · rfl
      · exact hpk
  · rcases hw.purges with he | ⟨q, marker, hop, -, he⟩
    · exact .inl (by rwa [DB.publisherPurged, he] at hpk)
    · rw [DB.publisherPurged, he, Table.get?_set] at hpk
      split at hpk
      · rename_i hk
        exact .inr ⟨q, hop, hk.symm⟩
      · exact .inl hpk

end Bridge
