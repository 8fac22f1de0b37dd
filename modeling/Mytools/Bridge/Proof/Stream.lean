import Mytools.Bridge.NostrPlain
import Mytools.Bridge.Proof.Fifo
import Mytools.Bridge.Proof.Handle
import Mytools.Bridge.Proof.Tables

/-!
# Messages that do not pass

`consume_passes`: in every state that the store can reach, the messages of a subscribed DID for
which `Decode` and `Handle` return nil are the commits that satisfy `Passes`. The store's mappings
are known well enough for this (`SyncInv`): they name events and keys that can be parsed, and the
mapping of a record belongs to the key of its repository.
-/

namespace Bridge.Bluesky

open Lib

/-! ## Record URIs -/

/-- A DID and a record key as the protocol has them: not empty, and without a slash. -/
structure Named (did rkey : String) : Prop where
  did_blank : blank did = false
  did_slash : '/' ∉ did.toList
  rkey_empty : rkey ≠ ""
  rkey_slash : '/' ∉ rkey.toList

theorem toList_recordURI (did collection rkey : String) :
    (recordURI did collection rkey).toList =
      "at://".toList ++ (did.toList ++ '/' :: (collection.toList ++ '/' :: rkey.toList)) := by
  simp [recordURI, String.toList_append]

theorem split_recordURI {did collection rkey : String} (hn : Named did rkey)
    (hc : '/' ∉ collection.toList) :
    ((recordURI did collection rkey).toList.drop 5).splitOn '/' =
      [did.toList, collection.toList, rkey.toList] := by
  have hd : (recordURI did collection rkey).toList.drop 5 =
      did.toList ++ '/' :: (collection.toList ++ '/' :: rkey.toList) := by
    rw [toList_recordURI]
    rfl
  rw [hd, List.splitOn_append_cons_self_of_not_mem hn.did_slash,
    List.splitOn_append_cons_self_of_not_mem hc, List.splitOn_eq_singleton hn.rkey_slash]

/-- A record is determined by its URI. -/
theorem recordURI_inj {did did' collection collection' rkey rkey' : String} (hn : Named did rkey)
    (hn' : Named did' rkey') (hc : '/' ∉ collection.toList) (hc' : '/' ∉ collection'.toList)
    (h : recordURI did collection rkey = recordURI did' collection' rkey') :
    did = did' ∧ collection = collection' ∧ rkey = rkey' := by
  have hs := split_recordURI hn hc
  rw [h, split_recordURI hn' hc'] at hs
  simp only [List.cons.injEq, String.toList_inj] at hs
  exact ⟨hs.1.symm, hs.2.1.symm, hs.2.2.1.symm⟩

theorem not_slash_collection {collection : String}
    (h : collection = postCollection ∨ collection = repostCollection) :
    '/' ∉ collection.toList := by
  rcases h with rfl | rfl <;> decide

theorem blueskyPostURL_recordURI {did rkey : String} (hn : Named did rkey) :
    blueskyPostURL (recordURI did postCollection rkey) =
      .ok ("https://bsky.app/profile/" ++ did ++ "/post/" ++ rkey) := by
  have hp : "at://".toList.isPrefixOf (recordURI did postCollection rkey).toList = true := by
    rw [toList_recordURI]
    exact List.isPrefixOf_iff_prefix.2 (List.prefix_append _ _)
  have hd : did.toList ≠ [] := by
    intro he
    have := hn.did_blank
    rw [blank, he] at this
    cases this
  have hr : rkey.toList ≠ [] := fun he => hn.rkey_empty (String.toList_eq_nil_iff.1 he)
  rw [blueskyPostURL, if_pos hp, split_recordURI hn (not_slash_collection (.inl rfl))]
  simp only [String.ofList_toList]
  exact if_pos ⟨hd, trivial, hr⟩

namespace Syncer

/-! ## Reachable states -/

variable {N : Nostr.Library} {C : Codec} {s : Syncer} {db db' : DB} {clock : Clock} {e : Event}

section
variable (N : Nostr.Library) (C : Codec) (s : Syncer)

/-- The public key of a repository. -/
def author (did : String) : String := N.publicKey (actorKey N s.masterSeed ⟨"bluesky", did⟩)

/-- The operations of the other parts of the bridge. They map no record of the scope; the profiles
and lists that the reconciliation maps there have other URIs. -/
structure Foreign (op : StoreOp) : Prop where
  direct : ∀ m, op ≠ .saveEventMapping m
  maps : ∀ ref ∈ op.maps, ref.scope = s.scope → ¬"at://".toList <+: ref.uri.toList

/-- The states of the store: the syncer handles records and fills in posts of the timeline, with
any targets, and the other parts of the bridge do their work. -/
inductive Reach : DB → Prop
  | empty : Reach .empty
  | handle {db db' : DB} {targets : Option (List String)} {clock : Clock} {e : Event}
      (hr : Reach db) (hn : Named e.did e.rkey)
      (h : ({ s with targets } : Syncer).handle N C db clock e = .ok db') : Reach db'
  | backfill {db db' : DB} {targets : Option (List String)} {clock : Clock} {did rkey : String}
      {c : Content} (hr : Reach db) (hn : Named did rkey)
      (h : ({ s with targets } : Syncer).backfillPost N db clock (recordURI did postCollection rkey)
        did c = .ok db') : Reach db'
  | other {db db' : DB} {op : StoreOp} {items : List OutboxItem} (hr : Reach db)
      (ho : s.Foreign op) (h : op.exec N db = .ok (db', items)) : Reach db'

/-- What is known of the mappings. -/
structure SyncInv (db : DB) : Prop where
  out : db.out.Inv
  parsed : ∀ ref m, db.bridgeEvents.get? ref = some m →
    N.idFromHex m.nostrEventID = some m.nostrEventID ∧
      N.pubKeyFromHex m.authorPubKey = some m.authorPubKey
  owned : ∀ {did collection rkey}, Named did rkey → '/' ∉ collection.toList → ∀ m,
    db.bridgeEvents.get? (s.ref (recordURI did collection rkey)) = some m →
      m.authorPubKey = s.author N did

end

theorem SyncInv.empty : SyncInv N s .empty where
  out := outboxInv_run N []
  parsed := by intro ref m h; cases h
  owned := by intro did collection rkey hn hc m h; cases h

/-- An operation keeps the invariant if the record it maps belongs to its author. -/
theorem SyncInv.exec {op : StoreOp} {items : List OutboxItem} (hN : N.Sound) (hi : SyncInv N s db)
    (h : op.exec N db = .ok (db', items)) (hd : ∀ m, op ≠ .saveEventMapping m)
    (ho : ∀ {did collection rkey}, Named did rkey → '/' ∉ collection.toList → ∀ m,
      s.ref (recordURI did collection rkey) ∈ op.maps →
      db'.bridgeEvents.get? (s.ref (recordURI did collection rkey)) = some m →
        m.authorPubKey = s.author N did) : SyncInv N s db' := by
  have hf := exec_frame h
  refine ⟨outboxInv_exec hi.out h, ?_, ?_⟩
  · intro ref m hm
    rcases hf.mapped ref m hm with hm | ⟨-, hv⟩ | ⟨m', rfl⟩
    · exact hi.parsed ref m hm
    · obtain ⟨payload, event, hu, he⟩ := hv.event
      exact ⟨he ▸ hN.idFromHex_unmarshal hu, hv.author⟩
    · exact absurd rfl (hd m')
  · intro did collection rkey hn hc m hm
    rcases hf.mapped _ m hm with hm' | ⟨hmem, -⟩ | ⟨m', rfl⟩
    · exact hi.owned hn hc m hm'
    · exact ho hn hc m hmem hm
    · exact absurd rfl (hd m')

theorem SyncInv.foreign {op : StoreOp} {items : List OutboxItem} (hN : N.Sound)
    (hi : SyncInv N s db) (hf : s.Foreign op) (h : op.exec N db = .ok (db', items)) :
    SyncInv N s db' := by
  refine hi.exec hN h hf.direct ?_
  intro did collection rkey hn hc m hmem
  refine absurd ?_ (hf.maps _ hmem rfl)
  rw [ref, toList_recordURI]
  exact List.prefix_append _ _

theorem SyncInv.saveTime (hi : SyncInv N s db) (timeUS : Int) :
    SyncInv N s (s.saveTime db timeUS) where
  out := by simpa [Syncer.saveTime] using hi.out
  parsed := by simpa [Syncer.saveTime] using hi.parsed
  owned := by
    intro did collection rkey hn hc m hm
    rw [Syncer.saveTime, saveOptionalCursor_bridgeEvents] at hm
    exact hi.owned hn hc m hm

/-! ## What the syncer publishes -/

theorem exec_enqueueEvent {q : EventEnqueueRequest}
    (h : SQLiteStore.enqueueEvent N db q = .ok db') :
    (StoreOp.enqueueEvent q).exec N db = .ok (db', []) :=
  map_ok_iff.2 ⟨db', h, rfl⟩

theorem exec_enqueueUpdate {q : UpdateEnqueueRequest}
    (h : SQLiteStore.enqueueUpdate N db q = .ok db') :
    (StoreOp.enqueueUpdate q).exec N db = .ok (db', []) :=
  map_ok_iff.2 ⟨db', h, rfl⟩

theorem exec_enqueueDelete {q : DeleteEnqueueRequest}
    (h : SQLiteStore.enqueueDelete N db q = .ok db') :
    (StoreOp.enqueueDelete q).exec N db = .ok (db', []) :=
  map_ok_iff.2 ⟨db', h, rfl⟩

theorem postEvent_author {did uri url : String} {c : Content} {event : Nostr.Event}
    {parents : List (String × Nostr.Event)}
    (h : postEvent N s.masterSeed (post did uri url c) parents = .ok event) :
    event.pubKey = s.author N did :=
  (Nostr.Library.sign_eq_some (postEvent_ok h)).1

theorem createdEvent_author {event : Nostr.Event} (h : s.createdEvent N C db e = .ok event) :
    event.pubKey = s.author N e.did := by
  obtain ⟨r, uri, parents, url, -, -, -, -, he⟩ := createdEvent_ok.1 h
  exact postEvent_author he

theorem replacementEvent_author {event : Nostr.Event} (h : s.replacementEvent N C e = .ok event) :
    event.pubKey = s.author N e.did := by
  obtain ⟨r, uri, url, -, -, -, he⟩ := replacementEvent_ok.1 h
  exact postEvent_author he

theorem SyncInv.enqueueEvent {did collection rkey op : String} {event : Nostr.Event} {timeUS : Int}
    (hN : N.Sound) (hi : SyncInv N s db) (hn : Named did rkey) (hc : '/' ∉ collection.toList)
    (ha : event.pubKey = s.author N did)
    (h : SQLiteStore.enqueueEvent N db
      (s.eventRequest N clock (recordURI did collection rkey) event timeUS op) = .ok db') :
    SyncInv N s db' := by
  refine hi.exec hN (exec_enqueueEvent h) (by simp) ?_
  intro did' collection' rkey' hn' hc' m hmem hm
  have hu : recordURI did' collection' rkey' = recordURI did collection rkey :=
    congrArg SourceRef.uri (List.mem_singleton.1 hmem)
  obtain ⟨rfl, -, -⟩ := recordURI_inj hn' hn hc' hc hu
  obtain ⟨-, -, -, -, -, out, -, rfl⟩ := SQLiteStore.enqueueEvent_ok.1 h
  rw [saveOptionalOperation_bridgeEvents, saveOptionalCursor_bridgeEvents, hu] at hm
  have hm : some (s.mapping (recordURI did' collection rkey) event clock.queued).row = some m :=
    (Table.get?_set.trans (if_pos rfl)).symm.trans hm
  cases hm
  exact ha

theorem SyncInv.outcome (hN : N.Sound) (hi : SyncInv N s db) (hn : Named e.did e.rkey)
    (hc : '/' ∉ e.collection.toList) (h : s.Outcome N C clock db e db') : SyncInv N s db' := by
  cases h with
  | settled hset => exact hi.saveTime _
  | created ho hm he hs => exact hi.enqueueEvent hN hn hc (createdEvent_author he) hs
  | replaced ho hid hm hp hd he hs =>
    refine hi.exec hN (exec_enqueueUpdate hs) (by simp) ?_
    intro did' collection' rkey' hn' hc' m hmem hm
    have hu : recordURI did' collection' rkey' = e.uri :=
      congrArg SourceRef.uri (List.mem_singleton.1 hmem)
    obtain ⟨rfl, -, -⟩ := recordURI_inj hn' hn hc' hc hu
    obtain ⟨-, -, -, -, -, -, out, -, rfl⟩ := SQLiteStore.enqueueUpdate_ok.1 hs
    rw [saveOptionalCursor_bridgeEvents, saveOptionalOperation_bridgeEvents, hu] at hm
    have hm : some (s.mapping e.uri _ clock.queued).row = some m :=
      (Table.get?_set.trans (if_pos rfl)).symm.trans hm
    cases hm
    exact replacementEvent_author he
  | deleted ho hm hp hd hs =>
    refine hi.exec hN (exec_enqueueDelete hs) (by simp) ?_
    intro did' collection' rkey' hn' hc' m hmem
    cases hmem

theorem SyncInv.handle (hN : N.Sound) (hi : SyncInv N s db) (hn : Named e.did e.rkey)
    (h : s.handle N C db clock e = .ok db') : SyncInv N s db' := by
  by_cases hc : e.collection ≠ postCollection ∧ e.collection ≠ repostCollection
  · rw [Syncer.handle, if_pos hc] at h
    cases h
    exact hi
  have hc' : e.collection = postCollection ∨ e.collection = repostCollection := by tauto
  cases ht : s.isTarget e.did with
  | false =>
    rw [Syncer.handle, if_neg hc, if_pos ht] at h
    cases h
    exact hi
  | true => exact hi.outcome hN hn (not_slash_collection hc') ((handle_ok_iff hc' ht).1 h)

theorem SyncInv.backfill {did rkey : String} {c : Content} (hN : N.Sound) (hi : SyncInv N s db)
    (hn : Named did rkey)
    (h : s.backfillPost N db clock (recordURI did postCollection rkey) did c = .ok db') :
    SyncInv N s db' := by
  unfold backfillPost at h
  split at h
  · cases hm : db.bridgeEvents.get? (s.ref (recordURI did postCollection rkey)) with
    | some old =>
      rw [publishPost, SQLiteStore.eventMappingBySourceURI, hm] at h
      cases h
      exact hi
    | none =>
      obtain ⟨parents, url, event, -, -, he, hs⟩ := (publishPost_ok hm).1 h
      exact hi.enqueueEvent hN hn (not_slash_collection (.inl rfl)) (postEvent_author he) hs
  · cases h
    exact hi

theorem SyncInv.of_reach (hN : N.Sound) (h : s.Reach N C db) : SyncInv N s db := by
  induction h with
  | empty => exact .empty
  | @handle db db' targets clock e _ hn h ih =>
    -- the targets are not part of the invariant
    have hi : SyncInv N ({ s with targets } : Syncer) db := ⟨ih.out, ih.parsed, ih.owned⟩
    have hi' := hi.handle hN hn h
    exact ⟨hi'.out, hi'.parsed, hi'.owned⟩
  | @backfill db db' targets clock did rkey c _ hn h ih =>
    have hi : SyncInv N ({ s with targets } : Syncer) db := ⟨ih.out, ih.parsed, ih.owned⟩
    have hi' := hi.backfill hN hn h
    exact ⟨hi'.out, hi'.parsed, hi'.owned⟩
  | other _ ho h ih => exact ih.foreign hN ho h

/-! ## The commits that pass -/

section
variable (N : Nostr.Library) (C : Codec) (s : Syncer)

/-- The record can be published: the subject of a repost is a post. -/
def Publishable (e : Event) : Prop :=
  e.collection = repostCollection →
    ∃ r url, C.record e.record = some r ∧ blueskyPostURL r.subject = .ok url

/-- There is room for so many events of the repository. -/
def Room (db : DB) (did : String) (events : Int) : Prop :=
  SQLiteStore.HasRoom db (s.author N did) (s.author N did) events s.limit

/-- The work of the commit is done, or it can be done. -/
def Passes (db : DB) (e : Event) : Prop :=
  s.Settled C db e ∨
    match e.operation with
    | .create => Publishable C e ∧ s.Room N db e.did 1
    | .update => (db.bridgeEvents.get? (s.ref e.uri)).isSome ∧ Publishable C e ∧
        s.Room N db e.did 2
    | .delete => s.Room N db e.did 1
    | .other _ => False

/-- The record parses as one of its collection. -/
def Parses (e : Event) : Prop :=
  ∃ r, C.record e.record = some r ∧ (e.collection = repostCollection → r.subject ≠ "")

end

theorem blank_bluesky : blank "bluesky" = false := by decide

theorem publishable_of_mapped {r : Record} {uri url : String} (hr : C.record e.record = some r)
    (hu : mappedURI e r = .ok uri) (hl : blueskyPostURL uri = .ok url) : Publishable C e := by
  intro hc
  rw [mappedURI, if_pos hc] at hu
  split at hu
  · cases hu
  · cases hu
    exact ⟨r, url, hr, hl⟩

section
variable (hN : N.Sound) (hseed : s.masterSeed ≠ []) (hi : SyncInv N s db)

include hi in
theorem parents_total (replyTo : String) : ∃ parents, s.parents N db replyTo = .ok parents := by
  unfold parents SQLiteStore.eventMappingBySourceURI
  split
  · exact ⟨[], rfl⟩
  cases hg : db.bridgeEvents.get? (s.ref replyTo) with
  | none => exact ⟨[], rfl⟩
  | some m =>
    obtain ⟨hid, hk⟩ := hi.parsed _ m hg
    simp only [Option.map_some, hid, hk]
    exact ⟨_, rfl⟩

theorem mappedURI_total (hn : Named e.did e.rkey)
    (hc : e.collection = postCollection ∨ e.collection = repostCollection) (hr : Parses C e)
    (hp : Publishable C e) : ∃ r uri url, C.record e.record = some r ∧ mappedURI e r = .ok uri ∧
      blueskyPostURL uri = .ok url := by
  obtain ⟨r, hr, hsub⟩ := hr
  rcases hc with hc | hc
  · have hne : e.collection ≠ repostCollection := by rw [hc]; decide
    have hu := blueskyPostURL_recordURI hn
    rw [← hc] at hu
    exact ⟨r, e.uri, _, hr, if_neg hne, hu⟩
  · obtain ⟨r', url, hr', hu⟩ := hp hc
    rw [hr] at hr'
    cases hr'
    exact ⟨r, r.subject, url, hr, by rw [mappedURI, if_pos hc, if_neg (hsub hc)], hu⟩

include hN hseed hi in
theorem createdEvent_total (hn : Named e.did e.rkey)
    (hc : e.collection = postCollection ∨ e.collection = repostCollection) (hr : Parses C e)
    (hp : Publishable C e) : ∃ event, s.createdEvent N C db e = .ok event := by
  obtain ⟨r, uri, url, hr, hu, hl⟩ := mappedURI_total hn hc hr hp
  obtain ⟨parents, hpar⟩ := parents_total hi (r.content e.did).replyTo
  obtain ⟨event, he⟩ : ∃ event, postEvent N s.masterSeed (post e.did uri url (r.content e.did))
      parents = .ok event := postEvent_total hN hseed blank_bluesky hn.did_blank
  exact ⟨event, createdEvent_ok.2 ⟨r, uri, parents, url, hr, hu, hpar, hl, he⟩⟩

include hN hseed in
theorem replacementEvent_total (hn : Named e.did e.rkey)
    (hc : e.collection = postCollection ∨ e.collection = repostCollection) (hr : Parses C e)
    (hp : Publishable C e) : ∃ event, s.replacementEvent N C e = .ok event := by
  obtain ⟨r, uri, url, hr, hu, hl⟩ := mappedURI_total hn hc hr hp
  obtain ⟨event, he⟩ : ∃ event, postEvent N s.masterSeed (post e.did uri url (r.content e.did))
      [] = .ok event := postEvent_total hN hseed blank_bluesky hn.did_blank
  exact ⟨event, replacementEvent_ok.2 ⟨r, uri, url, hr, hu, hl, he⟩⟩

include hN hseed in
theorem deletionEvent_total {did : String} (hd : blank did = false) (id reason : String)
    (now : Int) : ∃ event, s.deletionEvent N did id reason now = .ok event := by
  obtain ⟨event, he⟩ : ∃ event, N.sign (actorKey N s.masterSeed ⟨"bluesky", did⟩)
      (deletionOf id reason now) = some event := sign_actorKey hN _
  exact ⟨event, deletionEvent_ok.2 ⟨_, deriveActorKey_total hN hseed blank_bluesky hd, he⟩⟩

include hi in
theorem enqueueAll_publish (r : OutboxRequest) (rs : List OutboxRequest)
    (hrs : ∀ x ∈ rs, x.operation = .publishEvent) :
    ∃ out, db.out.enqueueAll (allowRequests db r ++ rs) = .ok out := by
  refine OutboxTables.enqueueAll_total hi.out.queue ?_
  intro x hx
  rcases List.mem_append.1 hx with hx | hx
  · unfold allowRequests at hx
    split at hx
    · cases hx
    · rw [List.mem_singleton.1 hx]
      trivial
  · rw [hrs x hx]
    trivial

section
variable (hn : Named e.did e.rkey)
  (hc : e.collection = postCollection ∨ e.collection = repostCollection)
  (hp : db.publisherPurged (s.author N e.did) = false)
include hN hseed hi hn hp

include hc in
theorem created_total (ho : e.operation = .create)
    (hm : db.bridgeEvents.get? (s.ref e.uri) = none) (hr : Parses C e) (hpub : Publishable C e)
    (hroom : s.Room N db e.did 1) : ∃ db', s.Outcome N C clock db e db' := by
  obtain ⟨event, he⟩ := createdEvent_total hN hseed hi hn hc hr hpub
  obtain ⟨r, uri, parents, url, -, -, -, -, hpost⟩ := createdEvent_ok.1 he
  have hsign := postEvent_ok hpost
  have ha : event.pubKey = s.author N e.did := createdEvent_author he
  obtain ⟨out, hout⟩ := enqueueAll_publish hi
    (publishRequest event.pubKey (N.marshal event) clock.queued)
    [publishRequest event.pubKey (N.marshal event) clock.queued] (by simp [publishRequest])
  refine ⟨_, .created ho hm he (SQLiteStore.enqueueEvent_ok.2 ⟨rfl, ?_, ?_, ?_, ?_, out,
    hout, rfl⟩)⟩
  · show validatePublishRequest N (publishRequest event.pubKey _ _) = _
    rw [ha]
    exact validatePublishRequest_signed hN hsign _
  · exact validateMappingEventID_signed hN hsign rfl _ _
  · show db.publisherPurged event.pubKey = false
    rwa [ha]
  · show SQLiteStore.HasRoom db event.pubKey event.pubKey 1 s.limit
    rwa [ha]

include hc in
theorem replaced_total {old : BridgeEvent} (ho : e.operation = .update)
    (hid : db.operations.get? (s.ref e.uri) ≠ some (e.updateIdentity C))
    (hm : db.bridgeEvents.get? (s.ref e.uri) = some old) (hr : Parses C e)
    (hpub : Publishable C e) (hroom : s.Room N db e.did 2) :
    ∃ db', s.Outcome N C clock db e db' := by
  obtain ⟨event, he⟩ := replacementEvent_total hN hseed hn hc hr hpub
  obtain ⟨deletion, hd⟩ := deletionEvent_total hN hseed hn.did_blank old.nostrEventID
    "source record replaced" clock.signed
  obtain ⟨r, uri, url, -, -, -, hpost⟩ := replacementEvent_ok.1 he
  obtain ⟨key, hkey, hdel⟩ := deletionEvent_ok.1 hd
  rw [deriveActorKey_ok hkey] at hdel
  have hsign := postEvent_ok hpost
  have ha : event.pubKey = s.author N e.did := replacementEvent_author he
  obtain ⟨out, hout⟩ := enqueueAll_publish hi
    (publishRequest event.pubKey (N.marshal event) clock.queued)
    [publishRequest event.pubKey (N.marshal deletion) clock.queued,
      publishRequest event.pubKey (N.marshal event) clock.queued] (by simp [publishRequest])
  refine ⟨_, .replaced ho hid hm (hi.parsed _ old hm).1 hd he
    (SQLiteStore.enqueueUpdate_ok.2 ⟨⟨rfl, rfl⟩, ?_, ?_, ?_, ?_, ?_, out, hout, rfl⟩)⟩
  · show validatePublishRequest N (publishRequest event.pubKey _ _) = _
    rw [ha]
    exact validatePublishRequest_signed hN hdel _
  · show validatePublishRequest N (publishRequest event.pubKey _ _) = _
    rw [ha]
    exact validatePublishRequest_signed hN hsign _
  · exact validateMappingEventID_signed hN hsign rfl _ _
  · show db.publisherPurged event.pubKey = false
    rwa [ha]
  · show SQLiteStore.HasRoom db event.pubKey event.pubKey 2 s.limit
    rwa [ha]

include hc in
theorem deleted_total {old : BridgeEvent} (ho : e.operation = .delete)
    (hm : db.bridgeEvents.get? (s.ref e.uri) = some old) (hroom : s.Room N db e.did 1) :
    ∃ db', s.Outcome N C clock db e db' := by
  obtain ⟨deletion, hd⟩ := deletionEvent_total hN hseed hn.did_blank old.nostrEventID
    "source record deleted" clock.signed
  obtain ⟨key, hkey, hdel⟩ := deletionEvent_ok.1 hd
  rw [deriveActorKey_ok hkey] at hdel
  have ha : deletion.pubKey = s.author N e.did := (Nostr.Library.sign_eq_some hdel).1
  obtain ⟨out, hout⟩ := enqueueAll_publish hi
    (publishRequest deletion.pubKey (N.marshal deletion) clock.queued)
    [publishRequest deletion.pubKey (N.marshal deletion) clock.queued] (by simp [publishRequest])
  have hown : old.authorPubKey = s.author N e.did := hi.owned hn (not_slash_collection hc) old hm
  refine ⟨_, .deleted ho hm (hi.parsed _ old hm).1 hd
    (SQLiteStore.enqueueDelete_ok.2 ⟨old, hm, ?_, ?_, ?_, ?_, out, hout, rfl⟩)⟩
  · exact ha.trans hown.symm
  · show validatePublishRequest N (publishRequest deletion.pubKey _ _) = _
    rw [ha]
    exact validatePublishRequest_signed hN hdel _
  · show db.publisherPurged deletion.pubKey = false
    rwa [ha]
  · show SQLiteStore.HasRoom db deletion.pubKey deletion.pubKey 1 s.limit
    rwa [ha]

include hc in
theorem outcome_iff_passes (ho : ∀ name, e.operation ≠ .other name)
    (hr : e.operation ≠ .delete → Parses C e) :
    (∃ db', s.Outcome N C clock db e db') ↔ s.Passes N C db e := by
  constructor
  · rintro ⟨db', h⟩
    cases h with
    | settled hset => exact .inl hset
    | created hop hm he hs =>
      obtain ⟨r, uri, parents, url, hrec, hu, -, hl, -⟩ := createdEvent_ok.1 he
      obtain ⟨-, -, -, -, hroom, -⟩ := SQLiteStore.enqueueEvent_ok.1 hs
      have ha := createdEvent_author he
      refine .inr ?_
      rw [hop]
      refine ⟨publishable_of_mapped hrec hu hl, ?_⟩
      show SQLiteStore.HasRoom db _ _ 1 s.limit
      rwa [← ha]
    | replaced hop hid hm hp hd he hs =>
      obtain ⟨r, uri, url, hrec, hu, hl, -⟩ := replacementEvent_ok.1 he
      obtain ⟨-, -, -, -, -, hroom, -⟩ := SQLiteStore.enqueueUpdate_ok.1 hs
      have ha := replacementEvent_author he
      refine .inr ?_
      rw [hop]
      refine ⟨by rw [hm]; rfl, publishable_of_mapped hrec hu hl, ?_⟩
      show SQLiteStore.HasRoom db _ _ 2 s.limit
      rwa [← ha]
    | deleted hop hm hp hd hs =>
      obtain ⟨key, hkey, hdel⟩ := deletionEvent_ok.1 hd
      rw [deriveActorKey_ok hkey] at hdel
      obtain ⟨stored, -, -, -, -, hroom, -⟩ := SQLiteStore.enqueueDelete_ok.1 hs
      refine .inr ?_
      rw [hop]
      show SQLiteStore.HasRoom db _ _ 1 s.limit
      rw [author, ← (Nostr.Library.sign_eq_some hdel).1]
      exact hroom
  · intro h
    by_cases hset : s.Settled C db e
    · exact ⟨_, .settled hset⟩
    have h := h.resolve_left hset
    cases hop : e.operation with
    | create =>
      rw [hop] at h
      have hm : db.bridgeEvents.get? (s.ref e.uri) = none := by
        rwa [settled_create hop, Option.not_isSome_iff_eq_none] at hset
      exact created_total hN hseed hi hn hc hp hop hm (hr (by rw [hop]; simp)) h.1 h.2
    | update =>
      rw [hop] at h
      obtain ⟨old, hm⟩ := Option.isSome_iff_exists.1 h.1
      rw [settled_update hop] at hset
      exact replaced_total hN hseed hi hn hc hp hop hset hm (hr (by rw [hop]; simp)) h.2.1 h.2.2
    | delete =>
      rw [hop] at h
      rw [settled_delete hop] at hset
      obtain ⟨old, hm⟩ := Option.ne_none_iff_exists'.1 hset
      exact deleted_total hN hseed hi hn hc hp hop hm h
    | other name => exact absurd hop (ho name)

end

end

/-! ## Messages -/

section
variable (C : Codec) (s : Syncer) (v : Envelope)

/-- A commit of a subscribed DID to a post or a repost. -/
structure Commit : Prop where
  named : Named v.did v.rkey
  target : s.isTarget v.did = true
  collection : v.collection = postCollection ∨ v.collection = repostCollection
  operation : v.operation = .create ∨ v.operation = .update ∨ v.operation = .delete
  record : v.operation ≠ .delete → Parses C v.event

/-- An identity or account message of a subscribed DID. -/
structure NoCommit : Prop where
  target : s.isTarget v.did = true
  collection : v.collection = ""
  rkey : v.rkey = ""

def WellFormed : Prop := s.Commit C v ∨ s.NoCommit v

end

/-- A well-formed message of a subscribed DID that is not purged is consumed without an error if and
only if it carries a commit and the commit passes. -/
theorem consume_passes (hN : N.Sound) (hseed : s.masterSeed ≠ []) (hr : s.Reach N C db)
    {message : String} {v : Envelope} (hm : C.envelope message = some v) (hw : s.WellFormed C v)
    (hp : db.publisherPurged (s.author N v.did) = false) :
    (∃ db', s.consume N C db clock message = .ok db') ↔
      v.collection ≠ "" ∧ s.Passes N C db v.event := by
  have hi := SyncInv.of_reach hN hr
  rcases hw with hw | hw
  · have hdid : v.did ≠ "" := by
      intro h
      have := hw.named.did_blank
      rw [h] at this
      cases this
    have hcol : v.collection ≠ "" := by rcases hw.collection with h | h <;> rw [h] <;> decide
    have hdec : decode C message = .ok v.event := by
      rw [decode, hm]
      exact if_neg (by simp [hdid, hcol, hw.named.rkey_empty])
    have ho : ∀ name, v.event.operation ≠ .other name := by
      intro name h
      have hop := hw.operation
      rw [show v.operation = .other name from h] at hop
      simp at hop
    simp only [consume, hdec, hcol, ne_eq, not_false_eq_true, true_and]
    show (∃ db', s.handle N C db clock v.event = .ok db') ↔ _
    simp only [handle_ok_iff (e := v.event) hw.collection hw.target]
    exact outcome_iff_passes hN hseed hi hw.named hw.collection hp ho hw.record
  · have hdec : decode C message = .error .missingCommitIdentity := by
      rw [decode, hm]
      exact if_pos (.inr (.inl hw.collection))
    simp [consume, hdec, hw.collection, bind, Except.bind]

/-- A syncer for one repository. -/
def sample : Syncer where
  scope := ⟨"bluesky", "did:plc:a"⟩
  outboxLimit := 100
  masterSeed := [1]
  targets := some ["did:plc:a"]
  rewind := 3000000000

/-- A codec that knows three messages and one record. -/
def sampleCodec : Codec where
  envelope
    | "identity" => some ⟨"did:plc:a", 7, .other "", "", "", "", ""⟩
    | "update" => some ⟨"did:plc:a", 8, .update, postCollection, "3k", "cid", "post"⟩
    | "delete" => some ⟨"did:plc:a", 9, .delete, postCollection, "3k", "", ""⟩
    | _ => none
  record
    | "post" => some ⟨"hello", 0, none, "", .plain [] "", []⟩
    | _ => none
  sha256 text := text

theorem named_sample : Named "did:plc:a" "3k" := by
  constructor <;> decide

/-- The deletion of a record that was never mapped passes. -/
theorem consume_passes_delete :
    ∃ db', sample.consume .plain sampleCodec .empty ⟨0, 0⟩ "delete" = .ok db' := by
  have hw : sample.WellFormed sampleCodec
      ⟨"did:plc:a", 9, .delete, postCollection, "3k", "", ""⟩ :=
    .inl ⟨named_sample, by decide, .inl rfl, .inr (.inr rfl), fun h => absurd rfl h⟩
  refine (consume_passes Nostr.Library.plain_sound (by decide) .empty rfl hw rfl).2
    ⟨by decide, .inl rfl⟩

/-- An identity message, and the update of a record that was never mapped, do not pass. -/
theorem consume_blocks :
    (∃ v, sampleCodec.envelope "identity" = some v ∧ sample.WellFormed sampleCodec v ∧
      sample.consume .plain sampleCodec .empty ⟨0, 0⟩ "identity" = .error .missingCommitIdentity) ∧
    (∃ v, sampleCodec.envelope "update" = some v ∧ sample.WellFormed sampleCodec v ∧
      sample.consume .plain sampleCodec .empty ⟨0, 0⟩ "update" = .error .noSourceEvent) ∧
    sample.Reach .plain sampleCodec .empty ∧ DB.empty.out.outboxCount < sample.limit ∧
    ∀ pubKey, DB.empty.publisherPurged pubKey = false := by
  refine ⟨⟨_, rfl, .inr ⟨by decide, rfl, rfl⟩, rfl⟩, ⟨_, rfl, .inl ?_, rfl⟩, .empty, by decide,
    fun _ => rfl⟩
  exact ⟨named_sample, by decide, .inl rfl, .inr (.inl rfl), fun _ => ⟨_, rfl, by decide⟩⟩

end Syncer

end Bridge.Bluesky
