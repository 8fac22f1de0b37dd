import Mytools.Bridge.Proof.Purge

/-!
# A purge that is made again

The marker of a purge stays as it was written (`marker_run`), so another deletion is refused from
then on. The same deletion is accepted again only as long as it names exactly the events that are
mapped to the publisher: this is checked before the marker is looked at, and the completion of the
purge itself removes the mappings.
-/

namespace Bridge

open Lib

variable {N : Nostr.Library} {db db' : DB} {op : StoreOp} {items : List OutboxItem}

/-! ## The marker -/

theorem marker_exec {pk : String} {marker : PublisherPurge} (h : op.exec N db = .ok (db', items))
    (hm : db.purges.get? pk = some marker) : db'.purges.get? pk = some marker := by
  rcases (exec_written h).purges with he | ⟨q, marker', -, hp, he⟩
  · rw [he, hm]
  · rw [he, Table.get?_set]
    split
    · rename_i hk
      rw [DB.publisherPurged, ← hk, hm] at hp
      cases hp
    · exact hm

theorem marker_run {pk : String} {marker : PublisherPurge} (cs : List Call)
    (hm : db.purges.get? pk = some marker) : (db.run N cs).purges.get? pk = some marker :=
  DB.run_inv (I := fun db => db.purges.get? pk = some marker)
    (fun _ _ _ _ hm h => marker_exec h hm) cs hm

/-! ## Coverage -/

theorem nodup_eraseDups (l : List String) : l.eraseDups.Nodup := by
  cases l with
  | nil => exact List.nodup_nil
  | cons a l =>
    rw [List.eraseDups_cons, List.nodup_cons]
    refine ⟨?_, nodup_eraseDups (l.filter fun b => !b == a)⟩
    simp [List.mem_eraseDups]
termination_by l.length
decreasing_by
  have := List.length_filter_le (fun b => !b == a) l
  simp only [List.length_cons]
  omega

/-- Lists without duplicates, of one length, one within the other, have the same members. -/
theorem covers_iff {tagged known : List String} (ht : tagged.Nodup) (hk : known.Nodup) :
    (tagged.length = known.length ∧ ∀ id ∈ known, id ∈ tagged) ↔
      ∀ id, id ∈ known ↔ id ∈ tagged := by
  constructor
  · rintro ⟨hlen, hsub⟩ id
    have hperm := (List.subperm_of_subset hk hsub).perm_of_length_le (by omega)
    exact hperm.mem_iff
  · intro h
    have hperm : tagged.Perm known := (List.perm_ext_iff_of_nodup ht hk).2 fun id => (h id).symm
    exact ⟨hperm.length_eq, fun id hid => (h id).1 hid⟩

/-- The deletion is a signed one of the publisher. -/
def SignedDeletion (N : Nostr.Library) (pubKey : String) (d : Nostr.Event) : Prop :=
  d.kind = 5 ∧ d.pubKey = pubKey ∧ N.checkID d ∧ N.verifySignature d

/-- The tags of the deletion are the events that are mapped to the publisher. -/
def Tags (db : DB) (pubKey : String) (d : Nostr.Event) : Prop :=
  ∀ id, id ∈ db.eventIDsByAuthor pubKey ↔ id ∈ SQLiteStore.eTags d

theorem tags_iff (db : DB) (pubKey : String) (d : Nostr.Event) :
    ((SQLiteStore.eTags d).eraseDups.length = (db.eventIDsByAuthor pubKey).length ∧
      ∀ id ∈ db.eventIDsByAuthor pubKey, id ∈ (SQLiteStore.eTags d).eraseDups) ↔
      Tags db pubKey d := by
  have hknown : (db.eventIDsByAuthor pubKey).Nodup := nodup_eraseDups _
  rw [covers_iff (nodup_eraseDups _) hknown]
  simp only [List.mem_eraseDups, Tags]

/-! ## Purges of a marked publisher -/

/-- The result for a publisher that is marked. -/
theorem enqueuePurge_marked {q : PurgeRequest} {d : Nostr.Event} {marker : PublisherPurge}
    (hd : N.unmarshal q.payload = some d) (hm : db.purges.get? q.pubKey = some marker) :
    SQLiteStore.enqueuePurge N db q = .ok db' ↔ SignedDeletion N q.pubKey d ∧ Tags db q.pubKey d ∧
      marker.deletionEventID = d.id ∧ db = db' := by
  simp only [SQLiteStore.enqueuePurge, hd, check_ok_iff, require_eq_ok, tags_iff, hm]
  refine and_congr_right fun _ => and_congr_right fun _ => ?_
  split
  · rename_i he
    simp [he, pure, Except.pure]
  · rename_i he
    simp [he, throw, throwThe, MonadExceptOf.throw]

/-- After a purge: the deletion was signed and named the mapped events, and the marker names it. -/
theorem enqueuePurge_marks {q : PurgeRequest} {d : Nostr.Event}
    (hd : N.unmarshal q.payload = some d) (h : SQLiteStore.enqueuePurge N db q = .ok db') :
    SignedDeletion N q.pubKey d ∧ Tags db q.pubKey d ∧
      ∃ marker, db'.purges.get? q.pubKey = some marker ∧ marker.deletionEventID = d.id := by
  cases hm : db.purges.get? q.pubKey with
  | some marker =>
    obtain ⟨hs, ht, hid, rfl⟩ := (enqueuePurge_marked hd hm).1 h
    exact ⟨hs, ht, marker, hm, hid⟩
  | none =>
    have hp : db.publisherPurged q.pubKey = false := by rw [DB.publisherPurged, hm]; rfl
    rcases SQLiteStore.enqueuePurge_ok h with ⟨ht, -⟩ | ⟨-, -, -, d', out, hd', -, rfl⟩
    · rw [hp] at ht
      cases ht
    cases hd.symm.trans hd'
    simp only [SQLiteStore.enqueuePurge, hd, check_ok_iff, require_eq_ok, tags_iff] at h
    refine ⟨h.1, h.2.1, ⟨d.id, unix q.availableAt⟩, ?_, rfl⟩
    simp only [DB.insertPublisherPurge, Table.get?_set, if_true]

/-- `EnqueuePurge` of the outbox package decides as the store does. -/
theorem enqueuePurge_eq {d : Nostr.Event} {pubKey : String} {limit now : Int}
    (hd : N.unmarshal (N.marshal d) = some d) :
    enqueuePurge N db pubKey d limit now =
      SQLiteStore.enqueuePurge N db ⟨pubKey, N.marshal d, now, limit⟩ := by
  unfold enqueuePurge SQLiteStore.enqueuePurge
  simp only [hd]
  by_cases hs : d.kind = 5 ∧ d.pubKey = pubKey ∧ N.checkID d ∧ N.verifySignature d
  · by_cases hc : (SQLiteStore.eTags d).eraseDups.length = (db.eventIDsByAuthor pubKey).length ∧
        ∀ id ∈ db.eventIDsByAuthor pubKey, id ∈ (SQLiteStore.eTags d).eraseDups
    · simp only [require, if_pos hs, if_pos hc]
      rfl
    · simp only [require, if_pos hs, if_neg hc]
      rfl
  · simp only [require, if_neg hs]
    rfl

theorem result_enqueuePurge (q : PurgeRequest) : (Call.mk (.enqueuePurge q) false).result N db =
    (SQLiteStore.enqueuePurge N db q).map (·, []) := rfl

/-- After a purge with the deletion `d` and any calls: the same deletion is accepted, and nothing
changes, if and only if the events that are mapped to the publisher are those that were mapped at
the purge; any other deletion is refused, and nothing changes. `EnqueuePurge` of the outbox package
does the same with every event that is read back from its text. -/
theorem purge_repeats_iff {q : PurgeRequest} {d : Nostr.Event} {db₁ : DB}
    (hd : N.unmarshal q.payload = some d) (h : SQLiteStore.enqueuePurge N db q = .ok db₁)
    (cs : List Call) :
    (∀ q', q'.pubKey = q.pubKey → N.unmarshal q'.payload = some d →
      ((Call.mk (.enqueuePurge q') false).result N (db₁.run N cs) = .ok (db₁.run N cs, []) ↔
        ∀ id, id ∈ (db₁.run N cs).eventIDsByAuthor q.pubKey ↔ id ∈ db.eventIDsByAuthor q.pubKey)) ∧
    (∀ q' d', q'.pubKey = q.pubKey → N.unmarshal q'.payload = some d' → d'.id ≠ d.id →
      (∃ e, (Call.mk (.enqueuePurge q') false).result N (db₁.run N cs) = .error e) ∧
        (Call.mk (.enqueuePurge q') false).next N (db₁.run N cs) = db₁.run N cs) ∧
    ∀ d' limit now, N.unmarshal (N.marshal d') = some d' →
      (d' = d → (enqueuePurge N (db₁.run N cs) q.pubKey d' limit now = .ok (db₁.run N cs) ↔
        ∀ id, id ∈ (db₁.run N cs).eventIDsByAuthor q.pubKey ↔
          id ∈ db.eventIDsByAuthor q.pubKey)) ∧
      (d'.id ≠ d.id → ∃ e, enqueuePurge N (db₁.run N cs) q.pubKey d' limit now = .error e) := by
  obtain ⟨hsigned, htags, marker, hm, hid⟩ := enqueuePurge_marks hd h
  have hm' := marker_run (N := N) cs hm
  have hsame : ∀ q', q'.pubKey = q.pubKey → N.unmarshal q'.payload = some d →
      (SQLiteStore.enqueuePurge N (db₁.run N cs) q' = .ok (db₁.run N cs) ↔
        ∀ id, id ∈ (db₁.run N cs).eventIDsByAuthor q.pubKey ↔
          id ∈ db.eventIDsByAuthor q.pubKey) := by
    intro q' hpk hd'
    rw [← hpk] at hm'
    simp only [enqueuePurge_marked hd' hm', hid, and_true, hpk, and_iff_right hsigned]
    exact forall_congr' fun id => by rw [htags id]
  have hother : ∀ q' d', q'.pubKey = q.pubKey → N.unmarshal q'.payload = some d' → d'.id ≠ d.id →
      ∃ e, SQLiteStore.enqueuePurge N (db₁.run N cs) q' = .error e := by
    intro q' d' hpk hd' hne
    cases hr : SQLiteStore.enqueuePurge N (db₁.run N cs) q' with
    | error e => exact ⟨e, rfl⟩
    | ok x =>
      rw [← hpk] at hm'
      exact absurd (hid.symm.trans ((enqueuePurge_marked hd' hm').1 hr).2.2.1) (Ne.symm hne)
  refine ⟨fun q' hpk hd' => ?_, fun q' d' hpk hd' hne => ?_, fun d' limit now hd' => ⟨?_, ?_⟩⟩
  · rw [← hsame q' hpk hd', result_enqueuePurge, map_ok_iff]
    simp
  · obtain ⟨e, he⟩ := hother q' d' hpk hd' hne
    have hr : (Call.mk (.enqueuePurge q') false).result N (db₁.run N cs) = .error e := by
      rw [result_enqueuePurge, he]
      rfl
    exact ⟨⟨e, hr⟩, Call.next_of_error hr⟩
  · rintro rfl
    rw [enqueuePurge_eq hd']
    exact hsame _ rfl hd'
  · intro hne
    rw [enqueuePurge_eq hd']
    exact hother _ d' rfl hd' hne

/-! A post is published and its publisher purged. -/

def published : List Call :=
  [⟨.enqueueEvent (notePost "p" "u" "1"), false⟩,
   claimAt 0 1, ⟨.completePublisherRegistration 1 (numberedToken 1) "p" 0, false⟩,
   claimAt 0 2, ⟨.completeOutbox 2 (numberedToken 2) 0, false⟩]

def purgeDelivered : List Call :=
  [claimAt 0 3, ⟨.completeOutbox 3 (numberedToken 3) 0, false⟩,
   claimAt 0 4, ⟨.completePublisherUnregistration 4 (numberedToken 4) 0 "p", false⟩]

/-- The purge with the deletion of that post. -/
def postPurge (now limit : Int) : PurgeRequest :=
  purgeOf "p" [(Nostr.plainNote "p" "1").id] now limit

theorem unmarshal_postPurge (now limit : Int) :
    Nostr.Library.plain.unmarshal (postPurge now limit).payload =
      some (Nostr.plainDeletion "p" [(Nostr.plainNote "p" "1").id]) :=
  Nostr.unmarshal_plainText _

/-- The purge leaves the post mapped until it has been delivered. -/
theorem postPurge_accepted : ∃ db₁,
    SQLiteStore.enqueuePurge Nostr.Library.plain (DB.empty.run Nostr.Library.plain published)
      (postPurge 0 10) = .ok db₁ ∧
    db₁.eventIDsByAuthor "p" =
      (DB.empty.run Nostr.Library.plain published).eventIDsByAuthor "p" ∧
    (db₁.run Nostr.Library.plain purgeDelivered).eventIDsByAuthor "p" = [] := by
  rw [SQLiteStore.enqueuePurge, unmarshal_postPurge]
  exact ⟨_, rfl, rfl, rfl⟩

/-- Right after the purge the same deletion is accepted again. -/
theorem purge_repeats_at_once : ∃ db₁,
    SQLiteStore.enqueuePurge Nostr.Library.plain (DB.empty.run Nostr.Library.plain published)
      (postPurge 0 10) = .ok db₁ ∧
    (Call.mk (.enqueuePurge (postPurge 5 0)) false).result Nostr.Library.plain db₁ =
      .ok (db₁, []) := by
  obtain ⟨db₁, h, hids, -⟩ := postPurge_accepted
  have hrepeat := (purge_repeats_iff (unmarshal_postPurge 0 10) h []).1 (postPurge 5 0) rfl
    (unmarshal_postPurge 5 0)
  exact ⟨db₁, h, hrepeat.2 fun id => iff_of_eq (congrArg (id ∈ ·) hids)⟩

/-- When the purge has been delivered it is not. -/
theorem delivered_purge_fails : ∃ db₁,
    SQLiteStore.enqueuePurge Nostr.Library.plain (DB.empty.run Nostr.Library.plain published)
      (postPurge 0 10) = .ok db₁ ∧
    (Call.mk (.enqueuePurge (postPurge 5 10)) false).result Nostr.Library.plain
      (db₁.run Nostr.Library.plain purgeDelivered) = .error .purgeDoesNotCover := by
  obtain ⟨db₁, h, -, hids⟩ := postPurge_accepted
  refine ⟨db₁, h, ?_⟩
  rw [result_enqueuePurge, SQLiteStore.enqueuePurge, unmarshal_postPurge]
  simp only [show (postPurge 5 10).pubKey = "p" from rfl, hids]
  rfl

end Bridge
