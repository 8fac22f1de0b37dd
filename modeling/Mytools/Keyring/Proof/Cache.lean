import Mytools.Keyring.Proof.Frame

/-!
# What the cached backend does to the vault

Of the steps of a `CachedBackend` with `AsyncSave`, the background saves write to the vault and the
deletions erase from it; all the others are `Quiet`. A save keeps the attributes of the request that
it was made for, whatever becomes of its ID (`saves_requested`). So the stored items that no request
of a run asks for are kept through the whole run if every save of it spares what it goes to.
-/

namespace Keyring

open Lib OnePassword

variable {env : Env} {v v₁ : Vault} {item : SecretItem} {s t u : Cached}

namespace Cached

/-! ## Quiet steps -/

/-- Nothing happens to the vault, and no save gets other attributes. -/
structure Quiet (s t : Cached) : Prop where
  vault : t.vault = s.vault
  saves : ∀ p' ∈ t.saves, ∃ p ∈ s.saves, p'.item.attributes = p.item.attributes

theorem Quiet.of_eq (hv : t.vault = s.vault) (hs : t.saves = s.saves) : Quiet s t :=
  ⟨hv, fun p hp => ⟨p, hs ▸ hp, rfl⟩⟩

theorem Quiet.trans (h : Quiet s t) (h' : Quiet t u) : Quiet s u := by
  refine ⟨h'.vault.trans h.vault, fun p hp => ?_⟩
  obtain ⟨q, hq, hpq⟩ := h'.saves p hp
  obtain ⟨r, hr, hqr⟩ := h.saves q hq
  exact ⟨r, hr, hpq.trans hqr⟩

theorem mem_mark {ns : List Nat} {f : PendingSave → PendingSave} {p' : PendingSave}
    (h : p' ∈ (s.mark ns f).saves) : ∃ p ∈ s.saves, p' = f p ∨ p' = p := by
  obtain ⟨i, hi, rfl⟩ := List.mem_mapIdx.1 h
  refine ⟨s.saves[i], List.getElem_mem hi, ?_⟩
  split
  · exact .inl rfl
  · exact .inr rfl

theorem quiet_mark (s : Cached) (ns : List Nat) {f : PendingSave → PendingSave}
    (hf : ∀ p, (f p).item.attributes = p.item.attributes) : Quiet s (s.mark ns f) := by
  refine ⟨rfl, fun p' hp' => ?_⟩
  obtain ⟨p, hp, rfl | rfl⟩ := mem_mark hp'
  · exact ⟨p, hp, hf p⟩
  · exact ⟨p', hp, rfl⟩

theorem quiet_setPhase (s : Cached) (n : Nat) (phase : Phase) : Quiet s (s.setPhase n phase) :=
  quiet_mark s _ fun _ => rfl

theorem quiet_setQueue (s : Cached) (key : String) (q : List Nat) : Quiet s (s.setQueue key q) :=
  .of_eq rfl rfl

theorem quiet_removePendingSaveLocked (s : Cached) (key : String) (n : Nat) :
    Quiet s (s.removePendingSaveLocked key n) := by
  have hkey : ∀ k, ∀ t ∈ s.removePendingSaveFromKeyLocked k n, Quiet s t := by
    intro k t ht
    rw [Option.mem_def, removePendingSaveFromKeyLocked, Option.ite_none_right_eq_some] at ht
    cases ht.2
    exact quiet_setQueue s k _
  rw [removePendingSaveLocked]
  cases hr : Option.or _ _ with
  | none => exact .of_eq rfl rfl
  | some t =>
    rw [Option.or_eq_some_iff, Option.or_eq_some_iff] at hr
    rcases hr with (hr | ⟨-, hr⟩) | ⟨-, hr⟩
    · exact hkey key t hr
    · obtain ⟨k, -, hr⟩ := Option.bind_eq_some_iff.1 hr
      exact hkey k t hr
    · obtain ⟨row, -, hr⟩ := List.exists_of_findSome?_eq_some hr
      exact hkey row.1 t hr

theorem quiet_cleanupAlias (s : Cached) (id : String) : Quiet s (s.cleanupAlias id) := by
  unfold cleanupAlias
  split
  · exact .of_eq rfl rfl
  · exact .of_eq rfl rfl

theorem quiet_evict (s : Cached) (id resolvedID : String) :
    Quiet s (s.evictItemFromCachesLocked id resolvedID) := by
  refine Quiet.trans (Quiet.trans ?_ (quiet_cleanupAlias _ id)) (quiet_cleanupAlias _ resolvedID)
  exact .of_eq rfl rfl

theorem quiet_persistStart (s : Cached) (n : Nat) {p : PendingSave} (hp : s.saves[n]? = some p) :
    Quiet s (s.persistStart n p) := by
  unfold persistStart
  split
  · exact (quiet_removePendingSaveLocked s _ n).trans (quiet_setPhase _ n _)
  split
  · exact (quiet_removePendingSaveLocked s _ n).trans (quiet_setPhase _ n _)
  · refine ⟨rfl, fun p' hp' => ?_⟩
    obtain ⟨q, hq, rfl | rfl⟩ := mem_mark hp'
    · refine ⟨p, List.mem_of_getElem? hp, ?_⟩
      dsimp only
      split
      · rfl
      · rfl
    · exact ⟨p', hq, rfl⟩

theorem quiet_rename (s : Cached) (pendingID : String) (item : SecretItem) :
    Quiet s (s.rename pendingID item) := by
  unfold rename
  dsimp only
  split
  · exact .of_eq rfl rfl
  · exact .of_eq rfl rfl

theorem quiet_persistEnd (s : Cached) (n : Nat) (p : PendingSave) (ok : Bool) :
    Quiet s (s.persistEnd n p ok) := by
  have hremove := quiet_removePendingSaveLocked s p.trackingKey n
  unfold persistEnd
  dsimp only
  split
  · exact hremove.trans (quiet_setPhase _ n _)
  · refine Quiet.trans ?_ (quiet_setPhase _ n _)
    split
    · exact hremove.trans (quiet_rename _ _ _)
    · exact hremove

theorem quiet_markDeleted (s : Cached) (key : String) :
    Quiet s (s.markPendingSavesDeletedLocked key) := quiet_mark s _ fun _ => rfl

theorem quiet_delete (s : Cached) (id : String) : Quiet s (s.delete id) := by
  have hfold : ∀ (rows : List (String × String)) (s : Cached),
      Quiet s (rows.foldl (fun s r => s.markPendingSavesDeletedLocked r.1) s) := by
    intro rows
    induction rows with
    | nil => exact fun s => .of_eq rfl rfl
    | cons r rows ih => exact fun s => (quiet_markDeleted s r.1).trans (ih _)
  have hmark : Quiet s (if s.resolveID id = id then s.markPendingSavesDeletedLocked id
      else
        (s.markPendingSavesDeletedLocked id).markPendingSavesDeletedLocked (s.resolveID id)) := by
    split
    · exact quiet_markDeleted s id
    · exact (quiet_markDeleted s id).trans (quiet_markDeleted _ _)
  unfold delete
  dsimp only
  split
  · exact (hmark.trans (hfold _ _)).trans (quiet_evict _ id _)
  · exact (hmark.trans (hfold _ _)).trans (.of_eq rfl rfl)

/-- A save that was accepted has the attributes of its item. -/
theorem saveLater_saves {newPendingID : String} {p' : PendingSave}
    (h : p' ∈ (s.saveLater newPendingID item).1.saves) :
    (∃ p ∈ s.saves, p'.item.attributes = p.item.attributes) ∨
      p'.item.attributes = item.attributes := by
  rcases List.mem_append.1 h with h | h
  · exact .inl ((quiet_mark s _ (f := fun p => { p with superseded := true })
      fun _ => rfl).saves p' h)
  · rw [List.mem_singleton.1 h]
    exact .inr rfl

/-! ## Steps -/

/-- What a step does to the vault. -/
def Effect (env : Env) (v v' : Vault) : Action → Prop
  | .write p => v' = vaultAfter (OnePassword.save env v p.item) v
  | .erase id => v' = v.erase id
  | .save _ | .internal => KeepsAll env v v'

/-- Beside its effect on the vault a step is quiet, unless it accepts a save. -/
theorem step_cases {a : Action} (h : Step env s a t) :
    (∃ vault, Effect env s.vault vault a ∧ Quiet { s with vault } t) ∨
      ∃ item newPendingID, a = .save item ∧ t = (s.saveLater newPendingID item).1 := by
  have hkeep := KeepsAll.refl env s.vault
  cases h with
  | load schedule items vault _ hload =>
    obtain ⟨items', vault', hload', hk, -⟩ := loadMetadata_spec env schedule s.vault
    cases hload.symm.trans hload'
    exact .inl ⟨vault, hk, .of_eq rfl rfl⟩
  | fill items _ => exact .inl ⟨s.vault, hkeep, .of_eq rfl rfl⟩
  | save item newPendingID _ => exact .inr ⟨item, newPendingID, rfl, rfl⟩
  | start n p hp _ _ => exact .inl ⟨s.vault, hkeep, quiet_persistStart s n hp⟩
  | timeout n p _ _ _ =>
    exact .inl ⟨s.vault, hkeep,
      (quiet_removePendingSaveLocked s p.trackingKey n).trans (quiet_setPhase _ n _)⟩
  | write n p _ _ =>
    refine .inl ⟨_, rfl, ?_⟩
    unfold persistRaw
    cases OnePassword.save env s.vault p.item with
    | error e => exact quiet_setPhase s n _
    | ok r => exact quiet_mark _ [n] fun _ => rfl
  | writeFails n p _ _ => exact .inl ⟨s.vault, hkeep, quiet_setPhase s n _⟩
  | finish n p ok _ _ => exact .inl ⟨s.vault, hkeep, quiet_persistEnd s n p ok⟩
  | clean n p id _ _ => exact .inl ⟨_, rfl, quiet_setPhase _ n _⟩
  | cleanFails n p id _ _ => exact .inl ⟨s.vault, hkeep, quiet_setPhase s n _⟩
  | delete id => exact .inl ⟨s.vault, hkeep, quiet_delete s id⟩
  | rawDelete id resolvedID _ => exact .inl ⟨_, rfl, .of_eq rfl rfl⟩
  | rawDeleteFails id resolvedID _ => exact .inl ⟨s.vault, hkeep, .of_eq rfl rfl⟩
  | evict id resolvedID _ =>
    exact .inl ⟨s.vault, hkeep, (quiet_evict s id resolvedID).trans (.of_eq rfl rfl)⟩

theorem step_effect {a : Action} (h : Step env s a t) : Effect env s.vault t.vault a := by
  rcases step_cases h with ⟨vault, he, hq⟩ | ⟨item, newPendingID, rfl, rfl⟩
  · rw [hq.vault]
    exact he
  · exact KeepsAll.refl env s.vault

theorem step_saves {a : Action} (h : Step env s a t) : ∀ p' ∈ t.saves,
    (∃ p ∈ s.saves, p'.item.attributes = p.item.attributes) ∨
      ∃ item, a = .save item ∧ p'.item.attributes = item.attributes := by
  intro p' hp'
  rcases step_cases h with ⟨vault, -, hq⟩ | ⟨item, newPendingID, rfl, rfl⟩
  · exact .inl (hq.saves p' hp')
  · exact (saveLater_saves hp').imp_right fun he => ⟨item, rfl, he⟩

theorem write_mem {p : PendingSave} (h : Step env s (.write p) t) : p ∈ s.saves := by
  cases h with
  | write n _ hp _ => exact List.mem_of_getElem? hp

/-! ## Runs -/

/-- A step that spares what a save goes to. -/
def Sparing (env : Env) (s : Cached) (a : Action) (t : Cached) : Prop :=
  Step env s a t ∧ ∀ p, a = .write p → Spares env s.vault s.vault p.item.id p.item.attributes

/-- Every save of a run was asked for in it. -/
theorem saves_requested {ls : List Action} (h : Runs (Sparing env) { vault := v } ls t) :
    ∀ p ∈ t.saves, ∃ item, .save item ∈ ls ∧ p.item.attributes = item.attributes := by
  induction h with
  | nil => simp
  | snoc hrun hstep ih =>
    intro p' hp'
    rcases step_saves hstep.1 p' hp' with ⟨p, hp, he⟩ | ⟨item, rfl, he⟩
    · obtain ⟨item, hitem, hp⟩ := ih p hp
      exact ⟨item, List.mem_append_left _ hitem, he.trans hp⟩
    · exact ⟨item, List.mem_append_right _ (List.mem_singleton.2 rfl), he⟩

theorem run_keeps {ls : List Action} (h : Runs (Sparing env) { vault := v } ls t) {id : String}
    {it : OpItem} (hit : v.get? id = some it)
    (hother : ∀ item, .save item ∈ ls → ¬ Table.Same (attributesOf env it) item.attributes)
    (herase : .erase id ∉ ls) : ∃ it', t.vault.get? id = some it' ∧ Keeps env it it' := by
  induction h with
  | nil => exact ⟨it, hit, Keeps.refl env it⟩
  | @snoc ls a s t hrun hstep ih =>
    obtain ⟨it₁, hit₁, hk⟩ := ih (fun item h => hother item (List.mem_append_left _ h))
      fun h => herase (List.mem_append_left _ h)
    have heffect := step_effect hstep.1
    suffices hnext : ∃ it', t.vault.get? id = some it' ∧ Keeps env it₁ it' by
      obtain ⟨it', hit', hk'⟩ := hnext
      exact ⟨it', hit', hk.trans hk'⟩
    cases a with
    | save item => exact KeepsAll.items heffect id it₁ hit₁
    | internal => exact KeepsAll.items heffect id it₁ hit₁
    | erase id' =>
      have hne : id ≠ id' := by
        rintro rfl
        exact herase (List.mem_append_right _ (List.mem_singleton.2 rfl))
      refine ⟨it₁, ?_, Keeps.refl env it₁⟩
      rw [show t.vault = s.vault.erase id' from heffect, Table.get?_erase, if_neg hne]
      exact hit₁
    | write p =>
      have hframe := (frame_save_iff (KeepsAll.refl env s.vault) p.item).2 (hstep.2 p rfl)
      rw [show t.vault = _ from heffect]
      refine hframe.kept id it₁ hit₁ fun hsame => ?_
      obtain ⟨item, hitem, he⟩ := saves_requested hrun p (write_mem hstep.1)
      exact hother item (List.mem_append_left _ hitem) (he ▸ hk.attributes.symm.trans hsame)

/-! ## Requests -/

theorem searches (env : Env) (schedule : List (List Nat))
    (order : List SecretItem → List SecretItem) (asyncSave : Bool) (newPendingID : Option String) :
    Searches (Cached.backend env schedule order asyncSave newPendingID) := by
  intro attributes s
  simp only [Cached.backend, Cached.search]
  obtain ⟨r, s'⟩ := Cached.metadata s env schedule
  cases r with
  | error e => rfl
  | ok u =>
    simp only [matching_empty]
    rfl

/-- A search is a run of quiet steps and of loads. -/
theorem search_runs (env : Env) (schedule : List (List Nat))
    (order : List SecretItem → List SecretItem) (asyncSave : Bool) (newPendingID : Option String)
    (replace : Bool) (s : Cached) :
    ∃ ls, Runs (Step env) s ls
        (afterSearch (Cached.backend env schedule order asyncSave newPendingID) replace s) ∧
      ∀ a ∈ ls, a = .internal := by
  have hnothing : ∃ ls, Runs (Step env) s ls s ∧ ∀ a ∈ ls, a = .internal := ⟨[], .nil, by simp⟩
  unfold afterSearch
  cases replace with
  | false => exact hnothing
  | true =>
    simp only [if_true, Cached.backend, Cached.search, Cached.metadata]
    cases hl : s.metaLoaded with
    | true => exact hnothing
    | false =>
      cases hloading : s.loading with
      | some items => exact ⟨[.internal], Runs.one (.fill items hloading), by simp⟩
      | none =>
        obtain ⟨items, vault, hload, -⟩ := loadMetadata_spec env schedule s.vault
        simp only [hload]
        have hrun := Runs.one (Step.load schedule items vault hloading hload)
        exact ⟨_, hrun.snoc (.fill items rfl), by simp⟩

theorem runs_keepsAll {ls : List Action} (h : Runs (Step env) s ls t)
    (hi : ∀ a ∈ ls, a = .internal) :
    KeepsAll env s.vault t.vault := by
  induction h with
  | nil => exact KeepsAll.refl env s.vault
  | snoc hrun hstep ih =>
    have heffect := step_effect hstep
    rw [hi _ (List.mem_append_right _ (List.mem_singleton.2 rfl))] at heffect
    exact (ih fun a ha => hi a (List.mem_append_left _ ha)).trans heffect

theorem saveNow_vault (s : Cached) (item : SecretItem) :
    (s.saveNow env item).2.vault =
      vaultAfter (OnePassword.save env s.vault { item with id := s.rawID item.id }) s.vault := by
  unfold saveNow
  dsimp only
  cases OnePassword.save env s.vault { item with id := s.rawID item.id } with
  | error e => rfl
  | ok r =>
    dsimp only
    split <;> rfl

/-- `CreateItem` with `AsyncSave` is a run: the search, and then the `Save` of what it found, unless
there is no randomness for a new ID. -/
theorem createItem_runs {service : ServiceObject} {properties : Table String Variant}
    {secret : DBusSecret} (h : service.requestedItem properties secret = .ok item)
    (replace : Bool) (schedule : List (List Nat)) (order : List SecretItem → List SecretItem)
    (newPendingID : Option String) (hnew : ∀ id ∈ newPendingID, isPendingID id = true)
    (s : Cached) :
    ∃ ls tail, Runs (Step env) s (ls ++ tail) (service.createItem
        (Cached.backend env schedule order true newPendingID) properties secret replace s).2 ∧
      (∀ a ∈ ls, a = .internal) ∧
      (tail = [.save { item with id := matchedID (searched (Cached.backend env schedule order true
          newPendingID) replace s) item.attributes }] ∨ newPendingID = none ∧ tail = []) := by
  obtain ⟨ls, hrun, hls⟩ := search_runs env schedule order true newPendingID replace s
  rw [createItem_state (searches env schedule order true newPendingID) h]
  simp only [Cached.backend, Cached.save, if_true]
  cases newPendingID with
  | some id => exact ⟨ls, _, hrun.snoc (.save _ id (hnew id rfl)), hls, .inl rfl⟩
  | none =>
    dsimp only
    split
    · exact ⟨ls, [], (List.append_nil ls).symm ▸ hrun, hls, .inr ⟨rfl, rfl⟩⟩
    · exact ⟨ls, _, hrun.snoc (.save _ pendingIDPrefix (by decide)), hls, .inl rfl⟩

end Cached

/-! ## Creating an item -/

/-- The items with other attributes are left alone exactly if the item that the save goes to has the
same ones: by `Save` without an ID, by `CreateItem` with the 1Password backend and with a cache that
saves at once, and by every background save of a cache with `AsyncSave`, where `CreateItem` is a run
of steps that change nothing. And a run keeps every stored item whose attributes no request of it
has and that it does not delete, if each of its background saves spares what it goes to. -/
theorem creation_spares_iff (env : Env) (item : SecretItem) :
    (∀ v, item.id = "" → (Frame env v item.attributes (vaultAfter (save env v item) v) ↔
      Spares env v v "" item.attributes)) ∧
    (∀ (service : ServiceObject) (properties : Table String Variant) (secret : DBusSecret)
      (replace : Bool) (schedule : List (List Nat)),
      service.requestedItem properties secret = .ok item →
      (∀ expired v, Frame env v item.attributes (service.createItem
          (OnePassword.backend env schedule expired) properties secret replace v).2 ↔
        Spares env v (afterSearch (OnePassword.backend env schedule expired) replace v)
          (matchedID (searched (OnePassword.backend env schedule expired) replace v)
            item.attributes) item.attributes) ∧
      ∀ (order : List SecretItem → List SecretItem) (s : Cached),
        (Frame env s.vault item.attributes (service.createItem
            (Cached.backend env schedule order false none) properties secret replace s).2.vault ↔
          Spares env s.vault
            (afterSearch (Cached.backend env schedule order false none) replace s).vault
            ((afterSearch (Cached.backend env schedule order false none) replace s).rawID
              (matchedID (searched (Cached.backend env schedule order false none) replace s)
                item.attributes)) item.attributes) ∧
        ∀ newPendingID, (∀ id ∈ newPendingID, isPendingID id = true) →
          ∃ ls tail, Runs (Cached.Step env) s (ls ++ tail) (service.createItem
              (Cached.backend env schedule order true newPendingID) properties secret replace
              s).2 ∧
            (∀ a ∈ ls, a = .internal) ∧
            (tail = [.save { item with id := matchedID (searched (Cached.backend env schedule order
              true newPendingID) replace s) item.attributes }] ∨
              newPendingID = none ∧ tail = [])) ∧
    (∀ s a t, Cached.Step env s a t → match a with
      | .write p => Frame env s.vault p.item.attributes t.vault ↔
          Spares env s.vault s.vault p.item.id p.item.attributes
      | .erase id => t.vault = s.vault.erase id
      | .save _ | .internal => KeepsAll env s.vault t.vault) ∧
    ∀ v ls t, Runs (Cached.Sparing env) { vault := v } ls t →
      ∀ id it, v.get? id = some it →
        (∀ r, .save r ∈ ls → ¬ Table.Same (attributesOf env it) r.attributes) → .erase id ∉ ls →
        ∃ it', t.vault.get? id = some it' ∧ Keeps env it it' := by
  refine ⟨fun v hid => ?_,
    fun service properties secret replace schedule hreq =>
      ⟨fun expired v => ?_, fun order s => ⟨?_, fun newPendingID hnew => ?_⟩⟩,
    fun s a t hstep => ?_,
    fun v ls t hrun id it hit hother herase => Cached.run_keeps hrun hit hother herase⟩
  · rw [← hid]
    exact frame_save_iff (KeepsAll.refl env v) item
  · rw [createItem_state (OnePassword.searches env schedule expired) hreq, OnePassword.backend_save]
    exact frame_save_id (OnePassword.search_spec env schedule expired replace v).1 item _
  · obtain ⟨ls, hrun, hls⟩ := Cached.search_runs env schedule order false none replace s
    rw [createItem_state (Cached.searches env schedule order false none) hreq]
    refine Iff.trans (iff_of_eq (congrArg _ (Cached.saveNow_vault _ _))) ?_
    exact frame_save_id (Cached.runs_keepsAll hrun hls) item _
  · exact Cached.createItem_runs hreq replace schedule order newPendingID hnew s
  · have heffect := Cached.step_effect hstep
    cases a with
    | write p =>
      rw [show t.vault = _ from heffect]
      exact frame_save_iff (KeepsAll.refl env s.vault) p.item
    | erase id => exact heffect
    | save item => exact heffect
    | internal => exact heffect

/-! ## A login and a token -/

def loginVault : Vault := Table.empty.set "login" (savedItem loginItem)

/-- The token has one of the two attributes of the login. -/
def sharedVault : Vault := loginVault.set "token" (savedItem tokenItem)

theorem get?_loginVault {id : String} {it : OpItem} (h : loginVault.get? id = some it) :
    id = "login" ∧ it = savedItem loginItem := by
  rw [loginVault, Table.get?_set_eq_some, Table.get?_empty] at h
  rcases h with ⟨rfl, rfl⟩ | ⟨-, h⟩
  · exact ⟨rfl, rfl⟩
  · cases h

theorem login_spared (h : KeepsAll sampleEnv sharedVault v₁) {id : String}
    (hid : id = "" ∨ id = "login") : Spares sampleEnv sharedVault v₁ id loginItem.attributes := by
  intro target ht it hit
  have hlogin := attributesOf_savedItem sampleEnv loginItem
  rw [sharedVault, Table.get?_set_eq_some] at hit
  rcases hit with ⟨rfl, rfl⟩ | ⟨-, hit⟩
  swap
  · rw [(get?_loginVault hit).2]
    exact hlogin
  -- no save of the login goes to the token
  rcases hid with rfl | rfl
  · rw [goesTo, if_pos rfl, Option.map_eq_some_iff] at ht
    obtain ⟨m, hm, hid⟩ := ht
    obtain ⟨_, it₁, hit₁, -, rfl⟩ := mem_listed.1 (List.mem_of_find?_eq_some hm)
    have hmatch := List.find?_some hm
    dsimp only [metadataOf] at hmatch hid
    obtain ⟨it', hit', hk⟩ := h.items "token" _ (by rw [sharedVault, Table.get?_set, if_pos rfl])
    cases (hid ▸ hit₁ : v₁.get? "token" = _).symm.trans hit'
    rw [attributesMatch_congr (hk.attributes.trans (attributesOf_savedItem sampleEnv tokenItem))]
      at hmatch
    exact absurd hmatch (by decide)
  · simp [goesTo] at ht

def plainService : ServiceObject where
  sessions := ⟨[("session", { algorithm := "plain", aesKey := none })], by simp⟩
  aesCBCDecrypt _ _ _ := .error (.failed "no key")
  exportItem _ := .ok ()

/-- A request for an item. -/
def requestFor (item : SecretItem) : Table String Variant :=
  ⟨[("org.freedesktop.Secret.Item.Label", .string item.label),
    ("org.freedesktop.Secret.Item.Attributes", .attributes item.attributes)],
    by simp⟩

/-- `CreateItem` with `AsyncSave`. -/
def requested (item : SecretItem) (replace : Bool) (s : Cached) : Cached :=
  (plainService.createItem (Cached.backend sampleEnv [] id true (some "pending_1"))
    (requestFor item) ⟨"session", [], item.secret⟩ replace s).2

/-- The cache has the metadata of both items. -/
def warmCache : Cached where
  vault := sharedVault
  metaCache := ⟨[("token", { tokenItem with id := "token", secret := [] }),
    ("login", { loginItem with id := "login", secret := [] })], by simp⟩
  metaLoaded := true

/-- The background save of the login, when `raw.Save` is next. -/
def loginSave : PendingSave where
  pendingID := ""
  trackingKey := "login"
  item := { loginItem with id := "login" }
  phase := .saving

/-- The login is saved once more: by itself, by a request, and by a request with `AsyncSave` that
finds it in the cache. The token is left alone. -/
theorem login_saved_again :
    Frame sampleEnv sharedVault loginItem.attributes
        (vaultAfter (save sampleEnv sharedVault loginItem) sharedVault) ∧
      Frame sampleEnv sharedVault loginItem.attributes
        (plainService.createItem (OnePassword.backend sampleEnv [] false) (requestFor loginItem)
          ⟨"session", [], loginItem.secret⟩ false sharedVault).2 ∧
      ∃ s t, (∃ ls, Runs (Cached.Step sampleEnv) warmCache ls s) ∧
        Cached.Step sampleEnv s (.write loginSave) t ∧
        Frame sampleEnv sharedVault loginItem.attributes t.vault ∧
        ∃ it, t.vault.get? "token" = some it ∧ Keeps sampleEnv (savedItem tokenItem) it := by
  obtain ⟨hsave, hcreate, hstep, -⟩ := creation_spares_iff sampleEnv loginItem
  have hkeep := KeepsAll.refl sampleEnv sharedVault
  have hreq := hcreate plainService (requestFor loginItem) ⟨"session", [], loginItem.secret⟩
  refine ⟨(hsave sharedVault rfl).2 (login_spared hkeep (.inl rfl)),
    ((hreq false [] rfl).1 false sharedVault).2 (login_spared hkeep (.inl rfl)), ?_⟩
  obtain ⟨ls, tail, hrun, -⟩ := ((hreq true [] rfl).2 id warmCache).2 (some "pending_1")
    (by simp [isPendingID, pendingIDPrefix, hasPrefix])
  have hstart : Cached.Step sampleEnv (requested loginItem true warmCache) .internal _ :=
    .start 0 { loginSave with phase := .waiting } rfl rfl (by simp [loginSave])
  have hwrite : Cached.Step sampleEnv _ (.write loginSave) _ :=
    .write (s := (requested loginItem true warmCache).persistStart 0
      { loginSave with phase := .waiting }) 0 loginSave rfl rfl
  have hframe := (hstep _ _ _ hwrite).2 (login_spared hkeep (.inr rfl))
  refine ⟨_, _, ⟨_, hrun.snoc hstart⟩, hwrite, hframe, hframe.kept "token" _ rfl fun hsame => ?_⟩
  have huser := ((attributesOf_savedItem sampleEnv tokenItem).symm.trans hsame) username
  exact absurd huser (by decide)

/-- An item with one of the two attributes of the login. -/
def serverItem : SecretItem where
  id := ""
  label := Bytes.ofString "server"
  attributes := tokenItem.attributes
  secret := Bytes.ofString "t0ken"

theorem server_not_spared (h : KeepsAll sampleEnv loginVault v₁) {id : String}
    (hid : id = "" ∨ id = "login") :
    ¬ Spares sampleEnv loginVault v₁ id serverItem.attributes := by
  have hget : loginVault.get? "login" = some (savedItem loginItem) := rfl
  have hsaved := attributesOf_savedItem sampleEnv loginItem
  -- the login is the only item, and it is listed and matches
  have hgoes : goesTo sampleEnv v₁ id serverItem.attributes = some "login" := by
    rcases hid with rfl | rfl
    swap
    · rfl
    obtain ⟨it₁, hit₁, hk⟩ := h.items "login" _ hget
    have htags : (savedItem loginItem).tags = buildOPMetadataTags loginItem.attributes :=
      tagsOf_join_build loginItem.attributes
    have htag : opBaseTag ∈ it₁.tags := hk.listed.2 (htags ▸ List.mem_cons_self)
    have hmatch : attributesMatch (attributesOf sampleEnv it₁) serverItem.attributes = true :=
      (attributesMatch_congr (hk.attributes.trans hsaved)).trans (by decide)
    obtain ⟨m, hm⟩ : ∃ m, firstMatch (listed sampleEnv v₁) serverItem.attributes = some m :=
      Option.isSome_iff_exists.1 (List.find?_isSome.2
        ⟨_, mem_listed.2 ⟨_, _, hit₁, htag, rfl⟩, hmatch⟩)
    rw [goesTo, if_pos rfl, hm, Option.map_some]
    obtain ⟨id, it, hit, -, rfl⟩ := mem_listed.1 (List.mem_of_find?_eq_some hm)
    cases hv : loginVault.get? id with
    | none =>
      rw [h.ids id hv] at hit
      cases hit
    | some _ => exact congrArg some (get?_loginVault hv).1
  intro hs
  have huser := (hsaved.symm.trans (hs _ hgoes _ hget)) username
  exact absurd huser (by decide)

/-- The background save of the server's item, when `raw.Save` is next. -/
def serverSave : PendingSave where
  pendingID := "pending_1"
  trackingKey := "pending_1"
  item := serverItem
  phase := .saving

/-- The login is overwritten by an item with other attributes: by `Save`, by every request, and in
the background after a request with `AsyncSave`. -/
theorem server_overwrites_login :
    ¬ Frame sampleEnv loginVault serverItem.attributes
        (vaultAfter (save sampleEnv loginVault serverItem) loginVault) ∧
      (∀ replace, ¬ Frame sampleEnv loginVault serverItem.attributes
        (plainService.createItem (OnePassword.backend sampleEnv [] false) (requestFor serverItem)
          ⟨"session", [], serverItem.secret⟩ replace loginVault).2) ∧
      ∃ t, Runs (Cached.Step sampleEnv) (requested serverItem false { vault := loginVault })
          [.internal, .write serverSave] t ∧
        ¬ Frame sampleEnv loginVault serverItem.attributes t.vault := by
  have hkeep := KeepsAll.refl sampleEnv loginVault
  refine ⟨fun hf => ?_, fun replace hf => ?_, ?_⟩
  · exact server_not_spared hkeep (.inl rfl) ((frame_save_iff hkeep serverItem).1 hf)
  · obtain ⟨hk, hlisted⟩ := OnePassword.search_spec sampleEnv [] false replace loginVault
    have hreq : plainService.requestedItem (requestFor serverItem)
        ⟨"session", [], serverItem.secret⟩ = .ok serverItem := rfl
    rw [createItem_state (OnePassword.searches sampleEnv [] false) hreq,
      OnePassword.backend_save] at hf
    refine server_not_spared hk ?_ ((frame_save_id hk serverItem _).1 hf)
    rw [matchedID]
    cases hm : firstMatch _ serverItem.attributes with
    | none => exact .inl rfl
    | some m =>
      obtain ⟨id, it, hit, -, rfl⟩ := mem_listed.1 (hlisted m (List.mem_of_find?_eq_some hm))
      exact .inr (get?_loginVault hit).1
  · have hstart : Cached.Step sampleEnv (requested serverItem false { vault := loginVault })
        .internal _ := .start 0 { serverSave with phase := .waiting } rfl rfl (by simp [serverSave])
    have hwrite : Cached.Step sampleEnv _ (.write serverSave) _ :=
      .write (s := (requested serverItem false { vault := loginVault }).persistStart 0
        { serverSave with phase := .waiting }) 0 serverSave rfl rfl
    refine ⟨_, (Runs.one hstart).snoc hwrite, fun hf => ?_⟩
    rw [show Cached.vault _ = _ from Cached.step_effect hwrite] at hf
    exact server_not_spared hkeep (.inl rfl) ((frame_save_iff hkeep serverItem).1 hf)

end Keyring
