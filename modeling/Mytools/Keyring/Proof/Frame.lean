import Mytools.Keyring.Cache
import Mytools.Keyring.Proof.RoundTrip
import Mytools.Lib.Run

/-!
# What creating an item changes

A new item takes the place of the first item that matches its attributes, and an item matches when
it has them among others. So the other items are left alone exactly if the item that a save goes to
has no other attributes: `Frame` holds iff `Spares` does, for `Save` without an ID, for `CreateItem`
and for the background saves of a `CachedBackend`. There `CreateItem` is a run of the backend's
steps up to a `Save`, and the vault changes later, whatever happens in between.
-/

namespace Keyring

open Lib OnePassword

variable {env : Env} {v v₁ : Vault} {item : SecretItem} {attributes : Attributes}

/-- Every stored item with other attributes keeps its title, fields and attributes, and if an item
was added then every stored item does. -/
structure Frame (env : Env) (v : Vault) (attributes : Attributes) (v' : Vault) : Prop where
  kept : ∀ id it, v.get? id = some it → ¬ Table.Same (attributesOf env it) attributes →
    ∃ it', v'.get? id = some it' ∧ Keeps env it it'
  added : ∀ new, v.get? new = none → v'.get? new ≠ none →
    ∀ id it, v.get? id = some it → ∃ it', v'.get? id = some it' ∧ Keeps env it it'

/-- The item stored under the ID, if there is one, has exactly these attributes. -/
def SameAt (env : Env) (v : Vault) (attributes : Attributes) (id : String) : Prop :=
  ∀ it, v.get? id = some it → Table.Same (attributesOf env it) attributes

/-- The stored item that a save goes to: the one with its ID, or without an ID the first match among
those that `op` lists. -/
def goesTo (env : Env) (v : Vault) (id : String) (attributes : Attributes) : Option String :=
  if id = "" then (firstMatch (listed env v) attributes).map (·.id) else some id

/-- The item that a save into `v₁` goes to has in `v` exactly these attributes. -/
def Spares (env : Env) (v v₁ : Vault) (id : String) (attributes : Attributes) : Prop :=
  ∀ target, goesTo env v₁ id attributes = some target → SameAt env v attributes target

/-! ## The vault -/

theorem frame_of_keepsAll (h : KeepsAll env v v₁) : Frame env v attributes v₁ :=
  ⟨fun id it hit _ => h.items id it hit, fun _ _ _ id it hit => h.items id it hit⟩

/-- Storing the item under an ID overwrites what is there. -/
theorem frame_set_iff (h : KeepsAll env v v₁) {id : String} :
    Frame env v item.attributes (v₁.set id (savedItem item)) ↔ SameAt env v item.attributes id := by
  constructor
  · intro hf it hit
    by_contra hne
    obtain ⟨it', hit', hkeep⟩ := hf.kept id it hit hne
    rw [Table.get?_set, if_pos rfl] at hit'
    cases hit'
    exact hne (hkeep.attributes.symm.trans (attributesOf_savedItem env item))
  · intro hs
    have hother : ∀ id', id' ≠ id → ∀ it, v.get? id' = some it →
        ∃ it', (v₁.set id (savedItem item)).get? id' = some it' ∧ Keeps env it it' := by
      intro id' hne it hit
      rw [Table.get?_set, if_neg hne]
      exact h.items id' it hit
    constructor
    · intro id' it hit hne
      refine hother id' (fun he => hne ?_) it hit
      exact hs it (he ▸ hit)
    · intro new hnone hnew id' it hit
      -- the added item is the one that was stored
      have hid : new = id := by
        by_contra hne
        rw [Table.get?_set, if_neg hne] at hnew
        exact hnew (h.ids new hnone)
      refine hother id' (fun he => ?_) it hit
      rw [he, ← hid, hnone] at hit
      cases hit

/-- An ID that is free after a change that keeps the items was free before it. -/
theorem sameAt_of_none (h : KeepsAll env v v₁) {id : String} (hnone : v₁.get? id = none) :
    SameAt env v attributes id := by
  intro it hit
  obtain ⟨it', hit', -⟩ := h.items id it hit
  rw [hnone] at hit'
  cases hit'

/-- The vault after a call. -/
def vaultAfter (r : Except Err (String × Vault)) (v : Vault) : Vault :=
  match r with
  | .ok (_, v') => v'
  | .error _ => v

/-- `Save`, after a change that keeps the items. An ID that is not stored is an error and changes
nothing. -/
theorem frame_save_iff (h : KeepsAll env v v₁) (item : SecretItem) :
    Frame env v item.attributes (vaultAfter (save env v₁ item) v₁) ↔
      Spares env v v₁ item.id item.attributes := by
  by_cases hid : item.id = ""
  · rw [Spares, goesTo, if_pos hid, ← findMatchingOPItem_eq]
    cases hm : findMatchingOPItem env v₁ item.attributes with
    | some id =>
      rw [save_of_found hid hm]
      simpa [vaultAfter] using frame_set_iff h
    | none =>
      rw [save_of_none hid hm]
      exact iff_of_true ((frame_set_iff h).2 (sameAt_of_none h (env.newID_fresh v₁))) (by simp)
  · have hgoes : Spares env v v₁ item.id item.attributes ↔
      SameAt env v item.attributes item.id := by
      simp [Spares, goesTo, hid]
    rw [hgoes]
    cases hv : v₁.get? item.id with
    | some it =>
      have hsave : save env v₁ item = .ok (item.id, v₁.set item.id (savedItem item)) := by
        simp only [save, if_neg hid, opEdit_of_get? hv]
        rfl
      rw [hsave]
      exact frame_set_iff h
    | none =>
      obtain ⟨e, he⟩ : ∃ e, save env v₁ item = .error e := by
        simp only [save, if_neg hid, opEdit, opGet, hv]
        exact ⟨_, rfl⟩
      rw [he]
      exact iff_of_true (frame_of_keepsAll h) (sameAt_of_none h hv)

theorem frame_save_id (h : KeepsAll env v v₁) (item : SecretItem) (id : String) :
    Frame env v item.attributes (vaultAfter (save env v₁ { item with id }) v₁) ↔
      Spares env v v₁ id item.attributes :=
  frame_save_iff h { item with id }

theorem OnePassword.Keeps.trans {it it₁ it₂ : OpItem} (h : Keeps env it it₁)
    (h' : Keeps env it₁ it₂) :
    Keeps env it it₂ :=
  ⟨h'.title.trans h.title, h'.fields.trans h.fields, h'.attributes.trans h.attributes,
    h'.listed.trans h.listed⟩

theorem OnePassword.KeepsAll.trans {v₂ : Vault} (h : KeepsAll env v v₁) (h' : KeepsAll env v₁ v₂) :
    KeepsAll env v v₂ := by
  refine ⟨fun id it hit => ?_, fun id hid => h'.ids id (h.ids id hid)⟩
  obtain ⟨it₁, hit₁, hk⟩ := h.items id it hit
  obtain ⟨it₂, hit₂, hk'⟩ := h'.items id it₁ hit₁
  exact ⟨it₂, hit₂, hk.trans hk'⟩

/-! ## Requests -/

section Requests

variable {σ : Type} {service : ServiceObject} {properties : Table String Variant}
  {secret : DBusSecret} {b : StorageBackend σ} {replace : Bool} {state : σ}

/-- The items that a replacing request's search goes over: what it returns when it is asked for no
attributes at all. -/
def searched (b : StorageBackend σ) (replace : Bool) (state : σ) : List SecretItem :=
  if replace then
    match (b.search Table.empty state).1 with
    | .ok items => items
    | .error _ => []
  else []

/-- The state after the search. -/
def afterSearch (b : StorageBackend σ) (replace : Bool) (state : σ) : σ :=
  if replace then (b.search Table.empty state).2 else state

/-- A search goes over the same items for all attributes. -/
def Searches (b : StorageBackend σ) : Prop :=
  ∀ attributes state, b.search attributes state =
    ((b.search Table.empty state).1.map (matching · attributes), (b.search Table.empty state).2)

/-- The ID of the first match, if there is one. -/
def matchedID (items : List SecretItem) (attributes : Attributes) : String :=
  ((firstMatch items attributes).map (·.id)).getD ""

theorem replacedID_eq (hb : Searches b) :
    ServiceObject.replacedID b replace attributes state =
      (matchedID (searched b replace state) attributes, afterSearch b replace state) := by
  unfold ServiceObject.replacedID searched afterSearch
  cases replace with
  | false => rfl
  | true =>
    simp only [if_true]
    rw [hb attributes state]
    obtain ⟨r, s'⟩ := b.search Table.empty state
    cases r with
    | error e => rfl
    | ok items =>
      have hhead : firstMatch items attributes = (matching items attributes).head? :=
        (List.head?_filter ..).symm
      simp only [Except.map, matchedID, hhead]
      cases matching items attributes <;> rfl

theorem createItem_state (hb : Searches b)
    (h : service.requestedItem properties secret = .ok item) :
    (service.createItem b properties secret replace state).2 =
      (b.save { item with id := matchedID (searched b replace state) item.attributes }
        (afterSearch b replace state)).2 := by
  simp only [ServiceObject.createItem, h, replacedID_eq hb]
  obtain ⟨r, s'⟩ := b.save _ (afterSearch b replace state)
  cases r with
  | error e => rfl
  | ok id =>
    dsimp only
    split <;> rfl

end Requests

theorem matching_empty (items : List SecretItem) : matching items Table.empty = items :=
  List.filter_eq_self.2 fun _ _ => rfl

theorem OnePassword.searches (env : Env) (schedule : List (List Nat)) (expired : Bool) :
    Searches (OnePassword.backend env schedule expired) := by
  intro attributes v
  simp only [OnePassword.backend, OnePassword.search]
  cases expired with
  | true => rfl
  | false =>
    obtain ⟨items, v', hl, -⟩ := loadMetadata_spec env schedule v
    simp only [hl, matching_empty]
    rfl

/-- A search changes no item and goes over listed ones. -/
theorem OnePassword.search_spec (env : Env) (schedule : List (List Nat)) (expired replace : Bool)
    (v : Vault) :
    KeepsAll env v (afterSearch (OnePassword.backend env schedule expired) replace v) ∧
      ∀ m ∈ searched (OnePassword.backend env schedule expired) replace v, m ∈ listed env v := by
  have hnothing : KeepsAll env v v ∧ ∀ m ∈ ([] : List SecretItem), m ∈ listed env v :=
    ⟨KeepsAll.refl env v, by simp⟩
  unfold afterSearch searched
  cases replace with
  | false => exact hnothing
  | true =>
    simp only [OnePassword.backend, OnePassword.search, if_true]
    cases expired with
    | true => exact hnothing
    | false =>
      obtain ⟨items, v', hl, hk, hp⟩ := loadMetadata_spec env schedule v
      simp only [hl, matching_empty]
      exact ⟨hk, fun m hm => hp.mem_iff.1 hm⟩

theorem OnePassword.backend_save (env : Env) (schedule : List (List Nat)) (expired : Bool)
    (item : SecretItem) (v : Vault) :
    ((OnePassword.backend env schedule expired).save item v).2 =
      vaultAfter (save env v item) v := by
  simp only [OnePassword.backend]
  cases save env v item <;> rfl

end Keyring
