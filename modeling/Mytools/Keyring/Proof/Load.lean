import Mytools.Keyring.Proof.OnePassword
import Mathlib.Data.List.Perm.Basic

/-!
# Loading the metadata

Whatever the order in which its goroutines finish, `LoadMetadata` returns the metadata of every
listed item, and the tags it adds on the way say what the fields of the item said.
-/

namespace Keyring.OnePassword

open Lib

variable {env : Env} {v v₀ : Vault}

def listItemOf (id : String) (it : OpItem) : OpListItem := ⟨id, it.title, it.tags⟩

theorem mem_opList {li : OpListItem} :
    li ∈ opList v opBaseTag ↔
      ∃ it, v.get? li.id = some it ∧ opBaseTag ∈ it.tags ∧ li = listItemOf li.id it := by
  simp only [opList, List.mem_map, List.mem_filter, Prod.exists, listItemOf, Table.get?_eq_some_iff,
    List.contains_iff_mem]
  constructor
  · rintro ⟨id, it, ⟨hr, ht⟩, rfl⟩
    exact ⟨it, hr, ht, rfl⟩
  · rintro ⟨it, hr, ht, he⟩
    exact ⟨li.id, it, ⟨hr, ht⟩, he.symm⟩

theorem getMetadataOnly_of_get? {id : String} {it : OpItem} (h : v.get? id = some it) :
    getMetadataOnly env v id = .ok
      { id, label := it.title, attributes := it.fields.foldl (readMetadataField env) Table.empty,
        secret := [] } := by
  rw [getMetadataOnly, opGet, h]
  rfl

theorem inspect_listItemOf {id : String} {it : OpItem} (h : v.get? id = some it) :
    inspect env v (listItemOf id it) = some (metadataOf env id it) := by
  unfold inspect metadataFromOPListItem metadataOf attributesOf
  simp only [listItemOf, getMetadataOnly_of_get? h]
  cases metadataFromTags it.tags <;> rfl

/-- The metadata of the listed items, in the order of the list. -/
def listed (env : Env) (v : Vault) : List SecretItem :=
  (opList v opBaseTag).filterMap (inspect env v)

theorem mem_listed {m : SecretItem} :
    m ∈ listed env v ↔
      ∃ id it, v.get? id = some it ∧ opBaseTag ∈ it.tags ∧ m = metadataOf env id it := by
  rw [listed, List.mem_filterMap]
  constructor
  · rintro ⟨li, hli, hins⟩
    obtain ⟨it, hit, ht, he⟩ := mem_opList.1 hli
    rw [he, inspect_listItemOf hit] at hins
    exact ⟨li.id, it, hit, ht, (Option.some.inj hins).symm⟩
  · rintro ⟨id, it, hit, ht, rfl⟩
    exact ⟨listItemOf id it, mem_opList.2 ⟨it, hit, ht, rfl⟩, inspect_listItemOf hit⟩

/-! ## One goroutine -/

theorem loadLegacyMetadata_spec {id : String} {it : OpItem} (hk : KeepsAll env v₀ v)
    (hit : v₀.get? id = some it) (ht : opBaseTag ∈ it.tags) (hm : metadataFromTags it.tags = none) :
    ∃ v', loadLegacyMetadata env v (listItemOf id it) = .ok (metadataOf env id it, v') ∧
      KeepsAll env v₀ v' := by
  obtain ⟨it', hit', hkeep⟩ := hk.items id it hit
  have hattrs : attributesOf env it = it.fields.foldl (readMetadataField env) Table.empty := by
    rw [attributesOf, hm]
    rfl
  have hget : getMetadataOnly env v id = .ok (metadataOf env id it) := by
    rw [getMetadataOnly_of_get? hit', hkeep.title, hkeep.fields, metadataOf, hattrs]
  -- the edit finds the item, and its tags read back as the attributes
  obtain ⟨attrs, hread, hsame⟩ := metadataFromTags_of_perm
    (opMetaTag_mem_merge it.tags (attributesOf env it))
    (filterMap_mergeOPMetadataTags it.tags (attributesOf env it))
  refine ⟨migrateLegacyMetadataTags v (listItemOf id it) (metadataOf env id it), ?_, ?_⟩
  · rw [loadLegacyMetadata]
    exact Lib.bind_ok_iff.2 ⟨_, hget, rfl⟩
  · have hedit : migrateLegacyMetadataTags v (listItemOf id it) (metadataOf env id it) =
        v.set id { it' with
          tags := tagsOf (Bytes.join 44 (mergeOPMetadataTags it.tags (attributesOf env it)))
          tags_plain := fun _ => Bytes.not_mem_of_mem_split } := by
      simp only [migrateLegacyMetadataTags, opEditTags, opGet, metadataOf, hit', listItemOf]
      rfl
    rw [hedit]
    constructor
    · intro id' it₀ h₀
      rw [Table.get?_set]
      split
      · rename_i he
        rw [he, hit] at h₀
        cases h₀
        have htags := tagsOf_join_merge (attributesOf env it) it.tags_plain
        refine ⟨_, rfl, hkeep.title, hkeep.fields, ?_, ?_⟩
        · have hattrs' : attributesOf env { it' with
              tags := tagsOf (Bytes.join 44 (mergeOPMetadataTags it.tags (attributesOf env it)))
              tags_plain := fun _ => Bytes.not_mem_of_mem_split } = attrs :=
            attributesOf_of_tags ((congrArg metadataFromTags htags).trans hread)
          exact hattrs' ▸ hsame
        · have hbase : opBaseTag ∈
              tagsOf (Bytes.join 44 (mergeOPMetadataTags it.tags (attributesOf env it))) := by
            rw [htags]
            exact mem_mergeOPMetadataTags.2 (.inr (by simp [buildOPMetadataTags]))
          exact iff_of_true hbase ht
      · exact hk.items id' it₀ h₀
    · intro id' h₀
      rw [Table.get?_set, if_neg]
      · exact hk.ids id' h₀
      · intro he
        rw [he, hit] at h₀
        cases h₀

/-! ## The loop -/

/-- The items so far and the listed items that are left make up the list. -/
structure Loading.Inv (env : Env) (v₀ : Vault) (todo : List OpListItem) (l : Loading) : Prop where
  keeps : KeepsAll env v₀ l.vault
  waiting : ∀ li ∈ l.waiting, ∃ it, v₀.get? li.id = some it ∧ opBaseTag ∈ it.tags ∧
    li = listItemOf li.id it ∧ metadataFromTags it.tags = none
  items : (l.items.map some ++ (l.waiting ++ todo).map (inspect env v₀)).Perm
    ((opList v₀ opBaseTag).map (inspect env v₀))

namespace Loading.Inv

variable {l : Loading} {todo : List OpListItem}

theorem finish (h : Inv env v₀ todo l) (k : Nat) :
    ∃ l', Loading.finish env l k = .ok l' ∧ Inv env v₀ todo l' ∧
      l'.waiting = l.waiting.eraseIdx k := by
  unfold Loading.finish
  cases hw : l.waiting[k]? with
  | none =>
    exact ⟨l, rfl, h, (List.eraseIdx_of_length_le (List.getElem?_eq_none_iff.1 hw)).symm⟩
  | some li =>
    obtain ⟨hlt, hli⟩ := List.getElem?_eq_some_iff.1 hw
    obtain ⟨it, hit, ht, he, hm⟩ := h.waiting li (List.mem_of_getElem? hw)
    obtain ⟨v', hload, hk⟩ := loadLegacyMetadata_spec h.keeps hit ht hm
    rw [← he] at hload
    have hins : inspect env v₀ li = some (metadataOf env li.id it) := by
      rw [he]
      exact inspect_listItemOf hit
    refine ⟨{ vault := v', items := l.items ++ [metadataOf env li.id it],
              waiting := l.waiting.eraseIdx k }, Lib.bind_ok_iff.2 ⟨_, hload, rfl⟩, ?_, rfl⟩
    refine ⟨hk, fun x hx => h.waiting x ((List.eraseIdx_sublist l.waiting k).subset hx), ?_⟩
    refine List.Perm.trans ?_ h.items
    have hperm : (li :: l.waiting.eraseIdx k).Perm l.waiting := by
      rw [← hli]
      exact List.getElem_cons_eraseIdx_perm hlt
    have hmap := ((hperm.append_right todo).map (inspect env v₀)).append_left (l.items.map some)
    rw [List.cons_append, List.map_cons, hins] at hmap
    simpa using hmap

theorem finishAll : ∀ (ks : List Nat) {l : Loading}, Inv env v₀ todo l →
    ∃ l', ks.foldlM (Loading.finish env) l = .ok l' ∧ Inv env v₀ todo l'
  | [], l, h => ⟨l, rfl, h⟩
  | k :: ks, l, h => by
    obtain ⟨l₁, hf, h₁, -⟩ := h.finish k
    obtain ⟨l₂, hks, h₂⟩ := finishAll ks h₁
    refine ⟨l₂, ?_, h₂⟩
    rw [List.foldlM_cons]
    exact Lib.bind_ok_iff.2 ⟨l₁, hf, hks⟩

/-- `Wait` leaves no goroutine behind. -/
theorem wait : ∀ (n : Nat) {l : Loading}, Inv env v₀ todo l → l.waiting.length = n →
    ∃ l', (List.replicate n 0).foldlM (Loading.finish env) l = .ok l' ∧ Inv env v₀ todo l' ∧
      l'.waiting = []
  | 0, l, h, hn => ⟨l, rfl, h, List.length_eq_zero_iff.1 hn⟩
  | n + 1, l, h, hn => by
    obtain ⟨l₁, hf, h₁, hw⟩ := h.finish 0
    have hlen : l₁.waiting.length = n := by
      rw [hw, List.length_eraseIdx, if_pos (by omega)]
      omega
    obtain ⟨l₂, hks, h₂, hw₂⟩ := wait n h₁ hlen
    refine ⟨l₂, ?_, h₂, hw₂⟩
    rw [List.replicate_succ, List.foldlM_cons]
    exact Lib.bind_ok_iff.2 ⟨l₁, hf, hks⟩

theorem visit {li : OpListItem} (h : Inv env v₀ (li :: todo) l) (hli : li ∈ opList v₀ opBaseTag) :
    Inv env v₀ todo (l.visit li) := by
  obtain ⟨it, hit, ht, he⟩ := mem_opList.1 hli
  have hitems := h.items
  unfold Loading.visit
  cases hm : metadataFromOPListItem li with
  | some item =>
    refine ⟨h.keeps, h.waiting, List.Perm.trans ?_ hitems⟩
    have hins : inspect env v₀ li = some item := by
      rw [inspect, hm]
    have hmid : ((li :: (l.waiting ++ todo)).map (inspect env v₀)).Perm
        ((l.waiting ++ li :: todo).map (inspect env v₀)) := List.perm_middle.symm.map _
    rw [List.map_cons, hins] at hmid
    simpa using hmid.append_left (l.items.map some)
  | none =>
    refine ⟨h.keeps, ?_, by simpa using hitems⟩
    intro x hx
    rcases List.mem_append.1 hx with hx | hx
    · exact h.waiting x hx
    · obtain rfl := List.mem_singleton.1 hx
      refine ⟨it, hit, ht, he, ?_⟩
      rw [he, metadataFromOPListItem, Option.map_eq_none_iff] at hm
      exact hm

theorem loop : ∀ (todo : List OpListItem) (schedule : List (List Nat)) {l : Loading},
    Inv env v₀ todo l → (∀ li ∈ todo, li ∈ opList v₀ opBaseTag) →
    ∃ l', Loading.loop env schedule todo l = .ok l' ∧ Inv env v₀ [] l' ∧ l'.waiting = []
  | [], schedule, l, h, _ => by
    obtain ⟨l₁, hf, h₁⟩ := h.finishAll schedule.flatten
    obtain ⟨l₂, hw, h₂, hnil⟩ := h₁.wait _ rfl
    exact ⟨l₂, Lib.bind_ok_iff.2 ⟨l₁, hf, hw⟩, h₂, hnil⟩
  | li :: todo, schedule, l, h, hl => by
    obtain ⟨l₁, hf, h₁⟩ := h.finishAll (schedule.headD [])
    obtain ⟨l₂, hloop, h₂⟩ := loop todo schedule.tail (h₁.visit (hl li List.mem_cons_self))
      fun x hx => hl x (List.mem_cons_of_mem li hx)
    exact ⟨l₂, Lib.bind_ok_iff.2 ⟨l₁, hf, hloop⟩, h₂⟩

end Loading.Inv

/-- `LoadMetadata` succeeds; it returns the metadata of the listed items and changes none of
them. -/
theorem loadMetadata_spec (env : Env) (schedule : List (List Nat)) (v : Vault) :
    ∃ items v', loadMetadata env schedule v = .ok (items, v') ∧ KeepsAll env v v' ∧
      items.Perm (listed env v) := by
  have hinit : Loading.Inv env v (opList v opBaseTag) { vault := v, items := [], waiting := [] } :=
    ⟨KeepsAll.refl env v, by simp, by simp⟩
  obtain ⟨l, hloop, h, hw⟩ := hinit.loop (opList v opBaseTag) schedule fun _ hl => hl
  refine ⟨l.items, l.vault, Lib.bind_ok_iff.2 ⟨l, hloop, rfl⟩, h.keeps, ?_⟩
  have hp := h.items
  rw [hw, List.nil_append, List.map_nil, List.append_nil] at hp
  have hf := hp.filterMap id
  rwa [List.filterMap_map, List.filterMap_map, Function.id_comp, Function.id_comp,
    List.filterMap_some] at hf

end Keyring.OnePassword
