import Mytools.Lib.Result
import Mytools.Keyring.OnePassword

/-!
# What the 1Password backend reads back

The tags of an item give back its attributes, whatever bytes they hold, and so do the tags that
`LoadMetadata` merges into an item without metadata. The fields give back what JSON strings and the
form keep of it.
-/

namespace Keyring.OnePassword

open Lib Base64

variable {env : Env} {v : Vault} {attributes : Attributes}

/-! ## Tags -/

theorem decodeOPAttributeTag_attributeTag (key value : Bytes) :
    decodeOPAttributeTag (attributeTag key value) = some (key, value) := by
  have hcut : Bytes.cut opTagSeparator
      (Encoding.rawURL.encode key ++ opTagSeparator :: Encoding.rawURL.encode value) =
      some (Encoding.rawURL.encode key, Encoding.rawURL.encode value) :=
    Bytes.cut_append (Encoding.not_mem_encode _ rfl rfl key)
  have hpre := Bytes.cutPrefix_append opAttributeTag
    (Encoding.rawURL.encode key ++ opTagSeparator :: Encoding.rawURL.encode value)
  rw [← List.append_assoc] at hpre
  rw [decodeOPAttributeTag, attributeTag, hpre]
  simp [hcut, Encoding.decode_encode]

theorem comma_not_mem_attributeTag (key value : Bytes) : (44 : UInt8) ∉ attributeTag key value := by
  have hk := Encoding.rawURL.not_mem_encode (b := 44) rfl rfl key
  have hv := Encoding.rawURL.not_mem_encode (b := 44) rfl rfl value
  have hp : (44 : UInt8) ∉ opAttributeTag := by decide
  simp [attributeTag, hk, hv, hp, opTagSeparator]

theorem decodeOPAttributeTag_base : decodeOPAttributeTag opBaseTag = none := by decide

theorem decodeOPAttributeTag_meta : decodeOPAttributeTag opMetaTag = none := by decide

theorem decodeOPAttributeTag_foreign {tag : Bytes} (h : isForeignTag tag = true) :
    decodeOPAttributeTag tag = none := by
  simp only [isForeignTag, Bool.and_eq_true, Bool.not_eq_true', bne_iff_ne] at h
  have hp : Bytes.cutPrefix opAttributeTag tag = none := by
    rw [Bytes.cutPrefix, h.1.2]
    rfl
  rw [decodeOPAttributeTag, hp]
  rfl

theorem filterMap_buildOPMetadataTags (attributes : Attributes) :
    ((buildOPMetadataTags attributes).filterMap decodeOPAttributeTag).Perm attributes.rows := by
  have hf : decodeOPAttributeTag ∘ (fun key => attributeTag key ((attributes.get? key).getD [])) =
      some ∘ fun key => (key, (attributes.get? key).getD []) := by
    funext key
    exact decodeOPAttributeTag_attributeTag _ _
  rw [buildOPMetadataTags, List.filterMap_cons_none decodeOPAttributeTag_base,
    List.filterMap_cons_none decodeOPAttributeTag_meta, List.filterMap_map, hf,
    ← List.filterMap_map, List.filterMap_some]
  exact Form.sortedKeys_perm attributes []

theorem nodup_buildOPMetadataTags (attributes : Attributes) :
    (buildOPMetadataTags attributes).Nodup := by
  have hdec : ∀ tag ∈ (Form.sortedKeys attributes).map fun key =>
      attributeTag key ((attributes.get? key).getD []), decodeOPAttributeTag tag ≠ none := by
    intro tag ht
    obtain ⟨key, -, rfl⟩ := List.mem_map.1 ht
    simp [decodeOPAttributeTag_attributeTag]
  have hinj : ((Form.sortedKeys attributes).map fun key =>
      attributeTag key ((attributes.get? key).getD [])).Nodup := by
    have hkeys : (Form.sortedKeys attributes).Nodup :=
      (List.perm_insertionSort _ _).nodup_iff.2 attributes.nodup
    refine hkeys.map_on fun a _ b _ he => ?_
    have h := congrArg decodeOPAttributeTag he
    rw [decodeOPAttributeTag_attributeTag, decodeOPAttributeTag_attributeTag] at h
    exact (Prod.mk.inj (Option.some.inj h)).1
  rw [buildOPMetadataTags, List.nodup_cons, List.nodup_cons, List.mem_cons, not_or]
  exact ⟨⟨by decide, fun hm => hdec _ hm decodeOPAttributeTag_base⟩,
    fun hm => hdec _ hm decodeOPAttributeTag_meta, hinj⟩

theorem comma_not_mem_buildOPMetadataTags {tag : Bytes} (h : tag ∈ buildOPMetadataTags attributes) :
    (44 : UInt8) ∉ tag := by
  rw [buildOPMetadataTags, List.mem_cons, List.mem_cons, List.mem_map] at h
  rcases h with rfl | rfl | ⟨key, -, rfl⟩
  · decide
  · decide
  · exact comma_not_mem_attributeTag _ _

/-- The tags of a new item reach the vault as they are. -/
theorem tagsOf_join_build (attributes : Attributes) :
    tagsOf (Bytes.join 44 (buildOPMetadataTags attributes)) = buildOPMetadataTags attributes :=
  Bytes.split_join (fun _ => comma_not_mem_buildOPMetadataTags) (by simp [buildOPMetadataTags])

/-- Tags that carry the mark and decode to the rows of a map give the map. -/
theorem metadataFromTags_of_perm {tags : List Bytes} (hm : opMetaTag ∈ tags)
    (hp : (tags.filterMap decodeOPAttributeTag).Perm attributes.rows) :
    ∃ attrs, metadataFromTags tags = some attrs ∧ Table.Same attrs attributes := by
  have hany : tags.any (fun t => t == opMetaTag || (decodeOPAttributeTag t).isSome) = true :=
    List.any_eq_true.2 ⟨opMetaTag, hm, by simp⟩
  exact ⟨_, by rw [metadataFromTags, if_pos hany], Table.Same.setAll_of_perm hp⟩

theorem metadataFromTags_build (attributes : Attributes) :
    ∃ attrs, metadataFromTags (buildOPMetadataTags attributes) = some attrs ∧
      Table.Same attrs attributes :=
  metadataFromTags_of_perm (by simp [buildOPMetadataTags])
    (filterMap_buildOPMetadataTags attributes)

/-! ## Merged tags -/

theorem mem_foldl_addTag : ∀ {tags kept : List Bytes} {t : Bytes},
    t ∈ tags.foldl addTag kept ↔ t ∈ kept ∨ t ∈ tags
  | [], _, _ => by simp
  | tag :: tags, kept, t => by
    rw [List.foldl_cons, mem_foldl_addTag, List.mem_cons, addTag]
    split
    · rename_i hm
      constructor
      · rintro (h | h)
        · exact .inl h
        · exact .inr (.inr h)
      · rintro (h | rfl | h)
        · exact .inl h
        · exact .inl hm
        · exact .inr h
    · simp only [List.mem_append, List.mem_singleton, or_assoc]

/-- Distinct tags are appended but for those that are there. -/
theorem foldl_addTag : ∀ {tags kept : List Bytes}, tags.Nodup →
    tags.foldl addTag kept = kept ++ tags.filter (fun t => t ∉ kept)
  | [], _, _ => by simp
  | tag :: tags, kept, hn => by
    rw [List.nodup_cons] at hn
    rw [List.foldl_cons, foldl_addTag hn.2, addTag]
    split
    · rename_i hm
      simp [hm]
    · rename_i hm
      have hf : tags.filter (fun t => t ∉ kept ++ [tag]) = tags.filter (fun t => t ∉ kept) := by
        refine List.filter_congr fun t ht => ?_
        have hne : t ≠ tag := fun he => hn.1 (he ▸ ht)
        simp [hne]
      rw [hf, List.filter_cons, if_pos (by simpa using hm)]
      simp

theorem isForeignTag_of_kept {existing : List Bytes} {t : Bytes}
    (h : t ∈ (existing.filter isForeignTag).foldl addTag []) : isForeignTag t = true := by
  rw [mem_foldl_addTag] at h
  rcases h with h | h
  · cases h
  · exact (List.mem_filter.1 h).2

theorem filterMap_mergeOPMetadataTags (existing : List Bytes) (attributes : Attributes) :
    ((mergeOPMetadataTags existing attributes).filterMap decodeOPAttributeTag).Perm
      attributes.rows := by
  have hsort := (List.perm_insertionSort (fun a b => Bytes.le a b = true)
    ((buildOPMetadataTags attributes).foldl addTag
      ((existing.filter isForeignTag).foldl addTag []))).filterMap decodeOPAttributeTag
  refine hsort.trans ?_
  have hkept :
      ((existing.filter isForeignTag).foldl addTag []).filterMap decodeOPAttributeTag = [] :=
    List.filterMap_eq_nil_iff.2 fun t ht => decodeOPAttributeTag_foreign (isForeignTag_of_kept ht)
  rw [foldl_addTag (nodup_buildOPMetadataTags attributes), List.filterMap_append, hkept,
    List.nil_append, List.filterMap_filter]
  -- a tag that was kept decodes to nothing, so that leaving it out changes nothing
  have hf : (buildOPMetadataTags attributes).filterMap (fun t =>
      if (decide (t ∉ (existing.filter isForeignTag).foldl addTag [])) = true
        then decodeOPAttributeTag t else none) =
      (buildOPMetadataTags attributes).filterMap decodeOPAttributeTag := by
    refine List.filterMap_congr fun t _ => ?_
    split
    · rfl
    · rename_i h
      rw [decide_eq_true_iff, not_not] at h
      exact (decodeOPAttributeTag_foreign (isForeignTag_of_kept h)).symm
  rw [hf]
  exact filterMap_buildOPMetadataTags attributes

theorem mem_mergeOPMetadataTags {existing : List Bytes} {t : Bytes} :
    t ∈ mergeOPMetadataTags existing attributes ↔
      (t ∈ existing ∧ isForeignTag t = true) ∨ t ∈ buildOPMetadataTags attributes := by
  rw [mergeOPMetadataTags, List.mem_insertionSort, mem_foldl_addTag, mem_foldl_addTag,
    List.mem_filter]
  simp

theorem opMetaTag_mem_merge (existing : List Bytes) (attributes : Attributes) :
    opMetaTag ∈ mergeOPMetadataTags existing attributes :=
  mem_mergeOPMetadataTags.2 (.inr (by simp [buildOPMetadataTags]))

theorem tagsOf_join_merge (attributes : Attributes) {existing : List Bytes}
    (h : ∀ t ∈ existing, (44 : UInt8) ∉ t) :
    tagsOf (Bytes.join 44 (mergeOPMetadataTags existing attributes)) =
      mergeOPMetadataTags existing attributes := by
  refine Bytes.split_join (fun t ht => ?_)
    (List.ne_nil_of_mem (opMetaTag_mem_merge existing attributes))
  rcases mem_mergeOPMetadataTags.1 ht with ⟨ht, -⟩ | ht
  · exact h t ht
  · exact comma_not_mem_buildOPMetadataTags ht

theorem nodup_foldl_addTag : ∀ {tags kept : List Bytes}, kept.Nodup → (tags.foldl addTag kept).Nodup
  | [], _, h => h
  | tag :: tags, kept, h => by
    rw [List.foldl_cons]
    apply nodup_foldl_addTag
    rw [addTag]
    split
    · exact h
    · rename_i hm
      exact List.nodup_append.2 ⟨h, List.nodup_singleton _, fun a ha b hb => by
        rintro rfl
        exact hm (List.mem_singleton.1 hb ▸ ha)⟩

theorem nodup_mergeOPMetadataTags (existing : List Bytes) (attributes : Attributes) :
    (mergeOPMetadataTags existing attributes).Nodup :=
  (List.perm_insertionSort _ _).nodup_iff.2 (nodup_foldl_addTag (nodup_foldl_addTag List.nodup_nil))

/-- Merged tags are determined by what is in them. -/
theorem mergeOPMetadataTags_eq {existing existing' : List Bytes} {attributes' : Attributes}
    (h : ∀ t, t ∈ mergeOPMetadataTags existing attributes ↔
      t ∈ mergeOPMetadataTags existing' attributes') :
    mergeOPMetadataTags existing attributes = mergeOPMetadataTags existing' attributes' := by
  apply Bytes.insertionSort_eq
  · exact nodup_foldl_addTag (nodup_foldl_addTag List.nodup_nil)
  · exact nodup_foldl_addTag (nodup_foldl_addTag List.nodup_nil)
  · intro t
    have ht := h t
    rwa [mergeOPMetadataTags, List.mem_insertionSort, mergeOPMetadataTags,
      List.mem_insertionSort] at ht

theorem mem_sortedKeys {t : Attributes} {key : Bytes} :
    key ∈ Form.sortedKeys t ↔ (t.get? key).isSome = true := by
  rw [Form.sortedKeys, List.mem_insertionSort, List.mem_map, Option.isSome_iff_exists]
  constructor
  · rintro ⟨r, hr, rfl⟩
    exact ⟨r.2, Table.get?_eq_some_iff.2 hr⟩
  · rintro ⟨value, hv⟩
    exact ⟨_, Table.get?_eq_some_iff.1 hv, rfl⟩

theorem mem_buildOPMetadataTags_of_same {attributes' : Attributes}
    (h : Table.Same attributes attributes') {t : Bytes} (ht : t ∈ buildOPMetadataTags attributes) :
    t ∈ buildOPMetadataTags attributes' := by
  rw [buildOPMetadataTags, List.mem_cons, List.mem_cons, List.mem_map] at ht ⊢
  refine ht.imp_right (Or.imp_right fun ⟨key, hk, ht⟩ => ⟨key, ?_, ?_⟩)
  · rwa [mem_sortedKeys, ← h key, ← mem_sortedKeys]
  · rw [← h key]
    exact ht

/-- A tag that the merge has put in is put in again, or kept. -/
theorem mergeOPMetadataTags_merge (existing : List Bytes) {attributes' : Attributes}
    (h : Table.Same attributes' attributes) :
    mergeOPMetadataTags (mergeOPMetadataTags existing attributes) attributes' =
      mergeOPMetadataTags existing attributes := by
  apply mergeOPMetadataTags_eq
  intro t
  rw [mem_mergeOPMetadataTags, mem_mergeOPMetadataTags]
  constructor
  · rintro (⟨ht, -⟩ | ht)
    · exact ht
    · exact .inr (mem_buildOPMetadataTags_of_same h ht)
  · rintro (⟨ht, hf⟩ | ht)
    · exact .inl ⟨.inl ⟨ht, hf⟩, hf⟩
    · exact .inr (mem_buildOPMetadataTags_of_same h.symm ht)

/-- Merging the tags of an item keeps its attributes and its other tags, and is done once. -/
theorem mergeOPMetadataTags_preserves {existing : List Bytes} (attributes : Attributes)
    (hplain : ∀ t ∈ existing, (44 : UInt8) ∉ t) (id : String) (title : Bytes) {tags : List Bytes}
    (htags : tags = tagsOf (Bytes.join 44 (mergeOPMetadataTags existing attributes))) :
    (∃ item, metadataFromOPListItem ⟨id, title, tags⟩ = some item ∧
      Table.Same item.attributes attributes) ∧
    (∀ t ∈ existing, t ≠ [] → t ≠ opMetaTag → ¬ opAttributeTag <+: t → tags.count t = 1) ∧
    ∀ attributes', Table.Same attributes' attributes →
      mergeOPMetadataTags tags attributes' = tags := by
  rw [tagsOf_join_merge attributes hplain] at htags
  subst htags
  refine ⟨?_, ?_, fun _ => mergeOPMetadataTags_merge existing⟩
  · obtain ⟨attrs, hm, hs⟩ := metadataFromTags_of_perm (opMetaTag_mem_merge existing attributes)
      (filterMap_mergeOPMetadataTags existing attributes)
    exact ⟨_, by rw [metadataFromOPListItem, hm]; rfl, hs⟩
  · intro t ht hne hmeta hattr
    have hforeign : isForeignTag t = true := by
      simp only [isForeignTag, Bool.and_eq_true, Bool.not_eq_true', bne_iff_ne]
      exact ⟨⟨hmeta, Bool.eq_false_iff.2 fun h => hattr (List.isPrefixOf_iff_prefix.1 h)⟩, hne⟩
    exact List.count_eq_one_of_mem (nodup_mergeOPMetadataTags existing attributes)
      (mem_mergeOPMetadataTags.2 (.inl ⟨ht, hforeign⟩))

/-- An item with a tag of its own, given twice, and with the tag of an attribute that it had. -/
theorem mergeOPMetadataTags_preserves_stale :
    (∃ item, metadataFromOPListItem ⟨"1", [], tagsOf (Bytes.join 44 (mergeOPMetadataTags
      [[97], [97], attributeTag [98] [99]] (Table.empty.set [100] [44])))⟩ = some item ∧
      Table.Same item.attributes (Table.empty.set [100] [44])) ∧
    (tagsOf (Bytes.join 44 (mergeOPMetadataTags [[97], [97], attributeTag [98] [99]]
      (Table.empty.set [100] [44])))).count [97] = 1 := by
  have hplain : ∀ t ∈ [[97], [97], attributeTag [98] [99]], (44 : UInt8) ∉ t := by decide
  have h := mergeOPMetadataTags_preserves (Table.empty.set [100] [44]) hplain "1" [] rfl
  exact ⟨h.1, h.2.1 [97] (by decide) (by decide) (by decide) (by decide)⟩

/-! ## The attributes of an item of the vault -/

/-- The attribute map that the backend takes an item of the vault to have. -/
def attributesOf (env : Env) (it : OpItem) : Attributes :=
  (metadataFromTags it.tags).getD (it.fields.foldl (readMetadataField env) Table.empty)

theorem attributesOf_of_tags {it : OpItem} {attrs : Attributes}
    (h : metadataFromTags it.tags = some attrs) : attributesOf env it = attrs := by
  rw [attributesOf, h]
  rfl

def metadataOf (env : Env) (id : String) (it : OpItem) : SecretItem :=
  { id, label := it.title, attributes := attributesOf env it, secret := [] }

/-- The item that `Save` puts into the vault. -/
def savedItem (item : SecretItem) : OpItem :=
  opItem (buildOPItemTemplate item (Form.encode (Form.ofMap item.attributes))).marshal item.label
    (Bytes.join 44 (buildOPMetadataTags item.attributes))

theorem attributesOf_savedItem (env : Env) (item : SecretItem) :
    Table.Same (attributesOf env (savedItem item)) item.attributes := by
  obtain ⟨attrs, hm, hs⟩ := metadataFromTags_build item.attributes
  have htags : (savedItem item).tags = buildOPMetadataTags item.attributes :=
    tagsOf_join_build item.attributes
  rw [attributesOf_of_tags (htags ▸ hm)]
  exact hs

/-- An item as it was but for tags that say the same. -/
structure Keeps (env : Env) (it it' : OpItem) : Prop where
  title : it'.title = it.title
  fields : it'.fields = it.fields
  attributes : Table.Same (attributesOf env it') (attributesOf env it)
  listed : opBaseTag ∈ it'.tags ↔ opBaseTag ∈ it.tags

theorem Keeps.refl (env : Env) (it : OpItem) : Keeps env it it :=
  ⟨rfl, rfl, Table.Same.refl _, Iff.rfl⟩

/-- The vault has the same items, with the same title, fields and attributes. -/
structure KeepsAll (env : Env) (v v' : Vault) : Prop where
  items : ∀ id it, v.get? id = some it → ∃ it', v'.get? id = some it' ∧ Keeps env it it'
  ids : ∀ id, v.get? id = none → v'.get? id = none

theorem KeepsAll.refl (env : Env) (v : Vault) : KeepsAll env v v :=
  ⟨fun _ it h => ⟨it, h, Keeps.refl env it⟩, fun _ h => h⟩

end Keyring.OnePassword
