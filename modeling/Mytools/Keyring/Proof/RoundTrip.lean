import Mytools.Keyring.Proof.Load

/-!
# Saving an item and reading it back

`LoadMetadata` lists a new item with its label and attributes. `Get` reads it through its fields:
the secret comes back if it is valid UTF-8, and the attributes if `username` is one of them, since
`Get` sets that key in any case, and if the form of the attributes is within the reader's limit.
-/

namespace Keyring.OnePassword

open Lib

variable {env : Env} {v : Vault} {item : SecretItem}

/-! ## Saving -/

theorem opEdit_of_get? {id : String} {it : OpItem} (h : v.get? id = some it) (template : Template)
    (title tags : Bytes) :
    opEdit v id template title tags = .ok (v.set id (opItem template title tags)) := by
  rw [opEdit, opGet, h]
  rfl

/-- The first of the items that matches the attributes. -/
def firstMatch (items : List SecretItem) (attributes : Attributes) : Option SecretItem :=
  items.find? fun m => attributesMatch m.attributes attributes

theorem findSome?_bind {α β γ : Type} {f : α → Option β} {p : β → Bool} {g : β → γ} :
    ∀ xs : List α, (xs.findSome? fun x => (f x).bind fun m => if p m then some (g m) else none) =
      ((xs.filterMap f).find? p).map g
  | [] => rfl
  | x :: xs => by
    have ih := findSome?_bind (f := f) (p := p) (g := g) xs
    cases hf : f x with
    | none => simpa [hf] using ih
    | some m => cases hp : p m <;> simp [hf, hp, ih]

theorem findMatchingOPItem_eq (env : Env) (v : Vault) (attributes : Attributes) :
    findMatchingOPItem env v attributes = (firstMatch (listed env v) attributes).map (·.id) :=
  findSome?_bind (opList v opBaseTag)

theorem get?_of_findMatchingOPItem {attributes : Attributes} {id : String}
    (h : findMatchingOPItem env v attributes = some id) : ∃ it, v.get? id = some it := by
  rw [findMatchingOPItem_eq, Option.map_eq_some_iff] at h
  obtain ⟨m, hm, rfl⟩ := h
  obtain ⟨id, it, hit, -, rfl⟩ := mem_listed.1 (List.mem_of_find?_eq_some hm)
  exact ⟨it, hit⟩

theorem save_of_found {id : String} (hid : item.id = "")
    (h : findMatchingOPItem env v item.attributes = some id) :
    save env v item = .ok (id, v.set id (savedItem item)) := by
  obtain ⟨it, hit⟩ := get?_of_findMatchingOPItem h
  simp only [save, if_pos hid, h, opEdit_of_get? hit]
  rfl

theorem save_of_none (hid : item.id = "") (h : findMatchingOPItem env v item.attributes = none) :
    save env v item = .ok (env.newID v, v.set (env.newID v) (savedItem item)) := by
  simp only [save, if_pos hid, h]
  rfl

/-- A new item ends up in the vault under the ID that `Save` gives it. -/
theorem save_new (env : Env) (v : Vault) (item : SecretItem) (hid : item.id = "") :
    ∃ id, save env v item = .ok (id, v.set id (savedItem item)) := by
  cases h : findMatchingOPItem env v item.attributes with
  | some id => exact ⟨id, save_of_found hid h⟩
  | none => exact ⟨env.newID v, save_of_none hid h⟩

/-! ## Reading the fields -/

theorem unmarshalMap_form (env : Env) (attributes : Attributes) :
    env.unmarshalMap (Form.encode (Form.ofMap attributes)) = none := by
  cases h : env.unmarshalMap (Form.encode (Form.ofMap attributes)) with
  | none => rfl
  | some m =>
    have h123 : (123 : UInt8) ∉ Form.encode (Form.ofMap attributes) :=
      Form.not_mem_encodePairs (by decide) (by decide) (by decide) _
    rcases env.unmarshalMap_text _ m h with hm | ⟨hne, h61⟩
    · exact absurd hm h123
    · -- a form that is not empty has an equals sign
      refine absurd (Form.mem_encodePairs fun hnil => hne ?_) h61
      rw [Form.encode, hnil]
      rfl

/-- The attributes that a form adds, if it is read at all. -/
theorem readAttributes_form (env : Env) (start attributes : Attributes) :
    readAttributes env start (Form.encode (Form.ofMap attributes)) = start ∧
        (attributes.rows = [] ∨ env.urlParamsWithinMax attributes.rows.length = false) ∨
      ∃ rows, rows.Perm attributes.rows ∧
        readAttributes env start (Form.encode (Form.ofMap attributes)) = start.setAll rows ∧
        env.urlParamsWithinMax attributes.rows.length = true := by
  unfold readAttributes
  rw [unmarshalMap_form]
  by_cases hne : attributes.rows = []
  · have henc : Form.encode (Form.ofMap attributes) = [] := by
      have hp := Form.pairs_perm attributes
      rw [hne] at hp
      show Form.encodePairs (Form.pairs attributes) = []
      rw [List.perm_nil.1 hp]
      rfl
    refine .inl ⟨?_, .inl hne⟩
    have hparse : Form.parseQuery env.urlParamsWithinMax [] = some Table.empty ∨
        Form.parseQuery env.urlParamsWithinMax [] = none := by
      unfold Form.parseQuery
      split
      · exact .inl rfl
      · exact .inr rfl
    rw [henc]
    rcases hparse with h | h
    · rw [h]
      rfl
    · rw [h]
  · obtain ⟨values, hp, hparse⟩ := Form.parseQuery_encode_ofMap env.urlParamsWithinMax hne
    rw [hparse]
    cases hw : env.urlParamsWithinMax attributes.rows.length with
    | true => exact .inr ⟨Form.firsts values, hp, rfl, rfl⟩
    | false => exact .inl ⟨rfl, .inr rfl⟩

/-- The attributes that `Get` starts from when it comes to the form. -/
def usernameOnly (item : SecretItem) : Attributes :=
  Table.empty.set username (Bytes.toValid ((item.attributes.get? username).getD []))

def readBack (env : Env) (item : SecretItem) : Attributes :=
  readAttributes env (usernameOnly item) (Form.encode (Form.ofMap item.attributes))

theorem get_saved (env : Env) (v : Vault) (item : SecretItem) (id : String) :
    get env (v.set id (savedItem item)) id = .ok
      { id, label := Bytes.toValid item.label, attributes := readBack env item,
        secret := Bytes.toValid item.secret } := by
  have hget : (v.set id (savedItem item)).get? id = some (savedItem item) := by
    rw [Table.get?_set, if_pos rfl]
  have hform : Bytes.toValid (Form.encode (Form.ofMap item.attributes)) =
      Form.encode (Form.ofMap item.attributes) := Bytes.toValid_of_valid (Form.encode_valid _)
  rw [get, opGet, hget]
  simp only [savedItem, opItem, Template.marshal, buildOPItemTemplate, List.map_cons, List.map_nil,
    List.foldl_cons, List.foldl_nil, readField, if_true, hform, readBack, usernameOnly,
    String.reduceEq, if_false, false_or, true_or]

theorem get?_usernameOnly {key value : Bytes} :
    (usernameOnly item).get? key = some value ↔
      key = username ∧ value = Bytes.toValid ((item.attributes.get? username).getD []) := by
  rw [usernameOnly, Table.get?_set_eq_some, Table.get?_empty]
  simp [eq_comm]

/-- `Get` returns a user name for every item. -/
theorem username_readBack (env : Env) (item : SecretItem) :
    ∃ value, (readBack env item).get? username = some value := by
  rcases readAttributes_form env (usernameOnly item) item.attributes with
    ⟨he, -⟩ | ⟨rows, hp, he, -⟩
  · exact ⟨_, by rw [readBack, he]; exact get?_usernameOnly.2 ⟨rfl, rfl⟩⟩
  · have hn : (rows.map (·.1)).Nodup := (hp.map _).nodup_iff.2 item.attributes.nodup
    rw [readBack, he]
    by_cases hu : username ∈ rows.map (·.1)
    · obtain ⟨r, hr, hru⟩ := List.mem_map.1 hu
      exact ⟨r.2, (Table.get?_setAll_eq_some hn).2 (.inl (hru ▸ hr))⟩
    · exact ⟨_, (Table.get?_setAll_eq_some hn).2 (.inr ⟨hu, get?_usernameOnly.2 ⟨rfl, rfl⟩⟩)⟩

/-- A map with one key has no other. -/
theorem eq_of_length_eq_one {attributes : Attributes} (h : attributes.rows.length = 1)
    {k k' a a' : Bytes} (hk : attributes.get? k = some a) (hk' : attributes.get? k' = some a') :
    k = k' := by
  obtain ⟨r, hr⟩ := List.length_eq_one_iff.1 h
  rw [Table.get?_eq_some_iff, hr, List.mem_singleton] at hk hk'
  exact congrArg Prod.fst (hk.trans hk'.symm)

theorem readBack_same_iff (env : Env)
    (hattrs : ∀ k u, item.attributes.get? k = some u → Bytes.Valid u) :
    Table.Same (readBack env item) item.attributes ↔
      (∃ u, item.attributes.get? username = some u) ∧
        (item.attributes.rows.length = 1 ∨
          env.urlParamsWithinMax item.attributes.rows.length = true) := by
  constructor
  · intro hs
    obtain ⟨value, hu⟩ := username_readBack env item
    refine ⟨⟨value, (hs username).symm.trans hu⟩, ?_⟩
    rcases readAttributes_form env (usernameOnly item) item.attributes with
      ⟨he, -⟩ | ⟨-, -, -, hw⟩
    · -- only the user name was read, so that no other key is there
      refine .inl ?_
      have hsub : ∀ r ∈ item.attributes.rows, r.1 = username := by
        intro r hr
        have hget := (hs r.1).trans (Table.get?_eq_some_iff.2 hr)
        rw [readBack, he] at hget
        exact (get?_usernameOnly.1 hget).1
      have hone : (item.attributes.rows.map (·.1)).Perm [username] := by
        refine (List.perm_ext_iff_of_nodup item.attributes.nodup (by simp)).2 fun k => ?_
        rw [List.mem_singleton, List.mem_map]
        constructor
        · rintro ⟨r, hr, rfl⟩
          exact hsub r hr
        · rintro rfl
          exact ⟨_, Table.get?_eq_some_iff.1 ((hs username).symm.trans hu), rfl⟩
      simpa using hone.length_eq
    · exact .inr hw
  · rintro ⟨⟨u, hu⟩, hmax⟩ k
    have huser : (usernameOnly item).get? username = some u := by
      refine get?_usernameOnly.2 ⟨rfl, ?_⟩
      rw [hu, Option.getD_some, Bytes.toValid_of_valid (hattrs username u hu)]
    apply Option.ext
    intro value
    rcases readAttributes_form env (usernameOnly item) item.attributes with
      ⟨he, hnot⟩ | ⟨rows, hp, he, -⟩
    · have hone : item.attributes.rows.length = 1 := by
        rcases hmax with h | h
        · exact h
        · rcases hnot with hnil | hf
          · rw [Table.get?_eq_some_iff, hnil] at hu
            cases hu
          · rw [hf] at h
            cases h
      rw [readBack, he]
      constructor
      · intro h
        obtain ⟨rfl, -⟩ := get?_usernameOnly.1 h
        rw [huser] at h
        rw [hu, h]
      · intro h
        obtain rfl := eq_of_length_eq_one hone h hu
        rw [hu] at h
        rw [huser, h]
    · have hn : (rows.map (·.1)).Nodup := (hp.map _).nodup_iff.2 item.attributes.nodup
      rw [readBack, he, Table.get?_setAll_eq_some hn, hp.mem_iff, ← Table.get?_eq_some_iff]
      refine ⟨?_, .inl⟩
      rintro (h | ⟨hk, h⟩)
      · exact h
      · obtain ⟨rfl, -⟩ := get?_usernameOnly.1 h
        exact absurd (List.mem_map_of_mem (hp.mem_iff.2 (Table.get?_eq_some_iff.1 hu))) hk

/-! ## The round trip -/

/-- The item with this ID is read back as it was saved. -/
structure RoundTrip (env : Env) (item : SecretItem) (id : String) (v : Vault) : Prop where
  get : ∃ got, get env v id = .ok got ∧ got.label = item.label ∧
    Table.Same got.attributes item.attributes ∧ got.secret = item.secret
  load : ∀ schedule, ∃ items v', loadMetadata env schedule v = .ok (items, v') ∧
    ∃ m ∈ items, m.id = id ∧ m.label = item.label ∧ Table.Same m.attributes item.attributes

/-- What the fields of an item cannot hold is not there: a map without a user name, a map of two or
more keys beyond the limit of `url.ParseQuery`, and a secret that is not valid UTF-8. -/
structure Faithful (env : Env) (item : SecretItem) : Prop where
  username : ∃ u, item.attributes.get? username = some u
  withinMax : item.attributes.rows.length = 1 ∨
    env.urlParamsWithinMax item.attributes.rows.length = true
  secret : Bytes.Valid item.secret

theorem load_saved (hlabel : Bytes.Valid item.label) (id : String) (schedule : List (List Nat)) :
    ∃ items v', loadMetadata env schedule (v.set id (savedItem item)) = .ok (items, v') ∧
      ∃ m ∈ items, m.id = id ∧ m.label = item.label ∧ Table.Same m.attributes item.attributes := by
  obtain ⟨items, v', h, -, hp⟩ := loadMetadata_spec env schedule (v.set id (savedItem item))
  have htag : opBaseTag ∈ (savedItem item).tags := by
    have htags : (savedItem item).tags = buildOPMetadataTags item.attributes :=
      tagsOf_join_build item.attributes
    rw [htags]
    exact List.mem_cons_self
  have hget : (v.set id (savedItem item)).get? id = some (savedItem item) := by
    rw [Table.get?_set, if_pos rfl]
  exact ⟨items, v', h, _, hp.mem_iff.2 (mem_listed.2 ⟨id, _, hget, htag, rfl⟩), rfl,
    Bytes.toValid_of_valid hlabel, attributesOf_savedItem env item⟩

theorem new_item_round_trip_iff (env : Env) (v : Vault) (item : SecretItem) (hid : item.id = "")
    (hlabel : Bytes.Valid item.label)
    (hattrs : ∀ k u, item.attributes.get? k = some u → Bytes.Valid k ∧ Bytes.Valid u) :
    ∃ id v', save env v item = .ok (id, v') ∧ (RoundTrip env item id v' ↔ Faithful env item) := by
  obtain ⟨id, hsave⟩ := save_new env v item hid
  have hget := get_saved env v item id
  have hsame := readBack_same_iff env fun k u h => (hattrs k u h).2
  refine ⟨id, _, hsave, ?_, ?_⟩
  · rintro ⟨⟨got, hgot, -, hs, hsecret⟩, -⟩
    rw [hget] at hgot
    cases hgot
    obtain ⟨hu, hmax⟩ := hsame.1 hs
    exact ⟨hu, hmax, Bytes.valid_iff.2 hsecret⟩
  · rintro ⟨hu, hmax, hsecret⟩
    exact ⟨⟨_, hget, Bytes.toValid_of_valid hlabel, hsame.2 ⟨hu, hmax⟩,
      Bytes.toValid_of_valid hsecret⟩, load_saved hlabel id⟩

/-! ## A vault with generated IDs -/

/-- An ID that is longer than every ID of the vault. -/
def longerID (v : Vault) : String :=
  String.ofList (List.replicate ((v.rows.foldr (fun r n => r.1.toList.length + n) 0) + 1) 'i')

theorem length_le_foldr : ∀ {rows : List (String × OpItem)} {r : String × OpItem}, r ∈ rows →
    r.1.toList.length ≤ rows.foldr (fun r n => r.1.toList.length + n) 0
  | x :: rows, r, h => by
    rw [List.foldr_cons]
    rcases List.mem_cons.1 h with rfl | h
    · omega
    · have := length_le_foldr h
      omega

theorem get?_longerID (v : Vault) : v.get? (longerID v) = none := by
  cases h : v.get? (longerID v) with
  | none => rfl
  | some it =>
    have hle := length_le_foldr (Table.get?_eq_some_iff.1 h)
    rw [longerID, String.toList_ofList, List.length_replicate] at hle
    omega

def sampleEnv : Env where
  newID := longerID
  newID_fresh := get?_longerID
  urlParamsWithinMax n := n ≤ 10000
  unmarshalMap _ := none
  unmarshalMap_text := by simp

theorem valid_ofString (s : String) : Bytes.Valid (Bytes.ofString s) := ⟨s.toList, rfl⟩

def loginItem : SecretItem where
  id := ""
  label := Bytes.ofString "git.example.org"
  attributes := ⟨[(username, Bytes.ofString "alice"),
    (Bytes.ofString "server", Bytes.ofString "git")], by decide⟩
  secret := Bytes.ofString "s3cret"

theorem loginItem_round_trip :
    ∃ id v', save sampleEnv Table.empty loginItem = .ok (id, v') ∧
      RoundTrip sampleEnv loginItem id v' := by
  have hattrs : ∀ k u, loginItem.attributes.get? k = some u → Bytes.Valid k ∧ Bytes.Valid u := by
    intro k u h
    rw [Table.get?_eq_some_iff] at h
    simp only [loginItem, List.mem_cons, List.not_mem_nil, or_false, Prod.mk.injEq] at h
    rcases h with ⟨rfl, rfl⟩ | ⟨rfl, rfl⟩
    · exact ⟨valid_ofString "username", valid_ofString "alice"⟩
    · exact ⟨valid_ofString "server", valid_ofString "git"⟩
  obtain ⟨id, v', hsave, hiff⟩ := new_item_round_trip_iff sampleEnv Table.empty loginItem rfl
    (valid_ofString "git.example.org") hattrs
  exact ⟨id, v', hsave, hiff.2 ⟨⟨_, Table.get?_eq_some_iff.2 List.mem_cons_self⟩, .inr rfl,
    valid_ofString "s3cret"⟩⟩

/-- An item that has no user name. -/
def tokenItem : SecretItem where
  id := ""
  label := Bytes.ofString "token"
  attributes := ⟨[(Bytes.ofString "server", Bytes.ofString "git")], by decide⟩
  secret := Bytes.ofString "s3cret"

/-- An item whose secret is a byte that is no text. -/
def keyItem : SecretItem where
  id := ""
  label := Bytes.ofString "key"
  attributes := ⟨[(username, Bytes.ofString "alice")], by decide⟩
  secret := [0xff]

theorem tokenItem_keyItem_no_round_trip :
    (∃ id v', save sampleEnv Table.empty tokenItem = .ok (id, v') ∧
      ¬ RoundTrip sampleEnv tokenItem id v') ∧
    ∃ id v', save sampleEnv Table.empty keyItem = .ok (id, v') ∧
      ¬ RoundTrip sampleEnv keyItem id v' := by
  constructor
  · obtain ⟨id, hsave⟩ := save_new sampleEnv Table.empty tokenItem rfl
    refine ⟨id, _, hsave, fun h => ?_⟩
    obtain ⟨got, hgot, -, hs, -⟩ := h.get
    rw [get_saved] at hgot
    cases hgot
    -- the user name that `Get` adds is not in the map
    obtain ⟨u, hu⟩ := username_readBack sampleEnv tokenItem
    rw [hs username, Table.get?_eq_some_iff] at hu
    have hkey : username = Bytes.ofString "server" := congrArg Prod.fst (List.mem_singleton.1 hu)
    exact absurd hkey (by decide)
  · obtain ⟨id, hsave⟩ := save_new sampleEnv Table.empty keyItem rfl
    refine ⟨id, _, hsave, fun h => ?_⟩
    obtain ⟨got, hgot, -, -, hsecret⟩ := h.get
    rw [get_saved] at hgot
    cases hgot
    have hkept : Bytes.toValid [0xff] = [0xff] := hsecret
    exact absurd hkept (by decide)

end Keyring.OnePassword
