import Mytools.Lib.Base64
import Mytools.Lib.Form
import Mytools.Keyring.Backend

/-!
# The 1Password backend

`OnePasswordBackend` (`cmd/wsl-keyring/backend_op.go`) over a vault that does what the arguments of
`op item list`, `get`, `create` and `edit` say. An item is stored twice: as fields that only
`op item get` returns, and as tags that `op item list` returns as well. Items without such tags are
read through their fields, and `LoadMetadata` adds the tags to them.
-/

namespace Keyring

open Lib Base64

namespace OnePassword

/-! ## The vault -/

structure OpItemField where
  id : String
  label : String
  type : String
  purpose : String
  value : Bytes

/-- An item of the vault without its ID. A tag has no comma in it: `op` takes the tags of an item as
one comma-separated list. -/
structure OpItem where
  title : Bytes
  category : String
  tags : List Bytes
  fields : List OpItemField
  tags_plain : ∀ t ∈ tags, (44 : UInt8) ∉ t

structure OpListItem where
  id : String
  title : Bytes
  tags : List Bytes

abbrev Vault := Table String OpItem

/-- What the backend takes from outside: the ID that `op item create` gives to a new item, the limit
of `url.ParseQuery` on the number of parameters and `json.Unmarshal` into a `map[string]string`. A
text that the latter accepts has a brace in it, or is `null`. -/
structure Env where
  newID : Vault → String
  newID_fresh : ∀ v : Vault, v.get? (newID v) = none
  urlParamsWithinMax : Nat → Bool
  unmarshalMap : Bytes → Option Attributes
  unmarshalMap_text : ∀ s m, unmarshalMap s = some m → 123 ∈ s ∨ s ≠ [] ∧ 61 ∉ s

/-- The tags of a `--tags` argument. -/
def tagsOf (argument : Bytes) : List Bytes := Bytes.split 44 argument

/-- `op item list --tags tag` -/
def opList (v : Vault) (tag : Bytes) : List OpListItem :=
  (v.rows.filter fun r => r.2.tags.contains tag).map fun r => ⟨r.1, r.2.title, r.2.tags⟩

/-- `op item get id` -/
def opGet (v : Vault) (id : String) : Except Err OpItem :=
  match v.get? id with
  | none => .error (.wrapped "op command failed" .notFound)
  | some it => .ok it

/-- `op item edit id --tags tags` -/
def opEditTags (v : Vault) (id : String) (tags : Bytes) : Except Err Vault := do
  let it ← opGet v id
  pure (v.set id { it with tags := tagsOf tags, tags_plain := fun _ => Bytes.not_mem_of_mem_split })

/-- What `op` decodes from the template on its standard input. -/
structure Template where
  title : Bytes
  category : String
  fields : List OpItemField

/-- An item made of a template and of the `--title` and `--tags` that are given with it. An argument
reaches `op` as a text. -/
def opItem (template : Template) (title tags : Bytes) : OpItem where
  title := Bytes.toValid title
  category := template.category
  tags := tagsOf tags
  fields := template.fields
  tags_plain := fun _ => Bytes.not_mem_of_mem_split

/-- `op item edit id --title title --tags tags` with a template -/
def opEdit (v : Vault) (id : String) (template : Template) (title tags : Bytes) :
    Except Err Vault := do
  let _ ← opGet v id
  pure (v.set id (opItem template title tags))

/-- `op item create - --tags tags --title title` with a template; the ID is in its output. -/
def opCreate (env : Env) (v : Vault) (template : Template) (title tags : Bytes) : String × Vault :=
  (env.newID v, v.set (env.newID v) (opItem template title tags))

/-! ## Tags -/

def opBaseTag : Bytes := Bytes.ofString "wsl-keyring"

def opMetaTag : Bytes := Bytes.ofString "wsl-keyring-meta-v1"

def opAttributeTag : Bytes := Bytes.ofString "wsl-keyring-attr:"

/-- `=` -/
def opTagSeparator : UInt8 := 61

def decodeOPAttributeTag (tag : Bytes) : Option (Bytes × Bytes) := do
  let raw ← Bytes.cutPrefix opAttributeTag tag
  let (encodedKey, encodedValue) ← Bytes.cut opTagSeparator raw
  let key ← Encoding.rawURL.decode encodedKey
  let value ← Encoding.rawURL.decode encodedValue
  some (key, value)

/-- The attributes in the tags of an item, if there are any or if they are marked as complete. -/
def metadataFromTags (tags : List Bytes) : Option Attributes :=
  if tags.any fun t => t == opMetaTag || (decodeOPAttributeTag t).isSome then
    some (Table.empty.setAll (tags.filterMap decodeOPAttributeTag))
  else none

def metadataFromOPListItem (listItem : OpListItem) : Option SecretItem :=
  (metadataFromTags listItem.tags).map fun attributes =>
    { id := listItem.id, label := listItem.title, attributes, secret := [] }

def attributeTag (key value : Bytes) : Bytes :=
  opAttributeTag ++ Encoding.rawURL.encode key ++
    opTagSeparator :: Encoding.rawURL.encode value

def buildOPMetadataTags (attributes : Attributes) : List Bytes :=
  opBaseTag :: opMetaTag :: (Form.sortedKeys attributes).map fun key =>
    attributeTag key ((attributes.get? key).getD [])

/-- Append a tag that was not seen yet. -/
def addTag (tags : List Bytes) (tag : Bytes) : List Bytes :=
  if tag ∈ tags then tags else tags ++ [tag]

/-- A tag that is not one of the backend's metadata tags. -/
def isForeignTag (tag : Bytes) : Bool :=
  tag != opMetaTag && !opAttributeTag.isPrefixOf tag && tag != []

def mergeOPMetadataTags (existing : List Bytes) (attributes : Attributes) : List Bytes :=
  let kept := (existing.filter isForeignTag).foldl addTag []
  ((buildOPMetadataTags attributes).foldl addTag kept).insertionSort fun a b => Bytes.le a b = true

/-! ## Fields -/

/-- The branch of an `attributes` field: a JSON object, or else a form of which the first value of
each key counts. -/
def readAttributes (env : Env) (attributes : Attributes) (value : Bytes) : Attributes :=
  match env.unmarshalMap value with
  | some attrs => attributes.setAll attrs.rows
  | none =>
    match Form.parseQuery env.urlParamsWithinMax value with
    | some values =>
      attributes.setAll (Form.firsts values)
    | none => attributes

def username : Bytes := Bytes.ofString "username"

/-- One field in the loop of `getMetadataOnly`. -/
def readMetadataField (env : Env) (attributes : Attributes) (field : OpItemField) : Attributes :=
  if field.id = "username" then attributes.set username field.value
  else if field.id = "attributes" ∨ field.label = "attributes" then
    readAttributes env attributes field.value
  else attributes

/-- One field in the loop of `Get`, which reads the secret too. -/
def readField (env : Env) (item : SecretItem) (field : OpItemField) : SecretItem :=
  if field.id = "username" then
    { item with attributes := item.attributes.set username field.value }
  else if field.id = "password" then { item with secret := field.value }
  else if field.id = "attributes" ∨ field.label = "attributes" then
    { item with attributes := readAttributes env item.attributes field.value }
  else item

def buildOPItemTemplate (item : SecretItem) (attrsStr : Bytes) : Template where
  title := item.label
  category := "LOGIN"
  fields := [
    { id := "username", label := "username", type := "STRING", purpose := "USERNAME",
      value := (item.attributes.get? username).getD [] },
    { id := "password", label := "password", type := "CONCEALED", purpose := "PASSWORD",
      value := item.secret },
    { id := "attributes", label := "attributes", type := "STRING", purpose := "",
      value := attrsStr }]

/-- `json.Marshal`, and what is decoded from it: a string comes out as valid UTF-8. -/
def Template.marshal (t : Template) : Template :=
  { t with
    title := Bytes.toValid t.title
    fields := t.fields.map fun f => { f with value := Bytes.toValid f.value } }

/-! ## The operations -/

def getMetadataOnly (env : Env) (v : Vault) (id : String) : Except Err SecretItem := do
  let it ← opGet v id
  pure { id, label := it.title, attributes := it.fields.foldl (readMetadataField env) Table.empty,
         secret := [] }

/-- An edit that fails is only logged. -/
def migrateLegacyMetadataTags (v : Vault) (listItem : OpListItem) (item : SecretItem) : Vault :=
  let tags := mergeOPMetadataTags listItem.tags item.attributes
  match opEditTags v item.id (Bytes.join 44 tags) with
  | .ok v' => v'
  | .error _ => v

def loadLegacyMetadata (env : Env) (v : Vault) (listItem : OpListItem) :
    Except Err (SecretItem × Vault) := do
  let item ← getMetadataOnly env v listItem.id
  pure (item, migrateLegacyMetadataTags v listItem item)

/-- `LoadMetadata` under way: the items so far, and the items whose goroutine has not finished. -/
structure Loading where
  vault : Vault
  items : List SecretItem
  waiting : List OpListItem

namespace Loading

/-- One of the started goroutines does its work. -/
def finish (env : Env) (l : Loading) (k : Nat) : Except Err Loading :=
  match l.waiting[k]? with
  | none => pure l
  | some listItem => do
    let (item, vault) ← loadLegacyMetadata env l.vault listItem
    pure { vault, items := l.items ++ [item], waiting := l.waiting.eraseIdx k }

/-- The loop's body: the item itself, or a goroutine for it. -/
def visit (l : Loading) (listItem : OpListItem) : Loading :=
  match metadataFromOPListItem listItem with
  | some item => { l with items := l.items ++ [item] }
  | none => { l with waiting := l.waiting ++ [listItem] }

/-- The loop over the list. Before each turn the goroutines that the schedule names finish, and
`Wait` lets all the others finish. -/
def loop (env : Env) : List (List Nat) → List OpListItem → Loading → Except Err Loading
  | schedule, [], l => do
    let l ← schedule.flatten.foldlM (finish env) l
    (List.replicate l.waiting.length 0).foldlM (finish env) l
  | schedule, listItem :: rest, l => do
    let l ← (schedule.headD []).foldlM (finish env) l
    loop env schedule.tail rest (l.visit listItem)

end Loading

def loadMetadata (env : Env) (schedule : List (List Nat)) (v : Vault) :
    Except Err (List SecretItem × Vault) := do
  let l ← Loading.loop env schedule (opList v opBaseTag) { vault := v, items := [], waiting := [] }
  pure (l.items, l.vault)

def get (env : Env) (v : Vault) (id : String) : Except Err SecretItem :=
  match opGet v id with
  | .error e => .error (.wrapped "secret not found" e)
  | .ok it =>
    .ok (it.fields.foldl (readField env)
      { id, label := it.title, attributes := Table.empty, secret := [] })

/-- The metadata of a listed item; one that cannot be read is logged and skipped. -/
def inspect (env : Env) (v : Vault) (listItem : OpListItem) : Option SecretItem :=
  match metadataFromOPListItem listItem with
  | some item => some item
  | none => (getMetadataOnly env v listItem.id).toOption

def findMatchingOPItem (env : Env) (v : Vault) (attributes : Attributes) : Option String :=
  (opList v opBaseTag).findSome? fun listItem =>
    (inspect env v listItem).bind fun item =>
      if attributesMatch item.attributes attributes then some item.id else none

/-- The ID that the item has after it is saved, and the vault. -/
def save (env : Env) (v : Vault) (item : SecretItem) : Except Err (String × Vault) :=
  let attrsStr := Form.encode (Form.ofMap item.attributes)
  let tags := Bytes.join 44 (buildOPMetadataTags item.attributes)
  let template := (buildOPItemTemplate item attrsStr).marshal
  let update (id : String) : Except Err (String × Vault) :=
    match opEdit v id template item.label tags with
    | .error e => .error (.wrapped "failed to persist secret update in 1Password" e)
    | .ok v' => .ok (id, v')
  if item.id = "" then
    match findMatchingOPItem env v item.attributes with
    | some existingID => update existingID
    | none => .ok (opCreate env v template item.label tags)
  else update item.id

end OnePassword

end Keyring
