import Mytools.Keyring.OnePassword

/-!
# Creating items over D-Bus

`CollectionObject.CreateItem` (`cmd/wsl-keyring/dbus_service.go`) over any storage backend, and the
1Password backend as one of them. The program puts a `CachedBackend` between the two.
-/

namespace Keyring

open Lib

/-- The operations of `StorageBackend` that `CreateItem` uses. They may change the state even when
they fail; `save` returns the ID that the item has afterwards. -/
structure StorageBackend (σ : Type) where
  search : Attributes → σ → Except Err (List SecretItem) × σ
  save : SecretItem → σ → Except Err String × σ

/-- The items that `Search` returns of those it looks at. -/
def matching (items : List SecretItem) (attributes : Attributes) : List SecretItem :=
  items.filter fun m => attributesMatch m.attributes attributes

/-! ## The 1Password backend -/

namespace OnePassword

/-- `expired`: the context of the search ends before `op` answers. -/
def search (env : Env) (schedule : List (List Nat)) (expired : Bool) (attributes : Attributes)
    (v : Vault) : Except Err (List SecretItem) × Vault :=
  if expired then (.error (.failed "context deadline exceeded"), v)
  else match loadMetadata env schedule v with
    | .error e => (.error e, v)
    | .ok (items, v') => (.ok (matching items attributes), v')

def backend (env : Env) (schedule : List (List Nat)) (expired : Bool) : StorageBackend Vault where
  search := search env schedule expired
  save item v := match save env v item with
    | .error e => (.error e, v)
    | .ok (id, v') => (.ok id, v')

end OnePassword

/-! ## The request -/

structure SessionState where
  algorithm : String
  aesKey : Option Bytes

/-- A `dbus.Variant`, by the types that `CreateItem` looks for. -/
inductive Variant where
  | string (s : Bytes)
  | attributes (a : Attributes)
  | other

structure DBusSecret where
  session : String
  parameters : Bytes
  value : Bytes

/-- The service, with AES-CBC decryption and the export of an item to the bus. -/
structure ServiceObject where
  sessions : Table String SessionState
  aesCBCDecrypt : Bytes → Bytes → Bytes → Except Err Bytes
  exportItem : SecretItem → Except Err Unit

def algorithmDH : String := "dh-ietf1024-sha256-aes128-cbc-pkcs7"

def itemInterface : String := "org.freedesktop.Secret.Item"

def itemPathPrefix : String := "/org/freedesktop/secrets/collection/default/item/"

namespace ServiceObject

def decryptSecret (s : ServiceObject) (sess : SessionState) (params value : Bytes) :
    Except Err Bytes :=
  match sess.aesKey with
  | some key =>
    if sess.algorithm = algorithmDH then
      if params.length ≠ 16 then
        .error (.failed s!"expected 16-byte IV, got {params.length} bytes")
      else s.aesCBCDecrypt key params value
    else .ok value
  | none => .ok value

/-- The label of a request; a value of another type ends the handler. -/
def requestedLabel (properties : Table String Variant) : Except Err Bytes :=
  match properties.get? (itemInterface ++ ".Label") with
  | none => .ok []
  | some (.string s) => .ok s
  | some _ => .error (.failed "interface conversion")

/-- The attributes of a request; a value of another type counts as none. -/
def requestedAttributes (properties : Table String Variant) : Attributes :=
  match properties.get? (itemInterface ++ ".Attributes") with
  | some (.attributes a) => a
  | _ => Table.empty

/-- The item that a request asks for, without an ID. -/
def requestedItem (s : ServiceObject) (properties : Table String Variant) (secret : DBusSecret) :
    Except Err SecretItem := do
  let label ← requestedLabel properties
  match s.sessions.get? secret.session with
  | none => .error (.failed "invalid session")
  | some sess => do
    let value ← s.decryptSecret sess secret.parameters secret.value
    pure { id := "", label, attributes := requestedAttributes properties, secret := value }

variable {σ : Type}

/-- The ID that a replacing request takes over: that of the first item found. -/
def replacedID (backend : StorageBackend σ) (replace : Bool) (attributes : Attributes) (state : σ) :
    String × σ :=
  if replace then
    match backend.search attributes state with
    | (.ok (found :: _), state') => (found.id, state')
    | (_, state') => ("", state')
  else ("", state)

/-- The path of the item, and the state of the backend. -/
def createItem (s : ServiceObject) (backend : StorageBackend σ) (properties : Table String Variant)
    (secret : DBusSecret) (replace : Bool) (state : σ) : Except Err String × σ :=
  match s.requestedItem properties secret with
  | .error e => (.error e, state)
  | .ok item =>
    let (id, state) := replacedID backend replace item.attributes state
    match backend.save { item with id } state with
    | (.error e, state) => (.error e, state)
    | (.ok id, state) =>
      match s.exportItem { item with id } with
      | .error e => (.error e, state)
      | .ok () => (.ok (itemPathPrefix ++ id), state)

end ServiceObject

end Keyring
