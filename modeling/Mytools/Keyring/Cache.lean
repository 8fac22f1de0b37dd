import Mytools.Keyring.DBus

/-!
# The cached backend (`cmd/wsl-keyring/backend_cache.go`)

A `CachedBackend` with `CacheMetadata` in front of the 1Password backend. With `AsyncSave`, which
the program sets, `Save` returns at once, with a pending ID for an item that has none of the vault,
and `persistSave` calls `op` in the background. Each section that holds `metaMu`, and each call of
the 1Password backend, is one step; between any two of them the others go on (`Cached.Step`).

A background save is known by its number, where the code has a pointer. The cache of secrets is left
out: no ID and nothing in the vault depends on it.
-/

namespace Keyring

open Lib

/-- Where a background save is. -/
inductive Phase
  /-- For the save before it. -/
  | waiting
  /-- `raw.Save` is next. -/
  | saving
  | saved (ok : Bool)
  /-- `raw.Delete` is next. -/
  | cleaning (id : String)
  /-- `done` is closed. -/
  | finished
  deriving DecidableEq, Repr

/-- `pendingSaveState`, with the variables of `persistSave`. -/
structure PendingSave where
  /-- Empty for an item that has an ID of the vault. -/
  pendingID : String
  trackingKey : String
  item : SecretItem
  /-- The save whose `done` is `prevDone`. -/
  prev : Option Nat := none
  deleted : Bool := false
  superseded : Bool := false
  phase : Phase := .waiting

structure Cached where
  vault : OnePassword.Vault
  metaCache : Table String SecretItem := .empty
  metaLoaded : Bool := false
  idAliases : Table String String := .empty
  pendingSaves : Table String (List Nat) := .empty
  saves : List PendingSave := []
  /-- What `loadMetadataCache` has read and not put into the cache yet. -/
  loading : Option (List SecretItem) := none
  /-- The calls of `Delete` that go on with `raw.Delete`, by the ID and what it resolved to. -/
  deleting : List (String × String) := []
  evicting : List (String × String) := []

namespace Cached

variable (s : Cached)

/-! ## Queues -/

def queue (key : String) : List Nat := (s.pendingSaves.get? key).getD []

/-- The entry of an empty queue is deleted. -/
def setQueue (key : String) (q : List Nat) : Cached :=
  { s with pendingSaves := if q = [] then s.pendingSaves.erase key else s.pendingSaves.set key q }

/-- Changes some of the saves. -/
def mark (ns : List Nat) (f : PendingSave → PendingSave) : Cached :=
  { s with saves := s.saves.mapIdx fun i p => if i ∈ ns then f p else p }

def addPendingSaveLocked (key : String) (p : PendingSave) : Cached :=
  let existing := s.queue key
  let s := s.mark existing fun p => { p with superseded := true }
  { s.setQueue key (existing ++ [s.saves.length]) with
    saves := s.saves ++ [{ p with prev := existing.getLast? }] }

/-- `none` if the save is not in the queue. -/
def removePendingSaveFromKeyLocked (key : String) (n : Nat) : Option Cached :=
  if n ∈ s.queue key then some (s.setQueue key ((s.queue key).erase n)) else none

/-- The queue of the key, that of the ID behind it, or whichever has the save. -/
def removePendingSaveLocked (key : String) (n : Nat) : Cached :=
  ((s.removePendingSaveFromKeyLocked key n).or
    (((s.idAliases.get? key).filter (· ≠ key)).bind fun realID =>
      s.removePendingSaveFromKeyLocked realID n)).or
    (s.pendingSaves.rows.findSome? fun row => s.removePendingSaveFromKeyLocked row.1 n) |>.getD s

def markPendingSavesDeletedLocked (key : String) : Cached :=
  s.mark (s.queue key) fun p => { p with deleted := true }

/-! ## IDs -/

def resolveID (id : String) : String := (s.idAliases.get? id).getD id

/-- The ID of the vault behind a pending one, or else the key. -/
def behind (pendingID key : String) : String :=
  ((s.idAliases.get? pendingID).filter fun realID => !isPendingID realID).getD key

def cleanupAlias (id : String) : Cached :=
  if id = "" then s
  else { s with idAliases := (s.idAliases.erase id).filter fun _ v => v ≠ id }

def evictItemFromCachesLocked (id resolvedID : String) : Cached :=
  let s := { s with metaCache := (s.metaCache.erase id).erase resolvedID }
  (s.cleanupAlias id).cleanupAlias resolvedID

/-! ## Metadata -/

def cacheMetadata (item : SecretItem) : Cached :=
  { s with metaCache := s.metaCache.set item.id { item with secret := [] }, metaLoaded := true }

/-- What `loadMetadataCache` does with the items. -/
def fillMetadata (items : List SecretItem) : Cached :=
  { s with
    metaCache := Table.empty.setAll (items.map fun m => (m.id, m))
    metaLoaded := true
    loading := none }

/-- `metadata`, before the items are put in the order of the map's iteration. A load that is under
way is waited for. -/
def metadata (env : OnePassword.Env) (schedule : List (List Nat)) : Except Err Unit × Cached :=
  if s.metaLoaded then (.ok (), s)
  else match s.loading with
    | some items => (.ok (), s.fillMetadata items)
    | none =>
      match OnePassword.loadMetadata env schedule s.vault with
      | .error e => (.error e, s)
      | .ok (items, vault) => (.ok (), { s with vault }.fillMetadata items)

/-! ## Save -/

/-- The ID with which `raw.Save` is called at once. -/
def rawID (id : String) : String :=
  let id := if id = "" then id else s.resolveID id
  if isPendingID id then "" else id

/-- Without `AsyncSave`. -/
def saveNow (env : OnePassword.Env) (item : SecretItem) : Except Err String × Cached :=
  let item := { item with id := s.rawID item.id }
  match OnePassword.save env s.vault item with
  | .error e => (.error e, s)
  | .ok (id, vault) =>
    let s := { s with vault }
    (.ok id, if id = "" then s else s.cacheMetadata { item with id })

/-- With `AsyncSave`, up to where `persistSave` is started; with the ID that the item has then,
under which the save is tracked. -/
def saveLater (newPendingID : String) (item : SecretItem) : Cached × String :=
  let id := if item.id = "" then item.id else s.resolveID item.id
  let pendingID := if id = "" then newPendingID else if isPendingID id then id else ""
  let trackingKey := if pendingID = "" then id else pendingID
  let persistItem := { item with id := if pendingID = "" then id else "" }
  let s := s.addPendingSaveLocked trackingKey { pendingID, trackingKey, item := persistItem }
  (s.cacheMetadata { item with id := trackingKey }, trackingKey)

/-! ## The background -/

def setPhase (n : Nat) (phase : Phase) : Cached := s.mark [n] fun p => { p with phase }

/-- `raw.Delete` is next, unless the ID is a pending one. -/
def cleanup (n : Nat) (id : String) : Cached :=
  s.setPhase n (if isPendingID id then .finished else .cleaning id)

/-- The first section of `persistSave`. -/
def persistStart (n : Nat) (p : PendingSave) : Cached :=
  if p.deleted then
    (s.removePendingSaveLocked p.trackingKey n).cleanup n
      (if isPendingID p.trackingKey ∧ p.pendingID ≠ "" then s.behind p.pendingID p.trackingKey
        else p.trackingKey)
  else if p.superseded then (s.removePendingSaveLocked p.trackingKey n).setPhase n .finished
  else
    let item :=
      if p.item.id = "" ∧ p.pendingID ≠ "" then
        { p.item with id := (s.idAliases.get? p.pendingID).getD "" }
      else p.item
    s.mark [n] fun p => { p with item, phase := .saving }

/-- `raw.Save` -/
def persistRaw (env : OnePassword.Env) (n : Nat) (p : PendingSave) : Cached :=
  match OnePassword.save env s.vault p.item with
  | .error _ => s.setPhase n (.saved false)
  | .ok (id, vault) =>
    { s with vault }.mark [n] fun p => { p with item := { p.item with id }, phase := .saved true }

/-- The item has an ID of the vault now: the queue and the cache move to it. -/
def rename (pendingID : String) (item : SecretItem) : Cached :=
  let s := { s with idAliases := s.idAliases.set pendingID item.id }
  let remaining := s.queue pendingID
  let s := if remaining = [] then s
    else (s.setQueue item.id (s.queue item.id ++ remaining)).setQueue pendingID []
  let cached := match s.metaCache.get? pendingID with
    | some cached => (s.metaCache.erase pendingID).set item.id { cached with id := item.id }
    | none => s.metaCache.set item.id { item with secret := [] }
  { s with metaCache := cached }

/-- The second section of `persistSave`; `ok`: without an error of `raw.Save`. -/
def persistEnd (n : Nat) (p : PendingSave) (ok : Bool) : Cached :=
  let s := s.removePendingSaveLocked p.trackingKey n
  if p.deleted then
    s.cleanup n
      (if p.pendingID = "" then p.trackingKey
        else if ok ∧ p.item.id ≠ "" ∧ isPendingID p.item.id = false then p.item.id
        else s.behind p.pendingID p.trackingKey)
  else
    (if ok ∧ p.pendingID ≠ "" ∧ p.item.id ≠ "" ∧ p.item.id ≠ p.pendingID then
      s.rename p.pendingID p.item
    else s).setPhase n .finished

/-! ## Delete -/

/-- The first section of `Delete`: the saves of the item are marked. -/
def delete (id : String) : Cached :=
  let resolvedID := s.resolveID id
  let s := s.markPendingSavesDeletedLocked id
  let s := if resolvedID = id then s else s.markPendingSavesDeletedLocked resolvedID
  let s := (s.idAliases.rows.filter fun r => r.2 = id ∨ r.2 = resolvedID).foldl
    (fun s r => s.markPendingSavesDeletedLocked r.1) s
  if isPendingID resolvedID then s.evictItemFromCachesLocked id resolvedID
  else { s with deleting := (id, resolvedID) :: s.deleting }

/-! ## Steps -/

/-- What a step does to the vault, if anything. -/
inductive Action
  /-- `Save` is called. -/
  | save (item : SecretItem)
  /-- `raw.Save` of a background save. -/
  | write (p : PendingSave)
  /-- `raw.Delete` -/
  | erase (id : String)
  | internal

variable (env : OnePassword.Env)

/-- The steps with `AsyncSave`. A call of `op` that fails changes nothing. -/
inductive Step (s : Cached) : Action → Cached → Prop
  /-- That the cache was not loaded was found before, and may be so no more. -/
  | load (schedule : List (List Nat)) (items : List SecretItem) (vault : OnePassword.Vault) :
      s.loading = none →
      OnePassword.loadMetadata env schedule s.vault = .ok (items, vault) →
      Step s .internal { s with vault, loading := some items }
  | fill (items : List SecretItem) : s.loading = some items →
      Step s .internal (s.fillMetadata items)
  | save (item : SecretItem) (newPendingID : String) : isPendingID newPendingID = true →
      Step s (.save item) (s.saveLater newPendingID item).1
  /-- The save before it is done. -/
  | start (n : Nat) (p : PendingSave) : s.saves[n]? = some p → p.phase = .waiting →
      (∀ m ∈ p.prev, ∀ q ∈ s.saves[m]?, q.phase = .finished) →
      Step s .internal (s.persistStart n p)
  /-- The context of a save ends while it waits. -/
  | timeout (n : Nat) (p : PendingSave) : s.saves[n]? = some p → p.phase = .waiting →
      p.prev ≠ none →
      Step s .internal ((s.removePendingSaveLocked p.trackingKey n).setPhase n .finished)
  | write (n : Nat) (p : PendingSave) : s.saves[n]? = some p → p.phase = .saving →
      Step s (.write p) (s.persistRaw env n p)
  | writeFails (n : Nat) (p : PendingSave) : s.saves[n]? = some p → p.phase = .saving →
      Step s .internal (s.setPhase n (.saved false))
  | finish (n : Nat) (p : PendingSave) (ok : Bool) : s.saves[n]? = some p → p.phase = .saved ok →
      Step s .internal (s.persistEnd n p ok)
  | clean (n : Nat) (p : PendingSave) (id : String) : s.saves[n]? = some p →
      p.phase = .cleaning id →
      Step s (.erase id) ({ s with vault := s.vault.erase id }.setPhase n .finished)
  | cleanFails (n : Nat) (p : PendingSave) (id : String) : s.saves[n]? = some p →
      p.phase = .cleaning id → Step s .internal (s.setPhase n .finished)
  | delete (id : String) : Step s .internal (s.delete id)
  | rawDelete (id resolvedID : String) : (id, resolvedID) ∈ s.deleting →
      Step s (.erase resolvedID)
        { s with
          vault := s.vault.erase resolvedID
          deleting := s.deleting.erase (id, resolvedID)
          evicting := (id, resolvedID) :: s.evicting }
  | rawDeleteFails (id resolvedID : String) : (id, resolvedID) ∈ s.deleting →
      Step s .internal { s with deleting := s.deleting.erase (id, resolvedID) }
  | evict (id resolvedID : String) : (id, resolvedID) ∈ s.evicting →
      Step s .internal
        { s.evictItemFromCachesLocked id resolvedID with
          evicting := s.evicting.erase (id, resolvedID) }

/-- `order` is the order in which `range` goes over the cache. -/
def search (schedule : List (List Nat)) (order : List SecretItem → List SecretItem)
    (attributes : Attributes) (s : Cached) : Except Err (List SecretItem) × Cached :=
  match metadata s env schedule with
  | (.error e, s) => (.error e, s)
  | (.ok (), s) => (.ok (matching (order (s.metaCache.rows.map (·.2))) attributes), s)

/-- `newPendingID` is `none` if there is no randomness for it. -/
def save (asyncSave : Bool) (newPendingID : Option String) (item : SecretItem) (s : Cached) :
    Except Err String × Cached :=
  if asyncSave then
    match newPendingID with
    | some newPendingID =>
      let (s, id) := s.saveLater newPendingID item
      (.ok id, s)
    | none =>
      -- an item with an ID needs no new one
      if item.id = "" ∨ s.resolveID item.id = "" then
        (.error (.failed "failed to generate pending item ID"), s)
      else
        let (s, id) := s.saveLater pendingIDPrefix item
        (.ok id, s)
  else s.saveNow env item

def backend (schedule : List (List Nat)) (order : List SecretItem → List SecretItem)
    (asyncSave : Bool) (newPendingID : Option String) : StorageBackend Cached where
  search := search env schedule order
  save := save env asyncSave newPendingID

end Cached

end Keyring
