import Mytools.Lib.Lru
import Mytools.Litestream.Ltx

/-!
# The replica file (`replica_file.go`)

The state of one open replica file, how it is opened from a restore plan, and its lock calls.
The cursors (`pollPos`, `pollMaxTXID1`, `pollCommit`) belong to the poller, the visible state
(`index`, `commit`, `pos`, `maxTXID1`) to the readers; `pending` is an update that waits for the
end of a read transaction.
-/

namespace Litestream

open Lib

/-! ## Data -/

/-- `ncrucesvfs.LockLevel` -/
inductive LockLevel
  | none
  | shared
  | reserved
  | pending
  | exclusive
  deriving DecidableEq, Repr

def LockLevel.rank : LockLevel → Nat
  | .none => 0
  | .shared => 1
  | .reserved => 2
  | .pending => 3
  | .exclusive => 4

instance : LE LockLevel := ⟨fun a b => a.rank ≤ b.rank⟩
instance : LT LockLevel := ⟨fun a b => a.rank < b.rank⟩
instance (a b : LockLevel) : Decidable (a ≤ b) := inferInstanceAs (Decidable (a.rank ≤ b.rank))
instance (a b : LockLevel) : Decidable (a < b) := inferInstanceAs (Decidable (a.rank < b.rank))

/-- The errors of opening and of polling, each with the values its message shows. -/
inductive ReplicaError
  | restorePlan (cause : ClientError)
  | restorePlanEmpty
  | unsupportedPageSize (pageSize : Nat)
  | fetchLTXHeader (cause : ClientError)
  | noPageSize
  | fetchPageIndex (cause : ClientError)
  | fetchHeader (cause : ClientError)
  | pageSizeMismatch (want got : Nat)
  | rangeMismatch (info : FileInfo) (hdr : Header)
  | ltxFiles (cause : ClientError)
  | iterateLTXFiles (cause : ClientError)
  | closeIterator (cause : ClientError)
  | nonContiguous (level : Nat) (current : Nat) (next : FileInfo)
  | pollL0 (cause : ReplicaError)
  | pollL1 (cause : ReplicaError)
  deriving DecidableEq, Repr

structure ReplicaSnapshot where
  index : PageIndex := ∅
  commit : Nat := 0
  pos : Pos := {}
  maxTXID1 : Nat := 0

structure ReplicaUpdate where
  index : PageIndex
  replace : Bool
  commit : Nat
  pos : Pos
  maxTXID1 : Nat

/-- The library for the cache of pages, `lru.Cache[uint32, []byte]`. -/
abbrev PageCache := Lru Nat (List UInt8)

/-- `replicaFile`; `lastPollSuccess` is the time of the last successful poll. -/
structure ReplicaFile (C : PageCache) where
  pageSize : Nat
  commit : Nat
  index : PageIndex
  pos : Pos
  maxTXID1 : Nat
  pollPos : Pos
  pollMaxTXID1 : Nat
  pollCommit : Nat
  lastPollSuccess : Int := 0
  lastPollErr : Option ReplicaError := none
  pending : Option ReplicaUpdate := none
  visibleGeneration : Nat := 0
  cache : C.Cache
  lock : LockLevel := .none

variable {C : PageCache}

/-! ## Opening -/

def isSupportedPageSize (pageSize : Nat) : Bool :=
  pageSize ∈ [512, 1024, 2048, 4096, 8192, 16384, 32768, 65536]

/-- The loop of `detectPageSize` over the plan from its end, with the last fetch error. -/
def detectPageSizeLoop (c : ReplicaClient) :
    List FileInfo → Option ClientError → Except ReplicaError Nat
  | [], some e => .error (.fetchLTXHeader e)
  | [], none => .error .noPageSize
  | info :: infos, _ =>
    match c.fetchLTXHeader info with
    | .error e => detectPageSizeLoop c infos (some e)
    | .ok hdr =>
      if isSupportedPageSize hdr.pageSize then .ok hdr.pageSize
      else .error (.unsupportedPageSize hdr.pageSize)

def detectPageSize (c : ReplicaClient) (infos : List FileInfo) : Except ReplicaError Nat :=
  detectPageSizeLoop c infos.reverse none

/-- The index and the header of a file, after the checks that `buildSnapshot` and `pollLevel`
make in the same order with the same errors. -/
def fetchChecked (c : ReplicaClient) (pageSize : Nat) (info : FileInfo) :
    Except ReplicaError (PageIndex × Header) :=
  match c.fetchPageIndex info with
  | .error e => .error (.fetchPageIndex e)
  | .ok idx =>
    match c.fetchLTXHeader info with
    | .error e => .error (.fetchHeader e)
    | .ok hdr =>
      if hdr.pageSize ≠ pageSize then .error (.pageSizeMismatch pageSize hdr.pageSize)
      else if hdr.minTXID ≠ info.minTXID ∨ hdr.maxTXID ≠ info.maxTXID then
        .error (.rangeMismatch info hdr)
      else .ok (idx, hdr)

/-- One file of the plan added to the snapshot. -/
def ReplicaSnapshot.addFile (s : ReplicaSnapshot) (info : FileInfo) (idx : PageIndex)
    (hdr : Header) : ReplicaSnapshot where
  index := s.index ∪ idx
  commit := hdr.commit
  pos := if info.maxTXID > s.pos.txid then info.pos else s.pos
  maxTXID1 := if info.level = 1 ∧ info.maxTXID > s.maxTXID1 then info.maxTXID else s.maxTXID1

def buildSnapshotLoop (c : ReplicaClient) (pageSize : Nat) :
    List FileInfo → ReplicaSnapshot → Except ReplicaError ReplicaSnapshot
  | [], s => .ok s
  | info :: infos, s =>
    match fetchChecked c pageSize info with
    | .error e => .error e
    | .ok (idx, hdr) => buildSnapshotLoop c pageSize infos (s.addFile info idx hdr)

def buildSnapshot (c : ReplicaClient) (infos : List FileInfo) (pageSize : Nat) :
    Except ReplicaError ReplicaSnapshot :=
  buildSnapshotLoop c pageSize infos {}

def defaultCacheSize : Int := 10 * 1024 * 1024

def openReplicaFile (C : PageCache) (c : ReplicaClient) (cacheSize : Int) :
    Except ReplicaError (ReplicaFile C) :=
  let cacheSize := if cacheSize ≤ 0 then defaultCacheSize else cacheSize
  match c.calcRestorePlan with
  | .error e => .error (.restorePlan e)
  | .ok [] => .error .restorePlanEmpty
  | .ok infos =>
    match detectPageSize c infos with
    | .error e => .error e
    | .ok pageSize =>
      match buildSnapshot c infos pageSize with
      | .error e => .error e
      | .ok s =>
        .ok
          { pageSize
            commit := s.commit
            index := s.index
            pos := s.pos
            maxTXID1 := s.maxTXID1
            pollPos := s.pos
            pollMaxTXID1 := s.maxTXID1
            pollCommit := s.commit
            cache := C.new (max (cacheSize.toNat / pageSize) 1) }

theorem openReplicaFile_ok {c : ReplicaClient} {cacheSize : Int} {f : ReplicaFile C}
    (h : openReplicaFile C c cacheSize = .ok f) :
    ∃ info infos s n, c.calcRestorePlan = .ok (info :: infos) ∧
      detectPageSize c (info :: infos) = .ok f.pageSize ∧
      buildSnapshot c (info :: infos) f.pageSize = .ok s ∧
      f = { pageSize := f.pageSize, commit := s.commit, index := s.index, pos := s.pos,
            maxTXID1 := s.maxTXID1, pollPos := s.pos, pollMaxTXID1 := s.maxTXID1,
            pollCommit := s.commit, cache := C.new n } := by
  unfold openReplicaFile at h
  cases hp : c.calcRestorePlan with
  | error e => simp [hp] at h
  | ok infos =>
    cases infos with
    | nil => simp [hp] at h
    | cons info infos =>
      simp only [hp] at h
      cases hd : detectPageSize c (info :: infos) with
      | error e => simp [hd] at h
      | ok pageSize =>
        simp only [hd] at h
        cases hs : buildSnapshot c (info :: infos) pageSize with
        | error e => simp [hs] at h
        | ok s =>
          simp only [hs] at h
          cases h
          exact ⟨info, infos, s, _, rfl, hd, hs, rfl⟩

/-! ## Updates and locks -/

namespace ReplicaFile

/-- `applyUpdateLocked`: a replacement keeps the update's pages up to its commit size and empties
the cache, an increment overwrites its pages and drops them from the cache. -/
def applyUpdateLocked (f : ReplicaFile C) (u : ReplicaUpdate) : ReplicaFile C :=
  { f with
    index := if u.replace then u.index.filter fun pgno _ => pgno ≤ u.commit else f.index ∪ u.index
    cache := if u.replace then C.purge f.cache else u.index.keys.foldl C.remove f.cache
    commit := u.commit
    pos := u.pos
    maxTXID1 := u.maxTXID1
    visibleGeneration := f.visibleGeneration + 1 }

/-- `mergePendingLocked` -/
def mergePendingLocked (f : ReplicaFile C) (u : ReplicaUpdate) : ReplicaFile C :=
  if u.replace then { f with pending := some u }
  else
    match f.pending with
    | none => { f with pending := some u }
    | some p =>
      { f with
        pending := some
          { p with index := p.index ∪ u.index, commit := u.commit, pos := u.pos,
                   maxTXID1 := u.maxTXID1 } }

/-- An update without pages that does not move the state it would be added to. -/
def unchangedBy (f : ReplicaFile C) (u : ReplicaUpdate) : Bool :=
  !u.replace && u.index.isEmpty &&
    match f.pending with
    | none => u.pos == f.pos && u.commit == f.commit && u.maxTXID1 == f.maxTXID1
    | some p => u.pos == p.pos && u.commit == p.commit && u.maxTXID1 == p.maxTXID1

/-- `stageUpdateLocked` -/
def stageUpdateLocked (f : ReplicaFile C) (u : ReplicaUpdate) : ReplicaFile C :=
  if f.unchangedBy u then f
  else if .shared ≤ f.lock then f.mergePendingLocked u
  else f.applyUpdateLocked u

/-- The errors of `Lock` and `Unlock`. -/
inductive LockError
  | invalidLockDowngrade
  | readOnly
  | invalidUnlockTarget
  deriving DecidableEq, Repr

/-- `Lock`; on an error the file is unchanged. -/
def doLock (f : ReplicaFile C) (lock : LockLevel) : Except LockError (ReplicaFile C) :=
  if lock < f.lock then .error .invalidLockDowngrade
  else if .reserved ≤ lock then .error .readOnly
  else .ok { f with lock }

/-- `Unlock`; on an error the file is unchanged. -/
def doUnlock (f : ReplicaFile C) (lock : LockLevel) : Except LockError (ReplicaFile C) :=
  if lock ≠ .none ∧ lock ≠ .shared then .error .invalidUnlockTarget
  else
    match lock, f.pending with
    | .none, some u => .ok { applyUpdateLocked { f with lock } u with pending := none }
    | _, _ => .ok { f with lock }

/-- `Size` -/
def getSize (f : ReplicaFile C) : Nat := f.commit * f.pageSize

end ReplicaFile

end Litestream
