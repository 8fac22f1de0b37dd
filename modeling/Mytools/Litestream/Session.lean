import Mytools.Litestream.Poller
import Mytools.Litestream.Reader

/-!
# A replica file in use

The file's poller, its lock calls and any number of reads, interleaved section by section. One
poll is in flight at a time (`pollMu`); it reads the cursors in its first section and installs its
result in its last, whatever the client answered in between. Reads are told apart by an id.
-/

namespace Litestream

open Lib

/-- What a poll read in its first section. -/
structure Cursors where
  pos : Pos
  maxTXID1 : Nat
  commit : Nat
  deriving DecidableEq, Repr

structure Session (C : PageCache) where
  file : ReplicaFile C
  polling : Option Cursors := none
  reads : Nat → Option ReadPhase := fun _ => none

/-- The sections and the fetches. `size n` is a `Size` call that returned `n`, `finish` ends a read
that has returned. -/
inductive Event
  | pollBegin
  | pollEnd (c : ReplicaClient) (now : Int)
  | lock (l : LockLevel)
  | unlock (l : LockLevel)
  | size (n : Nat)
  | readAt (id len off : Nat)
  | lookup (id : Nat)
  | fetch (id : Nat) (env : FetchAttempts)
  | insert (id : Nat)
  | check (id : Nat) (rand : Option (UInt8 × UInt8 × UInt8 × UInt8))
  | finish (id : Nat)

namespace Session

variable {C : PageCache}

def setRead (s : Session C) (id : Nat) (ph : Option ReadPhase) : Session C :=
  { s with reads := fun i => if i = id then ph else s.reads i }

def setFileRead (s : Session C) (id : Nat) (x : ReplicaFile C × ReadPhase) : Session C :=
  { s.setRead id (some x.2) with file := x.1 }

/-- The session after an event, if the event can happen. -/
def step (s : Session C) : Event → Option (Session C)
  | .pollBegin =>
    match s.polling with
    | some _ => none
    | none =>
      some { s with polling := some ⟨s.file.pollPos, s.file.pollMaxTXID1, s.file.pollCommit⟩ }
  | .pollEnd c now =>
    match s.polling with
    | none => none
    | some k =>
      match pollUpdate c s.file.pageSize k.pos k.maxTXID1 k.commit with
      | .error e => some { s with file := s.file.recordPollFailure e, polling := none }
      | .ok u => some { s with file := s.file.finishPoll u now, polling := none }
  | .lock l =>
    match s.file.doLock l with
    | .error _ => some s
    | .ok f => some { s with file := f }
  | .unlock l =>
    match s.file.doUnlock l with
    | .error _ => some s
    | .ok f => some { s with file := f }
  | .size n => if n = s.file.getSize then some s else none
  | .readAt id len off =>
    match s.reads id with
    | some _ => none
    | none => some (s.setRead id (some (s.file.readAt len off)))
  | .lookup id =>
    match s.reads id with
    | some (.loop c) => some (s.setFileRead id (s.file.lookupPage c))
    | _ => none
  | .fetch id env =>
    match s.reads id with
    | some (.missed c elem) => some (s.setRead id (some (ReplicaFile.fetchPage env c elem)))
    | _ => none
  | .insert id =>
    match s.reads id with
    | some (.fetched c elem data) => some (s.setFileRead id (s.file.insertPage c elem data))
    | _ => none
  | .check id rand =>
    match s.reads id with
    | some (.page c data) => some (s.setRead id (some (s.file.checkPage c data rand)))
    | _ => none
  | .finish id =>
    match s.reads id with
    | some (.done ..) => some (s.setRead id none)
    | _ => none

/-- The answers of a fetch are the stored copy that the index entry designates. -/
def Truthful (store : PageIndexElem → Nat × List UInt8) (s : Session C) : Event → Prop
  | .fetch id env => ∀ c elem i x, s.reads id = some (.missed c elem) →
      env.fetchPage i = .ok x → x = store elem
  | _ => True

/-- A step of the session over a store whose copies do not change. -/
def Step (store : PageIndexElem → Nat × List UInt8) (s : Session C) (e : Event) (t : Session C) :
    Prop :=
  s.Truthful store e ∧ s.step e = some t

end Session

end Litestream
