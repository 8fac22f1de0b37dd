import Mytools.Litestream.ReplicaFile

/-!
# The replica poller (`replica_poller.go`)

A poll lists the new L0 and L1 files, merges what the two levels found, or rebuilds the file from
a fresh restore plan, and stages the result. `pollUpdate` is the part between the two sections
that hold the file's mutex: it reads the cursors it is given and the client only.
-/

namespace Litestream

structure PollLevelResult where
  maxTXID : Nat
  index : PageIndex := ∅
  commit : Nat
  gapAt : Nat := 0
  replace : Bool := false
  /-- The latest index reset was caused by a file that starts at transaction 1. -/
  fromRoot : Bool := false

/-- One contiguous file added to the result of its level. -/
def PollLevelResult.addFile (r : PollLevelResult) (info : FileInfo) (idx : PageIndex)
    (hdr : Header) : PollLevelResult :=
  let reset := hdr.commit < r.commit ∨ hdr.minTXID = 1
  { r with
    replace := if reset then true else r.replace
    fromRoot := if reset then hdr.minTXID == 1 else r.fromRoot
    index := (if reset then ∅ else r.index) ∪ idx
    commit := hdr.commit
    maxTXID := info.maxTXID }

/-- The loop of `pollLevel`; the flag says that it was left at a gap. -/
def pollLevelLoop (c : ReplicaClient) (pageSize level : Nat) :
    List FileInfo → PollLevelResult → Except ReplicaError (PollLevelResult × Bool)
  | [], r => .ok (r, false)
  | info :: infos, r =>
    if info.minTXID ≠ r.maxTXID + 1 then
      if level = 0 ∧ info.minTXID > r.maxTXID + 1 then .ok ({ r with gapAt := info.minTXID }, true)
      else .error (.nonContiguous level r.maxTXID info)
    else
      match fetchChecked c pageSize info with
      | .error e => .error e
      | .ok (idx, hdr) => pollLevelLoop c pageSize level infos (r.addFile info idx hdr)

def pollLevel (c : ReplicaClient) (pageSize level : Nat) (previous : Nat) (baseCommit : Nat) :
    Except ReplicaError PollLevelResult :=
  match c.ltxFiles level (previous + 1) with
  | .error e => .error (.ltxFiles e)
  | .ok itr =>
    match pollLevelLoop c pageSize level itr.items
        { maxTXID := previous, commit := baseCommit } with
    | .error e => .error e
    | .ok (r, left) =>
      -- the iterator's own error is met only when the loop reached its end
      match (if left then none else itr.err), itr.closeErr with
      | some e, _ => .error (.iterateLTXFiles e)
      | none, some e => .error (.closeIterator e)
      | none, none => .ok r

def isProvablyCompleteSnapshot (l0 l1 : PollLevelResult) : Bool :=
  if l1.replace then l1.fromRoot
  else if l0.replace then l0.fromRoot
  else false

def mergePollLevelResults (pollPos : Pos) (pollMaxTXID1 : Nat) (pollCommit : Nat)
    (l0 l1 : PollLevelResult) : ReplicaUpdate where
  index := l0.index ∪ l1.index.filter fun pgno elem =>
    match l0.index[pgno]? with
    | none => true
    | some existing => elem.maxTXID ≥ existing.maxTXID
  replace := false
  commit :=
    if l0.maxTXID ≥ l1.maxTXID ∧ (l0.maxTXID > pollPos.txid ∨ l0.index.isEmpty = false) then
      l0.commit
    else if l1.maxTXID > pollMaxTXID1 ∨ l1.index.isEmpty = false then l1.commit
    else pollCommit
  pos := { pollPos with txid := max (max pollPos.txid l0.maxTXID) l1.maxTXID }
  maxTXID1 := l1.maxTXID

def isNoopPollUpdate (pollPos : Pos) (pollMaxTXID1 : Nat) (pollCommit : Nat)
    (u : ReplicaUpdate) : Bool :=
  !u.replace && u.index.isEmpty && u.pos == pollPos && u.maxTXID1 == pollMaxTXID1 &&
    u.commit == pollCommit

/-- The search of `hasSupersedingSnapshot` in one level. -/
def supersededAt (c : ReplicaClient) (level : Nat) (pollTXID : Nat) : Except ReplicaError Bool :=
  match c.ltxFiles level 1 with
  | .error e => .error (.ltxFiles e)
  | .ok itr =>
    if itr.items.any fun info => info.minTXID = 1 ∧ info.maxTXID > pollTXID then
      match itr.closeErr with
      | some e => .error (.closeIterator e)
      | none => .ok true
    else
      match itr.err, itr.closeErr with
      | some e, _ => .error (.iterateLTXFiles e)
      | none, some e => .error (.closeIterator e)
      | none, none => .ok false

def hasSupersedingSnapshot (c : ReplicaClient) (pollTXID : Nat) : Except ReplicaError Bool :=
  match supersededAt c 0 pollTXID with
  | .ok false => supersededAt c 1 pollTXID
  | r => r

def rebuildLatest (c : ReplicaClient) (pageSize : Nat) : Except ReplicaError ReplicaUpdate :=
  match c.calcRestorePlan with
  | .error e => .error (.restorePlan e)
  | .ok [] => .error .restorePlanEmpty
  | .ok infos =>
    match buildSnapshot c infos pageSize with
    | .error e => .error e
    | .ok s =>
      .ok { index := s.index, replace := true, commit := s.commit, pos := s.pos,
            maxTXID1 := s.maxTXID1 }

/-- The L0 gap, if there is one, lies below what the L1 files cover. -/
def gapBridged (l0 l1 : PollLevelResult) : Bool := l0.gapAt ≠ 0 ∧ l1.maxTXID + 1 ≥ l0.gapAt

def safeBridgedReplace (l0 l1 : PollLevelResult) : Bool :=
  gapBridged l0 l1 && (l0.replace || l1.replace) && isProvablyCompleteSnapshot l0 l1

def needRebuild (l0 l1 : PollLevelResult) : Bool :=
  (l0.gapAt ≠ 0 && !gapBridged l0 l1) || ((l0.replace || l1.replace) && !safeBridgedReplace l0 l1)

/-- What a poll stages, from the cursors it read. -/
def pollUpdate (c : ReplicaClient) (pageSize : Nat) (pollPos : Pos) (pollMaxTXID1 : Nat)
    (pollCommit : Nat) : Except ReplicaError ReplicaUpdate :=
  match pollLevel c pageSize 0 pollPos.txid pollCommit with
  | .error e => .error (.pollL0 e)
  | .ok l0 =>
    match pollLevel c pageSize 1 pollMaxTXID1 l0.commit with
    | .error e => .error (.pollL1 e)
    | .ok l1 =>
      if needRebuild l0 l1 then rebuildLatest c pageSize
      else
        let update := mergePollLevelResults pollPos pollMaxTXID1 pollCommit l0 l1
        let update := if safeBridgedReplace l0 l1 then { update with replace := true } else update
        if isNoopPollUpdate pollPos pollMaxTXID1 pollCommit update then
          match hasSupersedingSnapshot c pollPos.txid with
          | .error e => .error e
          | .ok false => .ok update
          | .ok true => rebuildLatest c pageSize
        else .ok update

namespace ReplicaFile

variable {C : PageCache}

/-- The last section of a successful poll. -/
def finishPoll (f : ReplicaFile C) (u : ReplicaUpdate) (now : Int) : ReplicaFile C :=
  { stageUpdateLocked
      { f with pollPos := u.pos, pollMaxTXID1 := u.maxTXID1, pollCommit := u.commit } u with
    lastPollSuccess := now
    lastPollErr := none }

/-- The error `pollReplicaClient` records: a level's failure is recorded without the prefix that
it is returned with. -/
def recordedError : ReplicaError → ReplicaError
  | .pollL0 e => e
  | .pollL1 e => e
  | e => e

def recordPollFailure (f : ReplicaFile C) (e : ReplicaError) : ReplicaFile C :=
  { f with lastPollErr := some (recordedError e) }

/-- `pollReplicaClient` with no other step between its sections. -/
def pollReplicaClient (f : ReplicaFile C) (c : ReplicaClient) (now : Int) :
    ReplicaFile C × Except ReplicaError Unit :=
  match pollUpdate c f.pageSize f.pollPos f.pollMaxTXID1 f.pollCommit with
  | .error e => (f.recordPollFailure e, .error e)
  | .ok u => (f.finishPoll u now, .ok ())

end ReplicaFile

end Litestream
