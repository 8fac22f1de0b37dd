import Mathlib.Data.List.Infix
import Mytools.Litestream.ReplicaFile

/-!
# Reads of a replica file (`ReadAt`, `page`, `fetchPageWithRetry`)

A read takes the file's mutex several times: once to pin a generation, then for every page once to
look it up, once to insert it into the cache when it had to be fetched, and once to check that the
generation is still the same before its bytes are copied. Each of these sections is one function
here; a `ReadPhase` is what a read knows between two of them. Fetches hold no mutex.
-/

namespace Litestream

open Lib

/-! ## Fetching a page -/

/-- An error of `litestream.FetchPage`, with what `errors.Is` and `errors.As` find in it. -/
structure PageFault where
  text : String
  canceled : Bool := false
  unexpectedEOF : Bool := false
  deadlineExceeded : Bool := false
  notExist : Bool := false
  temporary : Bool := false
  deriving DecidableEq, Repr

def isRetryablePageError (e : PageFault) : Bool :=
  if e.canceled then false
  else if e.unexpectedEOF || e.deadlineExceeded || e.notExist then true
  else if "unexpected EOF".toList <:+: e.text.toList then true
  else e.temporary

inductive ReadError
  | eof
  | snapshotChanged
  | snapshotChangedDuringFetch
  | indexChanged
  | snapshotChangedDuringRead
  | pageNotFound (pgno : Nat)
  | context (cause : String)
  | fetchPage (pgno : Nat) (cause : PageFault)
  | fetchPageBusy (pgno : Nat) (cause : Option PageFault)
  | pageNumberMismatch (want got : Nat)
  | pageSizeMismatch (want got : Nat)
  | changeCounter
  deriving DecidableEq, Repr

/-- What the attempts of one fetch meet: the context's error, before the attempt or in the delay
before it, and the answer of `FetchPage`, a page number with its data. -/
structure FetchAttempts where
  ctxErr : Nat → Option String
  fetchPage : Nat → Except PageFault (Nat × List UInt8)

def pageFetchMaxAttempts : Nat := 3

/-- The loop of `fetchPageWithRetry` with `left` attempts left. -/
def fetchPageLoop (env : FetchAttempts) (pageSize pgno : Nat) :
    (left : Nat) → (lastErr : Option PageFault) → Except ReadError (List UInt8)
  | 0, lastErr => .error (.fetchPageBusy pgno lastErr)
  | left + 1, _ =>
    let attempt := pageFetchMaxAttempts - (left + 1)
    match env.ctxErr attempt with
    | some e => .error (.context e)
    | none =>
      match env.fetchPage attempt with
      | .error e =>
        if isRetryablePageError e then fetchPageLoop env pageSize pgno left (some e)
        else .error (.fetchPage pgno e)
      | .ok (got, data) =>
        if got ≠ pgno then .error (.pageNumberMismatch pgno got)
        else if data.length ≠ pageSize then .error (.pageSizeMismatch pageSize data.length)
        else .ok data

def fetchPageWithRetry (env : FetchAttempts) (pageSize pgno : Nat) :
    Except ReadError (List UInt8) :=
  fetchPageLoop env pageSize pgno pageFetchMaxAttempts none

/-! ## Reading -/

/-- A `ReadAt` call between two pages: `data` is what it has copied so far. -/
structure ReadCall where
  len : Nat
  start : Nat
  generation : Nat
  pageSize : Nat
  size : Nat
  data : List UInt8 := []
  deriving DecidableEq, Repr

namespace ReadCall

def total (c : ReadCall) : Nat := c.data.length

def off (c : ReadCall) : Nat := c.start + c.total

def pgno (c : ReadCall) : Nat := c.off / c.pageSize + 1

def pageOff (c : ReadCall) : Nat := c.off % c.pageSize

end ReadCall

inductive ReadPhase
  /-- at the head of the loop -/
  | loop (c : ReadCall)
  /-- the page is not cached, its index entry was read -/
  | missed (c : ReadCall) (elem : PageIndexElem)
  /-- the page was fetched -/
  | fetched (c : ReadCall) (elem : PageIndexElem) (data : List UInt8)
  /-- `page` returned -/
  | page (c : ReadCall) (data : List UInt8)
  /-- `ReadAt` returned the bytes from `start` on and an error -/
  | done (start : Nat) (data : List UInt8) (err : Option ReadError)
  deriving DecidableEq, Repr

/-- A read that returns what it has copied with an error. -/
def ReadCall.fail (c : ReadCall) (e : ReadError) : ReadPhase := .done c.start c.data (some e)

variable {C : PageCache}

namespace ReplicaFile

/-- The first section of `ReadAt`. -/
def readAt (f : ReplicaFile C) (len off : Nat) : ReadPhase :=
  if len = 0 then .done off [] none
  else if off ≥ f.commit * f.pageSize then .done off [] (some .eof)
  else
    .loop { len, start := off, generation := f.visibleGeneration, pageSize := f.pageSize,
            size := f.commit * f.pageSize }

/-- The first section of `page`. -/
def lookupPage (f : ReplicaFile C) (c : ReadCall) : ReplicaFile C × ReadPhase :=
  if c.generation ≠ f.visibleGeneration then (f, c.fail .snapshotChanged)
  else
    match C.get f.cache c.pgno with
    | (some data, cache) => ({ f with cache }, .page c data)
    | (none, _) =>
      match f.index[c.pgno]? with
      | none => (f, c.fail (.pageNotFound c.pgno))
      | some elem => (f, .missed c elem)

/-- The fetch of `page`, between its two sections. -/
def fetchPage (env : FetchAttempts) (c : ReadCall) (elem : PageIndexElem) : ReadPhase :=
  match fetchPageWithRetry env c.pageSize c.pgno with
  | .error e => c.fail e
  | .ok data => .fetched c elem data

/-- The last section of `page`. -/
def insertPage (f : ReplicaFile C) (c : ReadCall) (elem : PageIndexElem) (data : List UInt8) :
    ReplicaFile C × ReadPhase :=
  if c.generation ≠ f.visibleGeneration then (f, c.fail .snapshotChangedDuringFetch)
  else if f.index[c.pgno]? ≠ some elem then (f, c.fail .indexChanged)
  else
    match C.get f.cache c.pgno with
    | (some cached, cache) => ({ f with cache }, .page c cached)
    | (none, _) => ({ f with cache := C.add f.cache c.pgno data }, .page c data)

end ReplicaFile

/-- The bytes 18, 19 and 24 to 27 of the database header as readers are shown them: rollback
journal mode, and a change counter of random bytes. -/
def pretendRollbackJournal (chunk : List UInt8) (r : UInt8 × UInt8 × UInt8 × UInt8) : List UInt8 :=
  (((((chunk.set 18 1).set 19 1).set 24 r.1).set 25 r.2.1).set 26 r.2.2.1).set 27 r.2.2.2

/-- The rest of the loop's body after the check of the generation; `rand` is what `rand.Read`
yields. -/
def ReadCall.copyPage (c : ReadCall) (page : List UInt8)
    (rand : Option (UInt8 × UInt8 × UInt8 × UInt8)) : ReadPhase :=
  let chunk := (page.drop c.pageOff).take (c.len - c.total)
  let next (chunk : List UInt8) : ReadPhase :=
    let c := { c with data := c.data ++ chunk }
    if c.total < c.len ∧ c.off < c.size then .loop c
    else if c.total < c.len then c.fail .eof
    else .done c.start c.data none
  if c.off = 0 ∧ c.total = 0 ∧ chunk.length ≥ 28 then
    match rand with
    | none => .done c.start [] (some .changeCounter)
    | some r => next (pretendRollbackJournal chunk r)
  else next chunk

/-- The section that checks the generation, and the copy after it. -/
def ReplicaFile.checkPage (f : ReplicaFile C) (c : ReadCall) (page : List UInt8)
    (rand : Option (UInt8 × UInt8 × UInt8 × UInt8)) : ReadPhase :=
  if f.visibleGeneration ≠ c.generation then c.fail .snapshotChangedDuringRead
  else c.copyPage page rand

end Litestream
