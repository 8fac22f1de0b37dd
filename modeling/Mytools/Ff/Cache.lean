import Mytools.Lib.Form

/-!
# The feed cache

`CacheMiddleware` of the feed filter and the handler that it wraps. A request is answered from the
cache file of its query parameters when there is one and the upstream does not contradict it, and by
the wrapped handler otherwise. What the middleware meets outside of itself while it answers one
request (the upstream's answers, the wrapped handler, the file system) is an `Outside`.
-/

namespace Ff

open Lib

/-! ## Requests and answers -/

/-- Nanoseconds. -/
abbrev Time := Int

inductive Method
  | get
  | head
  | other (name : Bytes)
deriving DecidableEq

/-- A request without conditional or range headers; `query` is `r.URL.Query()`. -/
structure Request where
  method : Method
  path : Bytes
  query : Form.Values

/-- What is written to the `http.ResponseWriter`. -/
structure Response where
  status : Nat
  contentType : Option String
  body : Bytes
deriving DecidableEq

/-- The calls of a handler on its `http.ResponseWriter`: at most one status, then the writes. -/
structure Answer where
  header : Option Nat
  writes : List Bytes

namespace Answer

def status (a : Answer) : Nat := a.header.getD 200

def body (a : Answer) : Bytes := a.writes.flatten

end Answer

/-- `queries["url"]` -/
def upstreamURLs (queries : Form.Values) : List Bytes :=
  (queries.get? (Bytes.ofString "url")).getD []

/-- `http.Error` -/
def httpError (text : String) (code : Nat) : Response :=
  ⟨code, some "text/plain; charset=utf-8", Bytes.ofString text ++ [10]⟩

/-! ## The wrapped handler -/

/-- What `createHandler` calls: `ParseURLWithContext` of the feed parser, `parseQueries` with
`Apply`, and `Convert` with `ToRss`. Errors are the texts they print as. -/
structure Feeds (Feed : Type) where
  parseURL : Bytes → Except Bytes Feed
  apply : Form.Values → Feed → Except Bytes Feed
  toRss : Feed → Except Bytes Bytes

def parseAndValidateURL (r : Request) : Except Bytes Bytes :=
  match r.query.get? (Bytes.ofString "url") with
  | none => .error (Bytes.ofString "must set URL")
  | some [u] => .ok u
  | some _ => .error (Bytes.ofString "cannot set multiple URL")

def createHandler {Feed : Type} (F : Feeds Feed) (r : Request) : Answer :=
  match r.method with
  | .other _ => ⟨some 405, []⟩
  | method =>
    match parseAndValidateURL r with
    | .error err => ⟨some 400, [err]⟩
    | .ok u =>
      match F.parseURL u with
      | .error err => ⟨some 400, [Bytes.ofString "ParseURL Error: " ++ err ++ [10]]⟩
      | .ok originFeed =>
        match F.apply r.query originFeed with
        | .error err => ⟨some 500, [err ++ [10]]⟩
        | .ok filteredFeed =>
          match F.toRss filteredFeed with
          | .error err => ⟨some 500, [err ++ [10]]⟩
          | .ok rss => ⟨some 200, if method = .head then [] else [rss ++ [10]]⟩

/-! ## The state and what is outside of it -/

structure File where
  body : Bytes
  modTime : Time
deriving DecidableEq

/-- The cache directory, by file name, and the ETags, by cache key. -/
structure CacheMiddleware where
  files : Table Bytes File
  etags : Table Bytes Bytes

/-- The answer to a HEAD request. `etag` is empty without the header; `lastModified` is there when
`http.ParseTime` reads the header. -/
structure Head where
  status : Nat
  etag : Bytes
  lastModified : Option Time

/-- How `os.WriteFile` ends: with all of the data in the file, without having opened the file, or
after some bytes of the data. -/
inductive Write
  | done
  | refused
  | cut (n : Nat)
deriving DecidableEq

/-- What one request meets, and when. A HEAD request that cannot be made or fails has no answer. -/
structure Outside where
  /-- The HEAD request of `IsCacheFresh`, by URL and `If-None-Match` (empty when it is not set). -/
  validate : Bytes → Bytes → Option Head
  validateAt : Time
  /-- `os.Remove` succeeds. -/
  removes : Bool
  /-- The wrapped handler. -/
  next : Request → Answer
  nextAt : Time
  /-- The HEAD request of `captureAndStoreETag`, by URL. -/
  capture : Bytes → Option Head
  captureAt : Time
  write : Write
  writeAt : Time

/-- Where an answer comes from. -/
inductive Origin
  | passed
  | generated
  | file
deriving DecidableEq

structure Reply where
  origin : Origin
  response : Response

/-! ## The recorder -/

structure ResponseRecorder where
  statusCode : Nat := 200
  body : Bytes := []

namespace ResponseRecorder

def write (r : ResponseRecorder) (data : Bytes) : ResponseRecorder :=
  { r with body := r.body ++ data }

def writeHeader (r : ResponseRecorder) (statusCode : Nat) : ResponseRecorder :=
  { r with statusCode := statusCode }

/-- The recorder after the calls of a handler. -/
def record (a : Answer) : ResponseRecorder :=
  a.writes.foldl write (a.header.elim {} (writeHeader {}))

theorem foldl_write : ∀ (writes : List Bytes) (r : ResponseRecorder),
    writes.foldl write r = ⟨r.statusCode, r.body ++ writes.flatten⟩
  | [], r => by simp
  | data :: writes, r => by
    rw [List.foldl_cons, foldl_write writes (r.write data)]
    simp [write]

/-- The recorder has what the handler answered. -/
theorem record_eq (a : Answer) : record a = ⟨a.status, a.body⟩ := by
  rw [record, foldl_write]
  cases h : a.header <;> simp [Answer.status, Answer.body, writeHeader, h]

end ResponseRecorder

/-! ## The file server -/

/-- `containsDotDot` of `net/http`: an element of the path is `..`. -/
def containsDotDot (path : Bytes) : Bool :=
  (path.splitOnP fun b => b == 47 || b == 92).contains [46, 46]

/-- The path ends in `/index.html`. -/
def isIndexPage (path : Bytes) : Bool := (Bytes.ofString "/index.html").isSuffixOf path

/-- `http.ServeFileFS` of a file that is there. -/
def serveFileFS (r : Request) (contentType : String) (f : File) : Response :=
  if containsDotDot r.path then httpError "invalid URL path" 400
  else if isIndexPage r.path then ⟨301, some contentType, []⟩
  else ⟨200, some contentType, if r.method = .head then [] else f.body⟩

/-! ## The middleware -/

def hexByte (n : Nat) : UInt8 := UInt8.ofNat (hexDigit n).toNat

/-- `%x` of bytes. -/
def hex (s : Bytes) : Bytes := s.flatMap fun b => [hexByte (b.toNat / 16), hexByte (b.toNat % 16)]

section

-- SHA-256
variable (sum256 : Bytes → Bytes)

def getCacheKey (params : Form.Values) : Bytes :=
  hex (sum256 (Form.encode params)) ++ Bytes.ofString ".rss"

end

/-- The content type of every answer with a feed. -/
def rssContentType : String := "application/rss+xml; charset=utf-8"

/-- The file that `os.WriteFile` leaves, if it opens it. -/
def Outside.writeFile (o : Outside) (body : Bytes) : Option File :=
  match o.write with
  | .done => some ⟨body, o.writeAt⟩
  | .refused => none
  | .cut n => some ⟨body.take n, o.writeAt⟩

namespace CacheMiddleware

/-- `NewCacheMiddleware` with an empty cache directory. -/
def empty : CacheMiddleware := ⟨Table.empty, Table.empty⟩

def getStoredETag (c : CacheMiddleware) (cacheKey : Bytes) : Bytes :=
  (c.etags.get? cacheKey).getD []

def storeETag (c : CacheMiddleware) (cacheKey etag : Bytes) : CacheMiddleware :=
  if etag = [] then c else { c with etags := c.etags.set cacheKey etag }

def removeETag (c : CacheMiddleware) (cacheKey : Bytes) : CacheMiddleware :=
  { c with etags := c.etags.erase cacheKey }

/-- `os.Remove` of a cache file, whose error is ignored. -/
def removeFile (c : CacheMiddleware) (o : Outside) (cacheKey : Bytes) : CacheMiddleware :=
  { c with files := if o.removes then c.files.erase cacheKey else c.files }

def isCacheFresh (c : CacheMiddleware) (o : Outside) (upstreamURL cacheKey : Bytes)
    (cacheTime : Time) : Bool :=
  let storedETag := c.getStoredETag cacheKey
  match o.validate upstreamURL storedETag with
  | none => true
  | some resp =>
    if resp.status = 304 then true
    else if resp.etag ≠ [] ∧ storedETag ≠ [] then resp.etag = storedETag
    else
      match resp.lastModified with
      | some lastModTime => lastModTime ≤ cacheTime
      | none => false

def captureAndStoreETag (c : CacheMiddleware) (o : Outside) (upstreamURL cacheKey : Bytes) :
    CacheMiddleware :=
  match o.capture upstreamURL with
  | none => c
  | some resp => c.storeETag cacheKey resp.etag

/-- The error of `writeToCache` is told by the second component. -/
def writeToCache (c : CacheMiddleware) (o : Outside) (recorder : ResponseRecorder)
    (cacheKey : Bytes) : CacheMiddleware × Bool :=
  if recorder.body = [] then (c, false)
  else
    match o.writeFile recorder.body with
    | none => (c, false)
    | some f => ({ c with files := c.files.set cacheKey f }, o.write = .done)

/-- The request that the wrapped handler gets for a cached one. -/
def getReq (r : Request) : Request := if r.method = .head then { r with method := .get } else r

/-- The ETag of the first upstream URL is captured, if there is one. -/
def captureUpstream (c : CacheMiddleware) (o : Outside) (queries : Form.Values) (cacheKey : Bytes) :
    CacheMiddleware :=
  match upstreamURLs queries with
  | [] => c
  | upstreamURL :: _ => c.captureAndStoreETag o upstreamURL cacheKey

def generateAndCacheResponse (c : CacheMiddleware) (o : Outside) (r : Request) (cacheKey : Bytes) :
    CacheMiddleware × Reply :=
  let recorder := ResponseRecorder.record (o.next (getReq r))
  let (c, ok) := (c.captureUpstream o r.query cacheKey).writeToCache o recorder cacheKey
  if !ok then (c, ⟨.generated, httpError "Failed to cache response" 500⟩)
  else
    let body := if r.method = .head then [] else recorder.body
    (c, ⟨.generated, ⟨recorder.statusCode, some rssContentType, body⟩⟩)

def serveFileWithCharset (c : CacheMiddleware) (r : Request) (f : File) : CacheMiddleware × Reply :=
  (c, ⟨.file, serveFileFS r rssContentType f⟩)

def serveHTTP (sum256 : Bytes → Bytes) (c : CacheMiddleware) (o : Outside) (r : Request) :
    CacheMiddleware × Reply :=
  match r.method with
  | .other _ => (c, ⟨.passed, ⟨(o.next r).status, none, (o.next r).body⟩⟩)
  | _ =>
    let cacheKey := getCacheKey sum256 r.query
    match c.files.get? cacheKey with
    | none => c.generateAndCacheResponse o r cacheKey
    | some stat =>
      match upstreamURLs r.query with
      | [] => c.serveFileWithCharset r stat
      | upstreamURL :: _ =>
        if !c.isCacheFresh o upstreamURL cacheKey stat.modTime then
          ((c.removeFile o cacheKey).removeETag cacheKey).generateAndCacheResponse o r cacheKey
        else c.serveFileWithCharset r stat

end CacheMiddleware

end Ff
