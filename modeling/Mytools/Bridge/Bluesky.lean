import Mytools.Bridge.NostrMap
import Mytools.Bridge.StoreOps

/-!
# The Bluesky syncer (`syncer.go`, `jetstream.go`)

`Decode` and `Handle`: a Jetstream message becomes a repository operation, and the operation
becomes at most one write of the store. `encoding/json` and SHA-256 are parameters (`Codec`). A
call reads the clock twice, for the time of a deletion and for the time of the requests (`Clock`).
-/

namespace Bridge.Bluesky

open Lib

/-! ## Jetstream messages -/

def postCollection : String := "app.bsky.feed.post"
def repostCollection : String := "app.bsky.feed.repost"
def jetstreamCursor : String := "jetstream_time_us"

/-- `Operation` is a string; `other` is any other text. -/
inductive Operation
  | create
  | update
  | delete
  | other (name : String)
  deriving DecidableEq, Repr

structure Event where
  did : String
  collection : String
  rkey : String
  cid : String := ""
  operation : Operation
  timeUS : Int
  record : String := ""
  deriving DecidableEq, Repr

def recordURI (did collection rkey : String) : String :=
  "at://" ++ did ++ "/" ++ collection ++ "/" ++ rkey

def Event.uri (e : Event) : String := recordURI e.did e.collection e.rkey

/-! ## Records -/

structure ImageSource where
  alt : String
  link : String
  mimeType : String
  aspectRatio : Option (Int × Int)
  deriving DecidableEq, Repr

/-- `imageEmbed`, without and with `Media`. -/
inductive ImageEmbed
  | plain (images : List ImageSource) (external : String)
  | withMedia (images : List ImageSource) (external : String) (media : ImageEmbed)
  deriving DecidableEq, Repr

structure Feature where
  type : String
  uri : String
  deriving DecidableEq, Repr

/-- The record as `publishRecord` decodes it; a facet is the list of its features. -/
structure Record where
  text : String
  /-- Nanoseconds since the epoch. -/
  createdAt : Int
  /-- The URI of the parent, if there is a reply. -/
  reply : Option String
  subject : String
  embed : ImageEmbed
  facets : List (List Feature)
  deriving DecidableEq, Repr

/-- The message as `Decode` decodes it. -/
structure Envelope where
  did : String
  timeUS : Int
  operation : Operation
  collection : String
  rkey : String
  cid : String
  record : String
  deriving DecidableEq, Repr

structure Codec where
  /-- `json.Unmarshal` of a message. -/
  envelope : String → Option Envelope
  /-- `json.Unmarshal` of a record. -/
  record : String → Option Record
  /-- SHA-256, in hexadecimal. -/
  sha256 : String → String

def externalURI : ImageEmbed → String
  | .plain _ external => external
  | .withMedia _ external media => if external ≠ "" then external else externalURI media

/-- `unicode.ToLower`, as far as its result is an ASCII letter. -/
def lower (c : Char) : Char :=
  if c.toNat = 0x130 then 'i' else if c.toNat = 0x212a then 'k' else c.toLower

def imageExtension (mimeType : String) : String :=
  let name := String.ofList (mimeType.toList.map lower)
  if name = "image/jpeg" then "jpeg"
  else if name = "image/png" then "png"
  else if name = "image/webp" then "webp"
  else if name = "image/gif" then "gif"
  else ""

/-- The image of one source, already as an attachment (`blueskyAttachments`). -/
def jetstreamImage (did : String) (source : ImageSource) : Option Attachment :=
  let extension := imageExtension source.mimeType
  if source.link = "" ∨ extension = "" then none
  else some
    { url := "https://cdn.bsky.app/img/feed_fullsize/plain/" ++ did ++ "/" ++ source.link ++ "@" ++
        extension
      mimeType := source.mimeType
      description := source.alt
      width := (source.aspectRatio.map (·.1)).getD 0
      height := (source.aspectRatio.map (·.2)).getD 0 }

def jetstreamImages (did : String) : ImageEmbed → List Attachment
  | .plain images _ => images.filterMap (jetstreamImage did)
  | .withMedia _ _ media => jetstreamImages did media

/-- `LinksFromFacetsAndExternal`, already as links of a post (`blueskyLinks`). -/
def linksFromFacetsAndExternal (facets : List (List Feature)) (externalURI : String) : List Link :=
  (facets.flatten.filterMap fun f =>
      if f.type = "app.bsky.richtext.facet#link" ∧ f.uri ≠ "" then some ⟨f.uri⟩ else none) ++
    if externalURI ≠ "" then [⟨externalURI⟩] else []

/-- What is published of a record: of one that Jetstream sent, or of a post of the timeline. -/
structure Content where
  text : String
  createdAt : Int
  /-- The URI of the parent; empty if there is none. -/
  replyTo : String
  images : List Attachment
  links : List Link
  deriving DecidableEq, Repr

def Record.content (did : String) (r : Record) : Content where
  text := r.text
  createdAt := r.createdAt
  replyTo := r.reply.getD ""
  images := jetstreamImages did r.embed
  links := linksFromFacetsAndExternal r.facets (externalURI r.embed)

/-! ## The syncer -/

inductive HandleErr
  | decodeMessage
  | missingCommitIdentity
  | decodeRecord
  | noSubject
  | invalidPostURI (uri : String)
  | invalidParentMapping
  | invalidMappedID
  | noSourceEvent
  | unsupportedOperation
  | map (e : MapErr)
  | store (e : StoreErr)
  deriving DecidableEq, Repr

/-- The options of a `Syncer` after `New`; `targets` is `none` if nothing is filtered. -/
structure Syncer where
  scope : SourceScope
  outboxLimit : Int
  masterSeed : List UInt8
  targets : Option (List String)
  /-- In nanoseconds. -/
  rewind : Int

/-- What `nostr.Now` and `time.Now` yield during one call. -/
structure Clock where
  signed : Int
  queued : Int

def Envelope.event (v : Envelope) : Event :=
  ⟨v.did, v.collection, v.rkey, v.cid, v.operation, v.timeUS, v.record⟩

def decode (C : Codec) (message : String) : Except HandleErr Event :=
  match C.envelope message with
  | none => .error .decodeMessage
  | some v =>
    if v.did = "" ∨ v.collection = "" ∨ v.rkey = "" then .error .missingCommitIdentity
    else .ok v.event

/-- `fmt.Sprint` of an integer. -/
def sprint (n : Int) : String := toString n

def Event.updateIdentity (C : Codec) (e : Event) : String :=
  if e.cid ≠ "" then "cid:" ++ e.cid
  else "time-us:" ++ sprint e.timeUS ++ ":record:" ++ C.sha256 e.record

/-- `blueskyPostURL` -/
def blueskyPostURL (uri : String) : Except HandleErr String :=
  if "at://".toList.isPrefixOf uri.toList then
    match (uri.toList.drop 5).splitOn '/' with
    | [did, collection, rkey] =>
      if did ≠ [] ∧ String.ofList collection = postCollection ∧ rkey ≠ [] then
        .ok ("https://bsky.app/profile/" ++ String.ofList did ++ "/post/" ++ String.ofList rkey)
      else .error (.invalidPostURI uri)
    | _ => .error (.invalidPostURI uri)
  else .error (.invalidPostURI uri)

namespace Syncer

variable (N : Nostr.Library) (C : Codec) (s : Syncer)

def ref (uri : String) : SourceRef := ⟨s.scope, uri⟩

def limit : Int := if s.outboxLimit ≤ 0 then 10000 else s.outboxLimit

def isTarget (did : String) : Bool :=
  match s.targets with
  | none => true
  | some targets => did ∈ targets

def cursorUpdate (timeUS : Int) : Option CursorUpdate :=
  if timeUS > 0 then some ⟨jetstreamCursor, sprint timeUS⟩ else none

/-- `SaveCursor` if the event has a time. -/
def saveTime (db : DB) (timeUS : Int) : DB := saveOptionalCursor db s.scope (cursorUpdate timeUS)

/-- The post that the syncer makes of a content; `uri` names it, and its URL is `sourceURL`. -/
def post (did uri sourceURL : String) (c : Content) : Post where
  id := uri
  author := ⟨"bluesky", did⟩
  sourceURL
  text := c.text
  replyToID := c.replyTo
  createdAt := c.createdAt
  attachments := c.images
  links := c.links

/-- The mapped parent of a reply. -/
def parents (db : DB) (replyTo : String) : Except HandleErr (List (String × Nostr.Event)) :=
  if replyTo = "" then .ok []
  else
    match SQLiteStore.eventMappingBySourceURI db (s.ref replyTo) with
    | none => .ok []
    | some parent =>
      match N.idFromHex parent.nostrEventID, N.pubKeyFromHex parent.authorPubKey with
      | some id, some pubKey => .ok [(replyTo, { id, pubKey, createdAt := 0, kind := 0 })]
      | _, _ => .error .invalidParentMapping

/-- The mapping of a source to a published event. -/
def mapping (uri : String) (e : Nostr.Event) (now : Int) : EventMapping where
  source := s.ref uri
  nostrEventID := e.id
  sourceKind := postCollection
  authorPubKey := e.pubKey
  updatedAt := unix now

/-- The request of `enqueueMappedEvent`. -/
def eventRequest (clock : Clock) (sourceURI : String) (event : Nostr.Event) (timeUS : Int)
    (sourceOperation : String) : EventEnqueueRequest where
  mapping := s.mapping sourceURI event clock.queued
  event := publishRequest event.pubKey (N.marshal event) clock.queued
  limit := s.limit
  cursor := cursorUpdate timeUS
  sourceOperation

def enqueueMappedEvent (db : DB) (clock : Clock) (sourceURI : String) (event : Nostr.Event)
    (timeUS : Int) (sourceOperation : String) : Except HandleErr DB :=
  (SQLiteStore.enqueueEvent N db
    (s.eventRequest N clock sourceURI event timeUS sourceOperation)).mapError .store

/-- `publishPost`; `mappedURI` names the post. -/
def publishPost (db : DB) (clock : Clock) (sourceURI did mappedURI : String) (c : Content)
    (timeUS : Int) (sourceOperation : String) : Except HandleErr DB :=
  match SQLiteStore.eventMappingBySourceURI db (s.ref sourceURI) with
  | some _ => .ok db
  | none => do
    let parents ← s.parents N db c.replyTo
    let sourceURL ← blueskyPostURL mappedURI
    let event ← (postEvent N s.masterSeed (post did mappedURI sourceURL c) parents).mapError .map
    s.enqueueMappedEvent N db clock sourceURI event timeUS sourceOperation

/-- The request of `enqueueReplacement`. -/
def updateRequest (clock : Clock) (source : Event) (deletion replacement : Nostr.Event) :
    UpdateEnqueueRequest where
  mapping := s.mapping source.uri replacement clock.queued
  deletion := publishRequest replacement.pubKey (N.marshal deletion) clock.queued
  replacement := publishRequest replacement.pubKey (N.marshal replacement) clock.queued
  sourceOperation := source.updateIdentity C
  limit := s.limit
  cursor := cursorUpdate source.timeUS

def enqueueReplacement (db : DB) (clock : Clock) (source : Event) (mappedURI : String)
    (c : Content) : Except HandleErr DB :=
  match SQLiteStore.eventMappingBySourceURI db (s.ref source.uri) with
  | none => .error .noSourceEvent
  | some old => do
    let key ← (deriveKey N s.masterSeed source.did).mapError .map
    match N.idFromHex old.nostrEventID with
    | none => throw .invalidMappedID
    | some oldID =>
      let deletion ← (signedEvent N key
        (deletionOf oldID "source record replaced" clock.signed)).mapError .map
      let sourceURL ← blueskyPostURL mappedURI
      let replacement ← (postEvent N s.masterSeed (post source.did mappedURI sourceURL c)
        []).mapError .map
      (SQLiteStore.enqueueUpdate N db
        (s.updateRequest N C clock source deletion replacement)).mapError .store

/-- The URI of the post that a record publishes. -/
def mappedURI (e : Event) (r : Record) : Except HandleErr String :=
  if e.collection = repostCollection then
    if r.subject = "" then .error .noSubject else .ok r.subject
  else .ok e.uri

def publishRecord (db : DB) (clock : Clock) (e : Event) : Except HandleErr DB :=
  match C.record e.record with
  | none => .error .decodeRecord
  | some r => do
    let uri ← mappedURI e r
    if e.operation = .update then s.enqueueReplacement N C db clock e uri (r.content e.did)
    else s.publishPost N db clock e.uri e.did uri (r.content e.did) e.timeUS ""

/-- The request of `deleteSource`. -/
def deleteRequest (clock : Clock) (e : Event) (deletion : Nostr.Event) : DeleteEnqueueRequest where
  source := s.ref e.uri
  event := publishRequest deletion.pubKey (N.marshal deletion) clock.queued
  limit := s.limit
  cursor := cursorUpdate e.timeUS

def deleteSource (db : DB) (clock : Clock) (e : Event) : Except HandleErr DB :=
  match SQLiteStore.eventMappingBySourceURI db (s.ref e.uri) with
  | none => .ok (s.saveTime db e.timeUS)
  | some persisted => do
    let key ← (deriveKey N s.masterSeed e.did).mapError .map
    match N.idFromHex persisted.nostrEventID with
    | none => throw .invalidMappedID
    | some id =>
      let deletion ← (signedEvent N key
        (deletionOf id "source record deleted" clock.signed)).mapError .map
      (SQLiteStore.enqueueDelete N db (s.deleteRequest N clock e deletion)).mapError .store

/-- `Handle` -/
def handle (db : DB) (clock : Clock) (e : Event) : Except HandleErr DB :=
  if e.collection ≠ postCollection ∧ e.collection ≠ repostCollection then .ok db
  else if s.isTarget e.did = false then .ok db
  else
    match e.operation with
    | .create =>
      match SQLiteStore.eventMappingBySourceURI db (s.ref e.uri) with
      | some _ => .ok (s.saveTime db e.timeUS)
      | none => s.publishRecord N C db clock e
    | .update =>
      if SQLiteStore.sourceOperationBySourceURI db (s.ref e.uri) = some (e.updateIdentity C) then
        .ok (s.saveTime db e.timeUS)
      else s.publishRecord N C db clock e
    | .delete => s.deleteSource N db clock e
    | .other _ => .error .unsupportedOperation

/-- One post of the timeline in `Backfill`. -/
def backfillPost (db : DB) (clock : Clock) (uri did : String) (c : Content) :
    Except HandleErr DB :=
  if s.isTarget did then s.publishPost N db clock uri did uri c 0 "" else .ok db

/-- One round of `consume`: `Decode`, then `Handle`. -/
def consume (db : DB) (clock : Clock) (message : String) : Except HandleErr DB := do
  let e ← decode C message
  s.handle N C db clock e

/-! ## Subscriptions -/

/-- The query of the URL that `Subscription` returns. -/
structure Subscription where
  wantedDids : List String
  wantedCollections : List String
  cursor : Option Int
  deriving DecidableEq, Repr

inductive SubscriptionErr
  | noTargets
  | parseCursor
  deriving DecidableEq, Repr

def parseDigits (cs : List Char) : Option Nat :=
  if cs ≠ [] ∧ cs.all Char.isDigit then some (Nat.ofDigitChars 10 cs 0) else none

/-- `strconv.ParseInt`, in base 10 and for 64 bits. -/
def parseInt (s : String) : Option Int :=
  let value : Option Int :=
    match s.toList with
    | '-' :: cs => (parseDigits cs).map fun n => -(n : Int)
    | '+' :: cs => (parseDigits cs).map fun n => (n : Int)
    | cs => (parseDigits cs).map fun n => (n : Int)
  value.filter fun n => -2 ^ 63 ≤ n ∧ n < 2 ^ 63

/-- The cursor that is stored; 0 if there is none. -/
def storedCursor (db : DB) : Except SubscriptionErr Int :=
  match SQLiteStore.cursor db s.scope jetstreamCursor with
  | none => .ok 0
  | some raw =>
    if raw = "" then .ok 0
    else
      match parseInt raw with
      | none => .error .parseCursor
      | some cursor => .ok cursor

/-- `Subscription`, up to the URL of the endpoint. -/
def subscription (db : DB) : Except SubscriptionErr Subscription := do
  let targets := s.targets.getD []
  require (targets ≠ []) .noTargets
  let cursor ← s.storedCursor db
  pure
    { wantedDids := targets.eraseDups.insertionSort (· ≤ ·)
      wantedCollections := [postCollection, repostCollection]
      cursor := if cursor > 0 then some (max 0 (cursor - s.rewind / 1000)) else none }

end Syncer

end Bridge.Bluesky
