import Mytools.Bridge.Nostr
import Mytools.Lib.Clock
import Mytools.Lib.Result
import Mytools.Lib.Table
import Mytools.Lib.Text

/-!
# Management authorization (`nostr-relay/nip98.go`)

`NIP98Validator.validate` checks the event that a request carries in its `Authorization` header, and
records it in the table `nip98_seen_events`. The parsers and the hash of the standard library that
the checks go through are parameters (`Web`).
-/

namespace Relay

open Lib

/-- The parts of a `url.URL` that the validator reads. -/
structure URL where
  scheme : String
  host : String
  hasUser : Bool
  fragment : String
  escapedPath : String
  rawQuery : String
  requestURI : String
  /-- `URL.String` -/
  text : String
  deriving DecidableEq, Repr

def URL.isAbs (u : URL) : Bool := u.scheme ≠ ""

/-- The parts of a `http.Request` that the validator reads. -/
structure Request where
  /-- The values of the `Authorization` header. -/
  authorizations : List String
  method : String
  url : URL
  host : String
  tls : Bool
  deriving DecidableEq, Repr

structure Web where
  /-- `base64.StdEncoding.DecodeString` -/
  base64 : String → Option (List UInt8)
  /-- `json.Unmarshal` into an event. -/
  unmarshal : List UInt8 → Option Nostr.Event
  /-- `url.Parse` -/
  parseURL : String → Option URL
  /-- `sha256.Sum256` -/
  sha256 : List UInt8 → List UInt8
  /-- `hex.DecodeString` -/
  hex : String → Option (List UInt8)

structure NIP98Validator where
  adminPubKey : String
  expectedURL : String
  maxSkew : Int
  hasReplayStore : Bool := true
  deriving DecidableEq, Repr

/-- The table `nip98_seen_events`: the second at which an event was accepted. -/
abbrev SeenEvents := Table String Int

def nip98Kind : Nat := 27235

/-! ## Parts of the request -/

/-- The value of the last tag with the name, the number of such tags added to `count`. -/
def scanNIP98Tag (name : String) :
    List (List String) → (value : String) → (count : Nat) → Except String (String × Nat)
  | [], value, count => .ok (value, count)
  | tag :: tags, value, count =>
    if tag.head? ≠ some name then scanNIP98Tag name tags value count
    else match tag with
      | [_, v] =>
        if v = "" then .error "malformed NIP-98 tag" else scanNIP98Tag name tags v (count + 1)
      | _ => .error "malformed NIP-98 tag"

def singleNIP98Tag (tags : List (List String)) (name : String) : Except String String := do
  let (value, count) ← scanNIP98Tag name tags "" 0
  require (count = 1) "missing or duplicate NIP-98 tag"
  pure value

variable (N : Nostr.Library) (W : Web)

def absoluteNIP98URL (raw : String) : Except String String :=
  match W.parseURL raw with
  | none => .error "not an absolute HTTP URL"
  | some u =>
    if !u.isAbs || u.host = "" || u.hasUser || u.fragment ≠ "" then
      .error "not an absolute HTTP URL"
    else if u.scheme ≠ "http" ∧ u.scheme ≠ "https" then .error "not an HTTP URL"
    else .ok u.text

def absoluteNIP98RequestURL (r : Request) : Except String String :=
  if r.url.isAbs then absoluteNIP98URL W r.url.text
  else
    absoluteNIP98URL W ((if r.tls then "https" else "http") ++ "://" ++ r.host ++ r.url.requestURI)

def nip98RequestTargetMatches (r : Request) (expectedURL : String) : Bool :=
  match W.parseURL expectedURL with
  | none => false
  | some expected =>
    let expectedPath := if expected.escapedPath = "" then "/" else expected.escapedPath
    let requestPath := if r.url.escapedPath = "" then "/" else r.url.escapedPath
    requestPath = expectedPath && r.url.rawQuery = expected.rawQuery

/-- The event in the `Authorization` header. -/
def authorizationEvent (r : Request) : Except String Nostr.Event :=
  match r.authorizations with
  | [authorization] =>
    let encoded := trimPrefix authorization "Nostr "
    if !hasPrefix authorization "Nostr " || encoded = "" ||
        [' ', '\t', '\r', '\n'].any (containsChar encoded) then
      .error "invalid NIP-98 authorization"
    else match W.base64 encoded with
      | none => .error "invalid NIP-98 authorization encoding"
      | some raw => match W.unmarshal raw with
        | none => .error "invalid NIP-98 authorization event"
        | some event => .ok event
  | _ => .error "invalid NIP-98 authorization"

/-! ## Validation -/

/-- `SQLiteStore.ConsumeNIP98Event`: the expired events go, the event is recorded. If it is there
already the transaction is rolled back. -/
def consumeNIP98Event (seen : SeenEvents) (id : String) (now retention : Int) :
    Except String SeenEvents :=
  let retention := if retention ≤ 0 then 60 * Clock.second else retention
  let seen := seen.filter fun _ seenAt => !(seenAt < Clock.unix (now - retention))
  if (seen.get? id).isSome then .error "NIP-98 authorization event already consumed"
  else .ok (seen.set id (Clock.unix now))

namespace NIP98Validator

variable (v : NIP98Validator)

def skew : Int := if v.maxSkew ≤ 0 then 60 * Clock.second else v.maxSkew

/-- The URL of the event is that of the request. -/
def checkURL (r : Request) (event : Nostr.Event) : Except String Unit := do
  let u ← singleNIP98Tag event.tags "u"
  let eventURL ← (absoluteNIP98URL W u).mapError fun _ => "invalid NIP-98 URL tag"
  if v.expectedURL = "" then
    match absoluteNIP98RequestURL W r with
    | .ok requestURL => require (eventURL = requestURL) "NIP-98 URL does not match request"
    | .error _ => .error "NIP-98 URL does not match request"
  else match absoluteNIP98URL W v.expectedURL with
    | .ok requestURL =>
      if !nip98RequestTargetMatches W r requestURL then
        .error "NIP-98 request target does not match configured URL"
      else require (eventURL = requestURL) "NIP-98 URL does not match request"
    | .error _ => .error "NIP-98 URL does not match request"

def checkMethod (r : Request) (event : Nostr.Event) : Except String Unit :=
  match singleNIP98Tag event.tags "method" with
  | .ok method => require (method = "POST" ∧ method = r.method) "invalid NIP-98 method tag"
  | .error _ => .error "invalid NIP-98 method tag"

def checkPayload (payload : List UInt8) (event : Nostr.Event) : Except String Unit := do
  let payloadTag ← singleNIP98Tag event.tags "payload"
  match W.hex payloadTag with
  | none => .error "NIP-98 payload does not match request"
  | some gotHash =>
    require (gotHash.length = 32 ∧ gotHash = W.sha256 payload)
      "NIP-98 payload does not match request"

/-- `Validate` at the instant `now`: the event that is accepted and the table after it. -/
def validate (r : Request) (payload : List UInt8) (now : Int) (seen : SeenEvents) :
    Except String (Nostr.Event × SeenEvents) := do
  let event ← authorizationEvent W r
  require (event.kind = nip98Kind) "invalid NIP-98 event kind"
  require (N.checkID event = true) "invalid NIP-98 event ID"
  require (N.verifySignature event = true) "invalid NIP-98 event signature"
  require (event.pubKey = v.adminPubKey) "NIP-98 signer is not the administrator"
  let skew := Clock.sub now (Clock.ofUnix event.createdAt)
  require (¬(v.skew < skew ∨ skew < -v.skew))
    "NIP-98 event timestamp is outside the allowed window"
  v.checkURL W r event
  checkMethod r event
  checkPayload W payload event
  if v.hasReplayStore then
    let seen ← (consumeNIP98Event seen event.id now (Clock.wrap (2 * v.skew))).mapError
      fun _ => "NIP-98 authorization event was already used"
    pure (event, seen)
  else pure (event, seen)

end NIP98Validator

/-! ## Runs -/

/-- A call of `Validate`. -/
structure Attempt where
  validator : NIP98Validator
  request : Request
  payload : List UInt8
  now : Int

/-- The IDs of the events that the calls accept, one call after the other. The table is in the
database, so that it survives a restart with another validator. -/
def accepted : SeenEvents → List Attempt → List String
  | _, [] => []
  | seen, a :: as =>
    match a.validator.validate N W a.request a.payload a.now seen with
    | .ok (event, seen') => event.id :: accepted seen' as
    | .error _ => accepted seen as

end Relay
