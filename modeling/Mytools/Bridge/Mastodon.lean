import Mytools.Bridge.Bluesky
import Mytools.Lib.Clock
import Mytools.Lib.Text

/-!
# The Mastodon client (`nostr-bridge/mastodon/client.go`)

The scanner of `Link` headers, whose texts are cut by their characters, and the requests that are
made again after a transient failure. A run of `getJSONPage` is described by what each of its
attempts meets and by the durations that it sleeps.
-/

namespace Bridge.Mastodon

open Lib

def doubleQuote : Char := Char.ofNat 34

/-! ## Pagination links -/

/-- The loop of `splitLinks`; `part` is what was scanned since the last comma. -/
def scanLinks : (rest part : List Char) → (quoted angled : Bool) → List (List Char)
  | [], part, _, _ => if trim isSpace part ≠ [] then [trim isSpace part] else []
  | c :: rest, part, quoted, angled =>
    if c = doubleQuote then
      scanLinks rest (part ++ [c]) (if angled then quoted else !quoted) angled
    else if c = '<' then scanLinks rest (part ++ [c]) quoted (if quoted then angled else true)
    else if c = '>' then scanLinks rest (part ++ [c]) quoted (if quoted then angled else false)
    else if c = ',' ∧ quoted = false ∧ angled = false then
      trim isSpace part :: scanLinks rest [] quoted angled
    else scanLinks rest (part ++ [c]) quoted angled

def splitLinks (header : List Char) : List (List Char) := scanLinks header [] false false

/-- A parameter, in the text between two semicolons, that is a `rel` with `next`. -/
def paramIsNext (param : List Char) : Bool :=
  let param := trim isSpace param
  match param.dropWhile (· ≠ '=') with
  | [] => false
  | _ :: value =>
    equalFold (param.takeWhile (· ≠ '=')) "rel" &&
      (fieldsOf (trim (· = doubleQuote) value)).any (equalFold · "next")

/-- The target of a part of the header, if it is the one of the next page. -/
def nextTarget (part : List Char) : Option (List Char) :=
  match part.findIdx? (· = '<'), part.findIdx? (· = '>') with
  | some left, some right =>
    if right ≤ left then none
    else if ((part.drop (right + 1)).splitOn ';').any paramIsNext then
      some ((part.take right).drop (left + 1))
    else none
  | _, _ => none

def nextLink (header : List Char) : List Char :=
  ((splitLinks header).findSome? nextTarget).getD []

/-! ## Requests -/

def isTransient (status : Nat) : Bool := status = 429 || 500 ≤ status

def retryDelay (attempt : Nat) : Int := ((2 ^ min attempt 5 : Nat) : Int) * Clock.second

/-- The delay that a response asks for; `parseTime` is `http.ParseTime`. -/
def retryAfter (parseTime : String → Option Int) (raw : String) (attempt : Nat) (now : Int) : Int :=
  let date :=
    match parseTime raw with
    | some t => if now < t then Clock.sub t now else retryDelay attempt
    | none => retryDelay attempt
  match Bluesky.Syncer.parseInt (trimSpace raw) with
  | some seconds => if 0 ≤ seconds then Clock.wrap (seconds * Clock.second) else date
  | none => date

/-- What a round of the loop of `getJSONPage` meets. -/
inductive Outcome
  | noToken
  | badRequest
  | transportError
  | response (status : Nat) (retryAfter link : String) (decoded : Bool)

structure Attempt where
  outcome : Outcome
  /-- The time when the response is there. -/
  now : Int
  /-- The context ends in the sleep after it. -/
  interrupted : Bool := false

inductive PageErr
  | token
  | request
  | failed
  | decode
  | rejected (status : Nat)
  | interrupted
  deriving DecidableEq, Repr

/-- What is returned, once it is, and the durations that were slept. -/
structure Page where
  result : Option (Except PageErr String)
  sleeps : List Int

def Page.after (d : Int) (p : Page) : Page := { p with sleeps := d :: p.sleeps }

def getJSONPage (parseTime : String → Option Int) (maxRetries : Int) :
    (attempt : Nat) → List Attempt → Page
  | _, [] => ⟨none, []⟩
  | attempt, a :: rest =>
    let retry (d : Int) : Page :=
      if a.interrupted then ⟨some (.error .interrupted), [d]⟩
      else (getJSONPage parseTime maxRetries (attempt + 1) rest).after d
    match a.outcome with
    | .noToken => ⟨some (.error .token), []⟩
    | .badRequest => ⟨some (.error .request), []⟩
    | .transportError =>
      if attempt < maxRetries then retry (retryDelay attempt) else ⟨some (.error .failed), []⟩
    | .response status raw link decoded =>
      if 200 ≤ status ∧ status < 300 then
        ⟨some (if decoded then .ok link else .error .decode), []⟩
      else if isTransient status && attempt < maxRetries then
        retry (retryAfter parseTime raw attempt a.now)
      else ⟨some (.error (.rejected status)), []⟩

end Bridge.Mastodon
