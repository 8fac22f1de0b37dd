import Mathlib.Data.List.Sort
import Mytools.Relay.Nip98
import Mytools.Relay.Store

/-!
# The private relay (`nostr-relay/relay.go`, `management.go`)

The hook by which the relay decides about an event, and the endpoint that keeps the list of
publishers. The library that serves the connections and calls the hooks is a parameter (`Library`),
and so is the JSON decoder of the endpoint (`RPC`).
-/

namespace Relay

open Lib

/-- A row of `publisher_allowlist` beside its key. -/
structure Publisher where
  reason : String
  createdAt : Int
  deriving DecidableEq, Repr

/-- The database of the relay. -/
structure Server where
  db : DB
  publishers : Table String Publisher
  seen : SeenEvents

/-- The decoded configuration. -/
structure Config where
  auth : NIP98Validator
  deriving DecidableEq, Repr

namespace Server

def empty : Server := ⟨.empty, .empty, .empty⟩

/-! ## Publishers -/

def publisherAllowed (s : Server) (pubKey : String) : Bool := (s.publishers.get? pubKey).isSome

def allowPublisher (s : Server) (pubKey : String) (p : Publisher) : Server :=
  { s with publishers := s.publishers.set pubKey p }

def unallowPublisher (s : Server) (pubKey : String) : Server :=
  { s with publishers := s.publishers.erase pubKey }

/-- `ListPublishers`; a key in the table may fail to decode. -/
def listPublishers (N : Nostr.Library) (s : Server) : Option (List (String × Publisher)) :=
  (s.publishers.rows.insertionSort fun a b => compare a.1 b.1 ≠ .gt).mapM fun row =>
    (N.pubKeyFromHex row.1).map (·, row.2)

end Server

/-! ## Events -/

/-- `OnEvent`: the message of a rejection. With `failed` the list of publishers cannot be read. -/
def onEvent (N : Nostr.Library) (s : Server) (failed : Bool) (e : Nostr.Event) : Option String :=
  if !(N.checkID e && N.verifySignature e) then some "invalid: event signature is invalid"
  else if failed then some "error: publisher authorization failed"
  else if s.publisherAllowed e.pubKey = false then some "restricted: publisher is not allowed"
  else none

/-- The library that serves the connections. What it does at once is a turn; between asking about an
event and storing it others come in. It may refuse events on its own, answer those that it has
already and act on deletion requests: all it does to the database is to call the hooks that are set,
and to store an event it calls `StoreEvent` or `ReplaceEvent` after `OnEvent` has let it pass. -/
structure Library (N : Nostr.Library) where
  State : Type
  Turn : Type
  start : State
  act : Turn → State → Server → State × Server
  /-- The events that `OnEvent` has let pass and that are to be stored. -/
  passed : State → List Nostr.Event
  passed_start : passed start = []
  passed_asked : ∀ a σ s, ∀ e ∈ passed (act a σ s).1,
    e ∈ passed σ ∨ ∃ failed, onEvent N s failed e = none
  stores_passed : ∀ a σ s, (act a σ s).2.db = s.db ∨
    ∃ c : Call, c.event ∈ passed σ ∧ c.exec N s.db = .ok (act a σ s).2.db
  publishers_kept : ∀ a σ s, (act a σ s).2.publishers = s.publishers

/-! ## Management -/

def managementMediaType : String := "application/nostr+json+rpc"

def managementBodyLimit : Nat := 64 * 1024

def supportedManagementMethods : List String :=
  ["allowpubkey", "unallowpubkey", "listallowedpubkeys"]

structure ManagementRequest (Raw : Type) where
  method : String
  /-- `none` is a nil message. -/
  params : Option Raw

/-- The JSON decoder. -/
structure RPC (Raw : Type) where
  /-- The request at the head of a body, and whether the body ends after it. -/
  request : List UInt8 → Option (ManagementRequest Raw × Bool)
  /-- A value as a list; `some none` is `null`. -/
  list : Raw → Option (Option (List Raw))
  /-- A value as a string; `null` is the empty one. -/
  string : Raw → Option String

inductive ManagementResult
  | methods (names : List String)
  | done
  | publishers (list : List (String × String))
  deriving DecidableEq, Repr

section

variable {Raw : Type} (N : Nostr.Library) (K : RPC Raw)

/-- `decodeManagementParams`: the list must be there and empty. -/
def decodeManagementParams (raw : Raw) : Except String Unit :=
  match K.list raw with
  | some (some []) => .ok ()
  | _ => .error "invalid params"

def decodePubKeyReason (raw : Raw) : Except String (String × String) :=
  match K.list raw with
  | some (some [p]) =>
    match (K.string p).bind N.pubKeyFromHex with
    | some pubKey => .ok (pubKey, "")
    | none => .error "invalid params"
  | some (some [p, r]) =>
    match K.string p, K.string r with
    | some encoded, some reason =>
      match N.pubKeyFromHex encoded with
      | some pubKey => .ok (pubKey, reason)
      | none => .error "invalid params"
    | _, _ => .error "invalid params"
  | _ => .error "invalid params"

/-- `dispatchManagement` at the time `now`; with `fault` the database fails. -/
def Server.dispatchManagement (s : Server) (now : Int) (fault : Bool) (method : String)
    (params : Raw) : Server × Except String ManagementResult :=
  if method = "supportedmethods" then
    (s, (decodeManagementParams K params).map fun _ => .methods supportedManagementMethods)
  else if method = "allowpubkey" then
    match decodePubKeyReason N K params with
    | .error e => (s, .error e)
    | .ok (pubKey, reason) =>
      if fault then (s, .error "management operation failed")
      else (s.allowPublisher pubKey ⟨reason, Clock.unix now⟩, .ok .done)
  else if method = "unallowpubkey" then
    match decodePubKeyReason N K params with
    | .error e => (s, .error e)
    | .ok (pubKey, _) =>
      if fault then (s, .error "management operation failed")
      else (s.unallowPublisher pubKey, .ok .done)
  else if method = "listallowedpubkeys" then
    match decodeManagementParams K params with
    | .error e => (s, .error e)
    | .ok () =>
      match if fault then none else s.listPublishers N with
      | none => (s, .error "management operation failed")
      | some list => (s, .ok (.publishers (list.map fun p => (p.1, p.2.reason))))
  else (s, .error "method not supported")

/-- A request to the endpoint; `body` is `none` if it cannot be read. -/
structure ManagementCall where
  request : Request
  contentTypes : List String
  body : Option (List UInt8)
  now : Int
  fault : Bool := false

inductive ManagementResponse
  /-- The request goes to the next handler. -/
  | next
  | answer (status : Nat) (result : Except String ManagementResult)

/-- The handler of `NewManagementHandler`. -/
def Server.manage (W : Web) (cfg : Config) (s : Server) (c : ManagementCall) :
    Server × ManagementResponse :=
  if c.request.method ≠ "POST" ∨ c.contentTypes ≠ [managementMediaType] then (s, .next)
  else
    match c.body with
    | none => (s, .answer 400 (.error "failed to read request body"))
    | some body =>
      if managementBodyLimit < body.length then (s, .answer 413 (.error "request body too large"))
      else
        match cfg.auth.validate N W c.request body c.now s.seen with
        | .error _ => (s, .answer 401 (.error "unauthorized"))
        | .ok (_, seen) =>
          let s := { s with seen }
          match K.request body with
          | some (⟨method, some params⟩, true) =>
            if method = "" then (s, .answer 200 (.error "invalid request"))
            else
              let (s, result) := s.dispatchManagement N K c.now c.fault method params
              (s, .answer 200 result)
          | _ => (s, .answer 200 (.error "invalid request"))

end

end Relay
