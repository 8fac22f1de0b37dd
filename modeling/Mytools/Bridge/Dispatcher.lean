import Mytools.Bridge.Calls

/-!
# The dispatcher (`dispatcher.go`)

`DispatchOne` claims one item, delivers it to the relay, and ends with one call of the store that
depends on the delivery (`followUp`). A `Session` is the database together with every item that a
claim has ever returned: what the dispatchers, any number of them, may still act on.
-/

namespace Bridge

open Lib

/-! ## Delivery -/

/-- The errors of `deliver`, which may return any of them. `client` is an error of the relay's
clients other than `PublisherNotAllowedError`; the texts are those that `sanitize` leaves. -/
inductive DeliveryErr
  | invalidPubKey
  | managementRequired
  | publisherRequired
  | invalidPayload
  | unsupported (operation : String)
  | notAllowed (text : String)
  | client (text : String)
  deriving DecidableEq, Repr

def DeliveryErr.text : DeliveryErr → String
  | invalidPubKey => "invalid outbox pubkey"
  | managementRequired => "management client is required"
  | publisherRequired => "publisher client is required"
  | invalidPayload => "invalid publish event payload"
  | unsupported operation => "unsupported outbox operation " ++ operation.quote
  | notAllowed text => text
  | client text => text

/-! ## The dispatcher -/

/-- The durations of a `Dispatcher` that its delays depend on, in nanoseconds. -/
structure Dispatcher where
  baseBackoff : Int
  maxBackoff : Int

namespace Dispatcher

def second : Int := 1000000000

/-- The loop of `backoff`; `n` rounds are left. -/
def backoffLoop (max : Int) : (n : Nat) → (delay : Int) → Int
  | n + 1, delay =>
    if delay < max then
      if delay > max / 2 then max else backoffLoop max n (delay * 2)
    else if delay > max then max else delay
  | 0, delay => if delay > max then max else delay

def backoff (d : Dispatcher) (attempts : Nat) : Int :=
  let base := if d.baseBackoff ≤ 0 then second else d.baseBackoff
  let max := if d.maxBackoff ≤ 0 then 60 * second else d.maxBackoff
  backoffLoop max attempts base

/-- The completion that matches the item's operation. -/
def complete (now : Int) (item : OutboxItem) : StoreOp :=
  match item.operation with
  | .allowPublisher => .completePublisherRegistration item.id item.claimToken item.pubKey now
  | .unallowPublisher => .completePublisherUnregistration item.id item.claimToken now item.pubKey
  | _ => .completeOutbox item.id item.claimToken now

/-- The call that ends `DispatchOne`, for the result of the delivery. -/
def followUp (d : Dispatcher) (now : Int) (item : OutboxItem) : Except DeliveryErr Unit → StoreOp
  | .ok () => complete now item
  | .error e =>
    match item.operation, e with
    | .publishEvent, .notAllowed _ =>
      .recoverPublisherRegistration item.id item.claimToken item.pubKey now
    | _, _ =>
      .retryOutbox item.id item.claimToken now (now + d.backoff item.attempts) e.text

end Dispatcher

/-! ## Purges -/

/-- `EnqueuePurge` of `purge.go`, at the time `now`: the checks of the store's own are made before
it is called. -/
def enqueuePurge (N : Nostr.Library) (db : DB) (pubKey : String) (deletion : Nostr.Event)
    (limit now : Int) : Except StoreErr DB := do
  require (deletion.kind = 5 ∧ deletion.pubKey = pubKey ∧ N.checkID deletion ∧
    N.verifySignature deletion) .invalidPurgeDeletion
  let known := db.eventIDsByAuthor pubKey
  let tagged := (SQLiteStore.eTags deletion).eraseDups
  require (tagged.length = known.length ∧ ∀ id ∈ known, id ∈ tagged) .purgeDoesNotCover
  SQLiteStore.enqueuePurge N db ⟨pubKey, N.marshal deletion, now, limit⟩

/-! ## Sessions -/

structure Session where
  db : DB
  /-- The items that claims have returned. -/
  pool : List OutboxItem

namespace Session

variable (N : Nostr.Library)

def empty : Session := ⟨DB.empty, []⟩

def step (s : Session) (c : Call) : Session := ⟨c.next N s.db, s.pool ++ c.items N s.db⟩

def run (s : Session) (cs : List Call) : Session := cs.foldl (step N) s

@[simp] theorem run_nil (s : Session) : s.run N [] = s := rfl

@[simp] theorem run_cons (s : Session) (c : Call) (cs : List Call) :
    s.run N (c :: cs) = (s.step N c).run N cs := rfl

end Session

/-- What `DispatchOne` calls with an item of the pool. -/
def Dispatched (pool : List OutboxItem) (op : StoreOp) : Prop :=
  ∃ (d : Dispatcher) (now : Int) (result : Except DeliveryErr Unit),
    ∃ item ∈ pool, op = d.followUp now item result

/-- The operations that the bridge calls: every one that enqueues, claims or writes cursors,
targets and operations, and for a claimed item what `DispatchOne` calls with it. The direct writes
`SaveEventMapping` and `SetPublisherRegistered` are not among them. -/
def Proper (pool : List OutboxItem) (op : StoreOp) : Prop :=
  match op with
  | .saveEventMapping .. | .setPublisherRegistered .. => False
  | .completeOutbox .. | .completePublisherRegistration .. | .completePublisherUnregistration ..
  | .recoverPublisherRegistration .. | .retryOutbox .. => Dispatched pool op
  | _ => True

/-- Every call of the sequence is proper when it is made. -/
def ProperRun (N : Nostr.Library) : Session → List Call → Prop
  | _, [] => True
  | s, c :: cs => Proper s.pool c.op ∧ ProperRun N (s.step N c) cs

end Bridge
