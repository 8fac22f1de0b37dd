import Mytools.Bridge.StoreOps

/-!
# Calls of the store

The writing operations of the store as data, and what a call of one of them does to the database.
A call is one transaction: it may fail at the database at any point, and every error rolls it back.
-/

namespace Bridge

open Lib

inductive StoreOp
  | enqueueOutbox (r : OutboxRequest)
  | saveEventAndEnqueue (m : EventMapping) (r : OutboxRequest)
  | enqueueEvent (q : EventEnqueueRequest)
  | enqueueUpdate (q : UpdateEnqueueRequest)
  | enqueueDelete (q : DeleteEnqueueRequest)
  | enqueuePurge (q : PurgeRequest)
  | reconcileBatch (q : ReconciliationBatchRequest)
  | claimOutbox (now lease limit : Int) (rand : Option (Fin 16 → UInt8))
  | completeOutbox (id : Nat) (token : String) (now : Int)
  | completePublisherRegistration (id : Nat) (token pubKey : String) (now : Int)
  | completePublisherUnregistration (id : Nat) (token : String) (now : Int) (pubKey : String)
  | recoverPublisherRegistration (id : Nat) (token pubKey : String) (now : Int)
  | retryOutbox (id : Nat) (token : String) (now availableAt : Int) (lastError : String)
  | saveEventMapping (m : EventMapping)
  | deleteEventBySourceURI (ref : SourceRef)
  | saveSourceOperation (ref : SourceRef) (identity : String)
  | saveCursor (scope : SourceScope) (c : CursorUpdate)
  | setPublisherRegistered (pubKey : String) (registeredAt : Int)
  | clearPublisherRegistration (pubKey : String)
  | replaceSyncTargets (scope : SourceScope) (targets : List String)

/-- The database after the operation, and the items that a claim returns. -/
def StoreOp.exec (N : Nostr.Library) (db : DB) : StoreOp → Except StoreErr (DB × List OutboxItem)
  | enqueueOutbox r => (SQLiteStore.enqueueOutbox N db r).map (·, [])
  | saveEventAndEnqueue m r => (SQLiteStore.saveEventAndEnqueue N db m r).map (·, [])
  | enqueueEvent q => (SQLiteStore.enqueueEvent N db q).map (·, [])
  | enqueueUpdate q => (SQLiteStore.enqueueUpdate N db q).map (·, [])
  | enqueueDelete q => (SQLiteStore.enqueueDelete N db q).map (·, [])
  | enqueuePurge q => (SQLiteStore.enqueuePurge N db q).map (·, [])
  | reconcileBatch q => (SQLiteStore.reconcileBatch N db q).map (·, [])
  | claimOutbox now lease limit rand => SQLiteStore.claimOutbox db now lease limit rand
  | completeOutbox id token now => (SQLiteStore.completeOutbox db id token now).map (·, [])
  | completePublisherRegistration id token pubKey now =>
    (SQLiteStore.completePublisherRegistration db id token pubKey now).map (·, [])
  | completePublisherUnregistration id token now pubKey =>
    (SQLiteStore.completePublisherUnregistration db id token now pubKey).map (·, [])
  | recoverPublisherRegistration id token pubKey now =>
    (SQLiteStore.recoverPublisherRegistration db id token pubKey now).map (·, [])
  | retryOutbox id token now availableAt lastError =>
    (SQLiteStore.retryOutbox db id token now availableAt lastError).map (·, [])
  | saveEventMapping m => .ok (db.upsertEventMapping m, [])
  | deleteEventBySourceURI ref => .ok (db.deleteEventMapping ref, [])
  | saveSourceOperation ref identity => .ok (db.saveSourceOperation ref identity, [])
  | saveCursor scope c => .ok (db.saveCursor scope c, [])
  | setPublisherRegistered pubKey registeredAt =>
    .ok (db.setPublisherRegistered pubKey registeredAt, [])
  | clearPublisherRegistration pubKey => .ok (db.clearPublisherRegistration pubKey, [])
  | replaceSyncTargets scope targets => .ok (db.replaceSyncTargets scope targets, [])

/-- An operation, and whether the database fails during its transaction. -/
structure Call where
  op : StoreOp
  fault : Bool := false

namespace Call

variable (N : Nostr.Library)

def result (db : DB) (c : Call) : Except StoreErr (DB × List OutboxItem) :=
  if c.fault then .error .database else c.op.exec N db

/-- The database after the call. -/
def next (db : DB) (c : Call) : DB :=
  match c.result N db with
  | .ok (db', _) => db'
  | .error _ => db

/-- The items that the call returns. -/
def items (db : DB) (c : Call) : List OutboxItem :=
  match c.result N db with
  | .ok (_, items) => items
  | .error _ => []

variable {N : Nostr.Library} {db db' : DB} {c : Call} {items : List OutboxItem}

theorem exec_of_result (h : c.result N db = .ok (db', items)) :
    c.op.exec N db = .ok (db', items) := by
  unfold result at h
  split at h
  · cases h
  · exact h

theorem next_of_ok (h : c.result N db = .ok (db', items)) : c.next N db = db' := by
  rw [next, h]

theorem next_of_error {e : StoreErr} (h : c.result N db = .error e) : c.next N db = db := by
  rw [next, h]

theorem exec_of_items {i : OutboxItem} (hi : i ∈ c.items N db) :
    ∃ db' items, c.op.exec N db = .ok (db', items) ∧ i ∈ items ∧ c.next N db = db' := by
  unfold Call.items at hi
  cases h : c.result N db with
  | error e =>
    rw [h] at hi
    cases hi
  | ok x =>
    rw [h] at hi
    exact ⟨x.1, x.2, exec_of_result h, hi, next_of_ok h⟩

/-- What every successful operation keeps, every call keeps. -/
theorem next_inv {I : DB → Prop}
    (hop : ∀ (op : StoreOp) db' items, op.exec N db = .ok (db', items) → I db') (hi : I db) :
    I (c.next N db) := by
  cases h : c.result N db with
  | error e => rwa [next_of_error h]
  | ok x =>
    rw [next_of_ok h]
    exact hop c.op x.1 x.2 (exec_of_result h)

end Call

/-- The database after a sequence of calls. -/
def DB.run (N : Nostr.Library) (db : DB) (cs : List Call) : DB := cs.foldl (Call.next N) db

theorem DB.run_append (N : Nostr.Library) (db : DB) (cs ds : List Call) :
    db.run N (cs ++ ds) = (db.run N cs).run N ds :=
  List.foldl_append

/-- An invariant of the successful operations holds after every sequence of calls. -/
theorem DB.run_inv {N : Nostr.Library} {I : DB → Prop}
    (hop : ∀ db (op : StoreOp) db' items, I db → op.exec N db = .ok (db', items) → I db') :
    ∀ {db : DB} (cs : List Call), I db → I (db.run N cs)
  | _, [], hi => hi
  | _, _ :: cs, hi => DB.run_inv hop cs
      (Call.next_inv (fun op db' items => hop _ op db' items hi) hi)

end Bridge
