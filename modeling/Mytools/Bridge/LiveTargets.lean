import Mytools.Bridge.Bluesky
import Mytools.Lib.Signal

/-!
# The targets of a running syncer (`runtime.go`, `Run`, `consumeUntilTargetUpdate`)

The reconciliation sets the targets while the syncer is connected. `Step` interleaves `Set` with
`Run`, with the watcher that `consumeUntilTargetUpdate` starts for every connection, and with the
end of the context. `Connect` and `consume` may return at any time, with or without an error.
-/

namespace Bridge.Bluesky

open Lib Syncer

/-! ## Targets -/

structure DIDSet where
  dids : List String
  nodup : dids.Nodup

def DIDSet.empty : DIDSet := ⟨[], List.nodup_nil⟩

def didSetsEqual (a b : DIDSet) : Bool :=
  a.dids.length = b.dids.length && a.dids.all fun did => did ∈ b.dids

/-- The values, and the channel of one update. -/
abbrev LiveTargets := Signal DIDSet

def LiveTargets.set (t : LiveTargets) (values : DIDSet) : LiveTargets := t.put didSetsEqual values

def LiveTargets.get (t : LiveTargets) : DIDSet := t.value

def newLiveTargets (values : DIDSet) : LiveTargets :=
  (LiveTargets.set ⟨.empty, false⟩ values).take

/-! ## Connections -/

/-- The goroutine of `consumeUntilTargetUpdate`. -/
inductive Watcher
  | selecting
  /-- It has an update, and is about to tell so. -/
  | received
  /-- It is about to cancel the context of `consume`. -/
  | signalled
  /-- It is about to close the connection. -/
  | cancelled
  | closed
  /-- The context of `consume` was done. -/
  | stopped
  deriving DecidableEq, Repr

/-- The watcher has received an update and closes the connection. -/
def Watcher.closing : Watcher → Bool
  | .received | .signalled | .cancelled | .closed => true
  | .selecting | .stopped => false

/-- `watchDone` is closed. -/
def Watcher.done : Watcher → Bool
  | .closed | .stopped => true
  | _ => false

/-- What `consumeUntilTargetUpdate` shares with its watcher. -/
structure Watch where
  watcher : Watcher := .selecting
  /-- `cancel` was called. -/
  cancelled : Bool := false
  changed : Bool := false

/-- Where `consumeUntilTargetUpdate` is, after it has started the watcher; `err` tells that
`consume` returned an error. -/
inductive Consuming
  | consume
  | cancel (err : Bool)
  | join (err : Bool)
  | leave (err : Bool)
  deriving DecidableEq, Repr

/-- Where `Run` is. -/
inductive RunPhase
  | backfill
  | loop
  | subscribe
  | connect (sub : Subscription)
  | opened (sub : Subscription)
  | watched (sub : Subscription) (w : Watch) (c : Consuming)
  /-- `consumeUntilTargetUpdate` or `Connect` returned. -/
  | disconnected (changed err : Bool)
  | retry
  | returned

structure Live where
  targets : LiveTargets
  phase : RunPhase := .backfill
  /-- The context of `Run` is done. -/
  cancelled : Bool := false
  /-- The argument of the last `Set`. -/
  current : DIDSet

/-- `Run` starts with new targets. -/
def Live.start (values : DIDSet) : Live := { targets := newLiveTargets values, current := values }

namespace Syncer

variable (s : Syncer)

inductive Live.Step : Live → Live → Prop
  | set {l : Live} (values : DIDSet) :
      Step l { l with targets := l.targets.set values, current := values }
  | done {l : Live} : Step l { l with cancelled := true }
  -- `Run`
  | backfilled {l : Live} (h : l.phase = .backfill) : Step l { l with phase := .loop }
  /-- `Backfill` fails, or there is no URL. -/
  | noStream {l : Live} (h : l.phase = .backfill) : Step l { l with phase := .returned }
  | enter {l : Live} (h : l.phase = .loop) (hc : l.cancelled = false) :
      Step l { l with phase := .subscribe }
  | exit {l : Live} (h : l.phase = .loop) (hc : l.cancelled = true) :
      Step l { l with phase := .returned }
  | subscribe {l : Live} {db : DB} {sub : Subscription} (h : l.phase = .subscribe)
      (hs : Syncer.subscription { s with targets := some l.targets.get.dids } db = .ok sub) :
      Step l { l with phase := .connect sub }
  /-- There are no targets, the URL or the cursor is not valid, or the store fails. -/
  | noSubscription {l : Live} (h : l.phase = .subscribe) : Step l { l with phase := .returned }
  | connected {l : Live} {sub : Subscription} (h : l.phase = .connect sub) :
      Step l { l with phase := .opened sub }
  | refused {l : Live} {sub : Subscription} (h : l.phase = .connect sub) :
      Step l { l with phase := .disconnected false true }
  | watch {l : Live} {sub : Subscription} (h : l.phase = .opened sub) :
      Step l { l with phase := .watched sub {} .consume }
  | tail {l : Live} {changed err : Bool} (h : l.phase = .disconnected changed err) :
      Step l { l with
        phase :=
          if changed then .loop
          else if l.cancelled then .returned
          else if err then .retry else .loop }
  | waited {l : Live} (h : l.phase = .retry) : Step l { l with phase := .loop }
  | stopped {l : Live} (h : l.phase = .retry) (hc : l.cancelled = true) :
      Step l { l with phase := .returned }
  -- `consumeUntilTargetUpdate`
  | consumed {l : Live} {sub : Subscription} {w : Watch} (err : Bool)
      (h : l.phase = .watched sub w .consume) :
      Step l { l with phase := .watched sub w (.cancel err) }
  | cancel {l : Live} {sub : Subscription} {w : Watch} {err : Bool}
      (h : l.phase = .watched sub w (.cancel err)) :
      Step l { l with phase := .watched sub { w with cancelled := true } (.join err) }
  | join {l : Live} {sub : Subscription} {w : Watch} {err : Bool}
      (h : l.phase = .watched sub w (.join err)) (hd : w.watcher.done = true) :
      Step l { l with phase := .watched sub w (.leave err) }
  | leave {l : Live} {sub : Subscription} {w : Watch} {err : Bool}
      (h : l.phase = .watched sub w (.leave err)) :
      Step l { l with phase := .disconnected w.changed err }
  -- The watcher; if both channels of its `select` are ready, it takes either.
  | watcherStops {l : Live} {sub : Subscription} {w : Watch} {c : Consuming}
      (h : l.phase = .watched sub w c) (hw : w.watcher = .selecting)
      (hd : l.cancelled = true ∨ w.cancelled = true) :
      Step l { l with phase := .watched sub { w with watcher := .stopped } c }
  | watcherReceives {l : Live} {sub : Subscription} {w : Watch} {c : Consuming}
      (h : l.phase = .watched sub w c) (hw : w.watcher = .selecting)
      (ht : l.targets.token = true) :
      Step l { l with
        targets := l.targets.take
        phase := .watched sub { w with watcher := .received } c }
  | watcherSignals {l : Live} {sub : Subscription} {w : Watch} {c : Consuming}
      (h : l.phase = .watched sub w c) (hw : w.watcher = .received) :
      Step l { l with phase := .watched sub { w with watcher := .signalled, changed := true } c }
  | watcherCancels {l : Live} {sub : Subscription} {w : Watch} {c : Consuming}
      (h : l.phase = .watched sub w c) (hw : w.watcher = .signalled) :
      Step l { l with phase := .watched sub { w with watcher := .cancelled, cancelled := true } c }
  | watcherCloses {l : Live} {sub : Subscription} {w : Watch} {c : Consuming}
      (h : l.phase = .watched sub w c) (hw : w.watcher = .cancelled) :
      Step l { l with phase := .watched sub { w with watcher := .closed } c }

/-- The states that `Run` comes through, with any calls of `Set` in between. -/
def Reaches (values : DIDSet) (l : Live) : Prop :=
  Relation.ReflTransGen (Live.Step s) (.start values) l

end Syncer

end Bridge.Bluesky
