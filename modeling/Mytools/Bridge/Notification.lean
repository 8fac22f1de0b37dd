import Mathlib.Data.List.Sort
import Mathlib.Data.String.Basic
import Mytools.Lib.Clock
import Mytools.Lib.Table

/-!
# Health notifications (`nostr-bridge/notification/worker.go`)

`Worker.evaluateSnapshot` detects the issues of a snapshot and pushes a notification about each of
them to the stored subscriptions. What the push service answers, what the store lists and when the
context ends is data of an `Evaluation`; a step returns the sends that it made.
-/

namespace Bridge.Notification

open Lib

/-- The case mappings of the `strings` and `unicode` packages. -/
structure Cases where
  toLower : String → String
  toUpper : Char → Char

structure ProviderStatus where
  reauthRequired : Bool := false
  accessTokenExpired : Bool := false
  streamConnected : Bool := true
  targetCount : Int := 0
  degraded : Bool := false
  deriving DecidableEq, Repr

structure Snapshot where
  dispatcherRunning : Bool
  outboxAtLimit : Bool
  providers : Table String ProviderStatus

structure Issue where
  id : String
  title : String
  body : String
  tag : String
  deriving DecidableEq, Repr

def newIssue (id title body : String) : Issue := ⟨id, title, body, id⟩

/-! ## Detection -/

variable (C : Cases)

def formatProviderName (name : String) : String :=
  if C.toLower name = "bluesky" then "Bluesky"
  else if C.toLower name = "mastodon" then "Mastodon"
  else match name.toList with
    | [] => ""
    | c :: cs => String.ofList (C.toUpper c :: cs)

def providerIssue (lowerName suffix : String) : String := "provider:" ++ lowerName ++ ":" ++ suffix

def providerIssues (name : String) (p : ProviderStatus) : List Issue :=
  let lowerName := C.toLower name
  let displayName := formatProviderName C name
  (if p.reauthRequired then
    [newIssue (providerIssue lowerName "reauth_required")
      ("nostr-bridge: " ++ displayName ++ " の再認証が必要です")
      "同期を再開するにはダッシュボードから再ログインしてください。"] else []) ++
  (if p.accessTokenExpired then
    [newIssue (providerIssue lowerName "token_expired")
      ("nostr-bridge: " ++ displayName ++ " のトークン期限切れ")
      "アクセストークンが失効しました。"] else []) ++
  (if 0 < p.targetCount ∧ p.streamConnected = false then
    [newIssue (providerIssue lowerName "stream_disconnected")
      ("nostr-bridge: " ++ displayName ++ " のストリーム切断")
      "リアルタイムストリームが切断されています。"] else []) ++
  (if p.degraded then
    [newIssue (providerIssue lowerName "degraded")
      ("nostr-bridge: " ++ displayName ++ " の同期異常")
      "同期処理でエラーが発生しています。"] else [])

def detectIssues (s : Snapshot) : List Issue :=
  ((s.providers.rows.insertionSort fun a b => a.1 ≤ b.1).flatMap fun x =>
    providerIssues C x.1 x.2) ++
  (if s.dispatcherRunning then [] else
    [newIssue "system:dispatcher_stopped" "nostr-bridge: ディスパッチャー停止"
      "リレー送信ディスパッチャーが停止しています。"]) ++
  (if s.outboxAtLimit then
    [newIssue "system:outbox_limit" "nostr-bridge: 送信待ち上限到達"
      "送信キューが上限に達しました。"] else [])

/-! ## The worker -/

structure DeliveryState where
  lastSuccess : Int := Clock.zero
  nextAttempt : Int := Clock.zero
  failureCount : Nat := 0
  permanentFailure : Bool := false
  subscriptionUpdatedAt : Int := Clock.zero
  deriving DecidableEq, Repr

structure Worker where
  hasStore : Bool := true
  hasPushClient : Bool := true
  remindInterval : Int
  evaluationInterval : Int
  /-- By the issue's ID, then by the endpoint. -/
  activeIssues : Table String (Table String DeliveryState) := .empty
  streamDownTicks : Table String Nat := .empty

def defaultEvaluationInterval : Int := 15 * Clock.second

def defaultRemindInterval : Int := 24 * 60 * Clock.minute

def newWorker (remindInterval evaluationInterval : Int) : Worker where
  remindInterval := if remindInterval ≤ 0 then defaultRemindInterval else remindInterval
  evaluationInterval :=
    if evaluationInterval ≤ 0 then defaultEvaluationInterval else evaluationInterval

/-- What a push comes to. -/
inductive SendResult
  | delivered
  /-- `webpush.IsSubscriptionExpired` -/
  | expired
  /-- Any other error: `webpush.IsPermanentPushError`, and its `RetryAfter` if it has one. -/
  | failed (permanent : Bool) (retryAfter : Option Int)
  deriving DecidableEq, Repr

/-- A call of `EvaluateSnapshot` and what its surroundings do. -/
structure Evaluation where
  snapshot : Snapshot
  now : Int
  /-- The time of the last update of each listed endpoint, if `ListSubscriptions` succeeds. -/
  subscriptions : Option (Table String Int)
  /-- The context has ended when the issue at this position is reached. -/
  cancelled : Nat → Bool
  /-- The result of the push of the issue at this position, none if the context ends before it. -/
  send : Nat → String → Option SendResult

structure Sent where
  issue : String
  endpoint : String
  time : Int
  result : SendResult
  deriving DecidableEq, Repr

namespace Worker

/-- The iteration over the providers: the ticks, and the IDs of the suppressed issues. -/
def countTicks : List (String × ProviderStatus) → Table String Nat → List String →
    Table String Nat × List String
  | [], ticks, suppressed => (ticks, suppressed)
  | (name, p) :: providers, ticks, suppressed =>
    let name := C.toLower name
    if p.targetCount = 0 ∨ p.streamConnected = true then
      countTicks providers (ticks.erase name) suppressed
    else
      let n := (ticks.get? name).getD 0 + 1
      countTicks providers (ticks.set name n)
        (if n < 2 then providerIssue name "stream_disconnected" :: suppressed else suppressed)

def filterTransientStreamIssues (w : Worker) (s : Snapshot) (issues : List Issue) :
    Worker × List Issue :=
  let (ticks, suppressed) := countTicks C s.providers.rows w.streamDownTicks []
  ({ w with streamDownTicks := ticks }, issues.filter fun i => !suppressed.contains i.id)

/-- The loop of `retryDelay`, `n` rounds at most. -/
def doubleDelay (delay : Int) : Nat → Int
  | 0 => delay
  | n + 1 => if delay < 15 * Clock.minute then doubleDelay (delay * 2) n else delay

def retryDelay (w : Worker) (failureCount : Nat) (retryAfter : Option Int) : Int :=
  let delay := min (doubleDelay w.evaluationInterval (failureCount - 1)) (15 * Clock.minute)
  match retryAfter with
  | none => delay
  | some d => max delay d

def isEligible (state : Option DeliveryState) (now remindInterval : Int) : Bool :=
  match state with
  | none => true
  | some state =>
    if state.permanentFailure then false
    else if state.nextAttempt ≠ Clock.zero then !(now < state.nextAttempt)
    else state.lastSuccess = Clock.zero ∨ remindInterval ≤ Clock.sub now state.lastSuccess

/-- The state of an endpoint after a push. -/
def record (w : Worker) (now updatedAt : Int) (state : Option DeliveryState) :
    SendResult → Option DeliveryState
  | .expired => none
  | .delivered => some { state.getD {} with
      lastSuccess := now, nextAttempt := Clock.zero, failureCount := 0
      subscriptionUpdatedAt := updatedAt }
  | .failed permanent retryAfter =>
    let state := state.getD {}
    some { state with
      failureCount := state.failureCount + 1
      nextAttempt := now + w.retryDelay (state.failureCount + 1) retryAfter
      permanentFailure := permanent
      subscriptionUpdatedAt := updatedAt }

/-- The states of an issue that are kept: those of listed subscriptions that have not changed. -/
def currentStates (subs : Table String Int) (states : Table String DeliveryState) :
    Table String DeliveryState :=
  states.filter fun endpoint state => subs.get? endpoint = some state.subscriptionUpdatedAt

/-- The pushes about an issue: each eligible endpoint, its last update and the result. -/
def deliver (w : Worker) (ev : Evaluation) (pos : Nat) (subs : Table String Int)
    (states : Table String DeliveryState) (expired : List String) :
    List (String × Int × SendResult) :=
  (subs.rows.filter fun x => !expired.contains x.1 &&
    isEligible (states.get? x.1) ev.now w.remindInterval).filterMap fun x =>
      (ev.send pos x.1).map fun result => (x.1, x.2, result)

def store (w : Worker) (now : Int) (states : Table String DeliveryState)
    (x : String × Int × SendResult) : Table String DeliveryState :=
  match w.record now x.2.1 (states.get? x.1) x.2.2 with
  | some state => states.set x.1 state
  | none => states.erase x.1

def setStates (w : Worker) (issue : String) (states : Table String DeliveryState) : Worker :=
  { w with activeIssues := w.activeIssues.set issue states }

/-- The loop over the issues. -/
def sendIssues (ev : Evaluation) (subs : Table String Int) :
    List Issue → Nat → Worker → (expired : List String) → Worker × List Sent
  | [], _, w, _ => (w, [])
  | issue :: issues, pos, w, expired =>
    if ev.cancelled pos then (w, [])
    else
      let states := currentStates subs ((w.activeIssues.get? issue.id).getD .empty)
      let results := w.deliver ev pos subs states expired
      let w' := w.setStates issue.id (results.foldl (w.store ev.now) states)
      let expired' := expired ++ (results.filter fun x => x.2.2 = .expired).map (·.1)
      let rest := sendIssues ev subs issues (pos + 1) w' expired'
      (rest.1, results.map (fun x => ⟨issue.id, x.1, ev.now, x.2.2⟩) ++ rest.2)

def sendNotifications (w : Worker) (ev : Evaluation) (issues : List Issue) : Worker × List Sent :=
  if issues = [] ∨ w.hasStore = false ∨ w.hasPushClient = false then (w, [])
  else match ev.subscriptions with
    | none => (w, [])
    | some subs => if subs.rows = [] then (w, []) else sendIssues ev subs issues 0 w []

/-- The issues that are left after the transient ones have been filtered out. -/
def detected (w : Worker) (ev : Evaluation) : List Issue :=
  (w.filterTransientStreamIssues C ev.snapshot (detectIssues C ev.snapshot)).2

def evaluateSnapshot (w : Worker) (ev : Evaluation) : Worker × List Sent :=
  let (w, issues) := w.filterTransientStreamIssues C ev.snapshot (detectIssues C ev.snapshot)
  -- recovery: issues that are no longer detected go
  let w := { w with activeIssues := w.activeIssues.filter fun id _ => issues.any (·.id = id) }
  w.sendNotifications ev issues

/-- The worker and the sends after a sequence of calls. -/
def evaluateAll : Worker → List Evaluation → Worker × List Sent
  | w, [] => (w, [])
  | w, ev :: evs =>
    let (w, sent) := w.evaluateSnapshot C ev
    let rest := evaluateAll w evs
    (rest.1, sent ++ rest.2)

end Worker

end Bridge.Notification
