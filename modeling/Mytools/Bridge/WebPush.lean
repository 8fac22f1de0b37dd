import Mytools.Bridge.Bluesky
import Mytools.Bridge.Notification

/-!
# Answers of push services (`internal/webpush/client.go`)

What `Push` makes of the status and the `Retry-After` of a response.
-/

namespace Bridge.WebPush

open Lib Notification

def day : Int := 24 * 60 * Clock.minute

/-- The delay that a push service asks for; `parseTime` is `http.ParseTime`. -/
def parseRetryAfter (parseTime : String → Option Int) (value : String) (now : Int) : Int :=
  let date :=
    match parseTime value with
    | some retryAt => if now < retryAt then min (Clock.sub retryAt now) day else 0
    | none => 0
  match Bluesky.Syncer.parseInt (trimSpace value) with
  | some seconds => if 0 ≤ seconds then min (Clock.wrap (seconds * Clock.second)) day else date
  | none => date

/-- `pushServiceError.Permanent` -/
def permanent (statusCode : Nat) : Bool :=
  400 ≤ statusCode && statusCode < 500 && statusCode ≠ 408 && statusCode ≠ 425 && statusCode ≠ 429

/-- What a response is to the worker. -/
def pushResult (parseTime : String → Option Int) (statusCode : Nat) (header : String) (now : Int) :
    SendResult :=
  if statusCode ∈ [200, 201, 202] then .delivered
  else if statusCode ∈ [404, 410] then .expired
  else .failed (permanent statusCode) (some (parseRetryAfter parseTime header now))

end Bridge.WebPush
