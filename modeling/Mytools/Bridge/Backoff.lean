import Mytools.Bridge.Dispatcher

/-!
# Delays before a retry (`backoff` of `dispatcher.go`, `maintenance.go`)

The two loops that double a delay, in the arithmetic of `time.Duration`: a duration is an `int64`
number of nanoseconds, and a product that does not fit wraps around. `Dispatcher.backoff` is the
first of the loops in unbounded integers.
-/

namespace Bridge.Backoff

/-- `time.Duration` -/
abbrev Duration := Int64

def second : Duration := 1000000000

def minute : Duration := 60000000000

/-! ## The dispatcher -/

/-- The loop of `backoff`; `n` rounds are left. -/
def backoffLoop (max : Duration) : (n : Nat) → (delay : Duration) → Duration
  | n + 1, delay =>
    if delay < max then
      if delay > max / 2 then max else backoffLoop max n (delay * 2)
    else if delay > max then max else delay
  | 0, delay => if delay > max then max else delay

/-- A configured duration, or its default. -/
def orDefault (d default : Duration) : Duration := if d ≤ 0 then default else d

def backoff (baseBackoff maxBackoff : Duration) (attempts : Nat) : Duration :=
  let base := orDefault baseBackoff second
  let max := orDefault maxBackoff minute
  backoffLoop max attempts base

/-! ## The maintenance of the OAuth tokens -/

/-- The loop of `maintenanceRetryDelay`; `n` rounds are left. -/
def retryLoop (maxDelay : Duration) : (n : Nat) → (delay : Duration) → Duration
  | n + 1, delay =>
    if delay ≥ maxDelay then maxDelay
    else if delay > maxDelay / 2 then maxDelay
    else retryLoop maxDelay n (delay * 2)
  | 0, delay => min delay maxDelay

def maintenanceRetryDelay (attempt : Nat) (checkInterval : Duration) : Duration :=
  let maxDelay := checkInterval / 2
  if maxDelay ≤ 0 then 0 else retryLoop maxDelay attempt (min second maxDelay)

end Bridge.Backoff
