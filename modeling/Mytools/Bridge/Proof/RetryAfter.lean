import Mytools.Bridge.Mastodon
import Mytools.Bridge.Proof.Notification
import Mytools.Bridge.WebPush

/-!
# Delays that a server asks for

`Retry-After` in seconds becomes a duration in nanoseconds before it is bounded. The product is
exact up to `maxSeconds`; beyond, it wraps around to another multiple of 512, which is never as
large as the largest duration.
-/

namespace Bridge

open Lib Notification WebPush Mastodon

/-- The most seconds that are a duration. -/
def maxSeconds : Int := 9223372036

theorem wrap_seconds {n : Int} (h₀ : 0 ≤ n) (h₁ : n ≤ maxSeconds) :
    Clock.wrap (n * Clock.second) = n * Clock.second := by
  unfold maxSeconds at h₁
  apply Clock.wrap_eq
  · unfold Clock.minDuration Clock.second
    omega
  · unfold Clock.maxDuration Clock.second
    omega

/-- The product of more seconds is not even the largest duration. -/
theorem wrap_seconds_lt {n : Int} (h : maxSeconds < n) :
    Clock.wrap (n * Clock.second) < min (n * Clock.second) Clock.maxDuration := by
  unfold maxSeconds at h
  unfold Clock.wrap Clock.maxDuration Clock.second
  rw [Int.bmod_def]
  omega

/-! ## Push services -/

theorem parseRetryAfter_seconds {parseTime : String → Option Int} {raw : String} {n : Int}
    (hraw : Bluesky.Syncer.parseInt (trimSpace raw) = some n) (hn : 0 ≤ n) (now : Int) :
    parseRetryAfter parseTime raw now = min (Clock.wrap (n * Clock.second)) day := by
  simp only [parseRetryAfter, hraw, if_pos hn]

/-- A failure is tried again no earlier than the service asks for. -/
theorem le_nextAttempt (w : Worker) (now updatedAt : Int) (state : Option DeliveryState)
    (permanent : Bool) (d : Int) :
    ∃ state', w.record now updatedAt state (.failed permanent (some d)) = some state' ∧
      now + d ≤ state'.nextAttempt := by
  refine ⟨_, rfl, ?_⟩
  exact Int.add_le_add_left (le_max_right _ _) now

theorem pushResult_failed {parseTime : String → Option Int} {statusCode : Nat} {raw : String}
    {t : Int} {permanent : Bool} {retryAfter : Option Int}
    (h : pushResult parseTime statusCode raw t = .failed permanent retryAfter) :
    retryAfter = some (parseRetryAfter parseTime raw t) := by
  unfold pushResult at h
  split at h
  · cases h
  split at h
  · cases h
  · exact (SendResult.failed.inj h).2.symm

/-! ## Mastodon -/

theorem retryAfter_seconds {parseTime : String → Option Int} {raw : String} {n : Int}
    (hraw : Bluesky.Syncer.parseInt (trimSpace raw) = some n) (hn : 0 ≤ n) (attempt : Nat)
    (now : Int) : retryAfter parseTime raw attempt now = Clock.wrap (n * Clock.second) := by
  simp only [retryAfter, hraw, if_pos hn]

/-- An attempt sleeps at most once, as long as a response asks for, before the attempts that
follow. -/
theorem sleeps_cons (parseTime : String → Option Int) (maxRetries : Int) (attempt : Nat)
    (a : Attempt) (rest : List Attempt) :
    (getJSONPage parseTime maxRetries attempt (a :: rest)).sleeps = [] ∨
      ∃ d ds, (getJSONPage parseTime maxRetries attempt (a :: rest)).sleeps = d :: ds ∧
        (ds = [] ∨ ds = (getJSONPage parseTime maxRetries (attempt + 1) rest).sleeps) ∧
        ∀ {status raw link decoded}, a.outcome = .response status raw link decoded →
          d = retryAfter parseTime raw attempt a.now := by
  rw [getJSONPage]
  cases ho : a.outcome with
  | noToken => exact .inl rfl
  | badRequest => exact .inl rfl
  | transportError =>
    dsimp only
    split
    · refine .inr ⟨retryDelay attempt, ?_⟩
      split
      · exact ⟨[], rfl, .inl rfl, fun h => (by cases h)⟩
      · exact ⟨_, rfl, .inr rfl, fun h => (by cases h)⟩
    · exact .inl rfl
  | response status raw link decoded =>
    dsimp only
    split
    · exact .inl rfl
    split
    · refine .inr ⟨retryAfter parseTime raw attempt a.now, ?_⟩
      split
      · exact ⟨[], rfl, .inl rfl, fun h => (by cases h; rfl)⟩
      · exact ⟨_, rfl, .inr rfl, fun h => (by cases h; rfl)⟩
    · exact .inl rfl

/-- The sleep after a response, in any run. -/
theorem sleeps_response {parseTime : String → Option Int} {maxRetries : Int} {status : Nat}
    {raw link : String} {decoded : Bool} {a : Attempt} {d : Int}
    (ho : a.outcome = .response status raw link decoded) :
    ∀ {attempts : List Attempt} {attempt i : Nat},
      (getJSONPage parseTime maxRetries attempt attempts).sleeps[i]? = some d →
      attempts[i]? = some a → d = retryAfter parseTime raw (attempt + i) a.now
  | [], _, _, _, ha => by simp at ha
  | a' :: rest, attempt, i, hd, ha => by
    rcases sleeps_cons parseTime maxRetries attempt a' rest with h | ⟨d', ds, h, hds, hd'⟩
    · simp [h] at hd
    rw [h] at hd
    cases i with
    | zero =>
      obtain rfl : a' = a := Option.some.inj ha
      obtain rfl : d' = d := Option.some.inj hd
      exact hd' ho
    | succ i =>
      rw [List.getElem?_cons_succ] at hd ha
      rcases hds with rfl | rfl
      · simp at hd
      · rw [sleeps_response ho hd ha, Nat.add_right_comm, Nat.add_assoc]

/-! ## Both -/

/-- `Retry-After` is honoured by both clients exactly for the seconds that are a duration. -/
theorem retryAfter_honoured_iff {parseTime : String → Option Int} {raw : String} {n : Int}
    (hraw : Bluesky.Syncer.parseInt (trimSpace raw) = some n) (hn : 0 ≤ n) :
    ((∀ now, 0 ≤ parseRetryAfter parseTime raw now ∧ parseRetryAfter parseTime raw now ≤ day) ∧
      (∀ (w : Worker) (now updatedAt : Int) (state : Option DeliveryState) (statusCode : Nat)
        (t : Int), (pushResult parseTime statusCode raw t).Transient →
        ∃ state', w.record now updatedAt state (pushResult parseTime statusCode raw t) =
          some state' ∧ now + min n 86400 * Clock.second ≤ state'.nextAttempt) ∧
      ∀ (maxRetries : Int) (attempts : List Attempt) (i : Nat) (d : Int) (a : Attempt)
        (status : Nat) (link : String) (decoded : Bool),
        (getJSONPage parseTime maxRetries 0 attempts).sleeps[i]? = some d →
        attempts[i]? = some a → a.outcome = .response status raw link decoded →
        min (n * Clock.second) Clock.maxDuration ≤ d) ↔ n ≤ maxSeconds := by
  constructor
  · rintro ⟨-, -, h⟩
    by_contra hlt
    have hsleep := h 1 [⟨.response 429 raw "" false, 0, false⟩] 0
      (retryAfter parseTime raw 0 0) _ 429 "" false rfl rfl rfl
    rw [retryAfter_seconds hraw hn] at hsleep
    exact absurd (wrap_seconds_lt (not_le.1 hlt)) (not_lt.2 hsleep)
  · intro hle
    have hwrap := wrap_seconds hn hle
    have hparse : ∀ now, parseRetryAfter parseTime raw now = min (n * Clock.second) day := by
      intro now
      rw [parseRetryAfter_seconds hraw hn, hwrap]
    refine ⟨?_, ?_, ?_⟩
    · intro now
      rw [hparse]
      unfold day Clock.minute Clock.second
      omega
    · rintro w now updatedAt state statusCode t ⟨retryAfter, hr⟩
      rw [hr, pushResult_failed hr, hparse]
      obtain ⟨state', hstate, hnext⟩ :=
        le_nextAttempt w now updatedAt state false (min (n * Clock.second) day)
      refine ⟨state', hstate, le_trans (Int.add_le_add_left ?_ now) hnext⟩
      unfold day Clock.minute Clock.second
      omega
    · intro maxRetries attempts i d a status link decoded hd ha ho
      rw [sleeps_response ho hd ha, retryAfter_seconds hraw hn, hwrap]
      exact min_le_left _ _

theorem retryAfter_honoured_two_minutes :
    ((∀ now, 0 ≤ parseRetryAfter (fun _ => none) "120" now ∧
        parseRetryAfter (fun _ => none) "120" now ≤ day) ∧
      (∀ (w : Worker) (now updatedAt : Int) (state : Option DeliveryState) (statusCode : Nat)
        (t : Int), (pushResult (fun _ => none) statusCode "120" t).Transient →
        ∃ state', w.record now updatedAt state (pushResult (fun _ => none) statusCode "120" t) =
          some state' ∧ now + min 120 86400 * Clock.second ≤ state'.nextAttempt) ∧
      ∀ (maxRetries : Int) (attempts : List Attempt) (i : Nat) (d : Int) (a : Attempt)
        (status : Nat) (link : String) (decoded : Bool),
        (getJSONPage (fun _ => none) maxRetries 0 attempts).sleeps[i]? = some d →
        attempts[i]? = some a → a.outcome = .response status "120" link decoded →
        min (120 * Clock.second) Clock.maxDuration ≤ d) ↔ 120 ≤ maxSeconds :=
  retryAfter_honoured_iff (by decide) (by decide)

/-- The first number of seconds that is not a duration: the worker tries again after its own delay,
and the client does not wait. -/
theorem retryAfter_overflow :
    Bluesky.Syncer.parseInt (trimSpace "9223372037") = some 9223372037 ∧
      parseRetryAfter (fun _ => none) "9223372037" 0 = -9223372036709551616 ∧
      ((newWorker 0 0).record 0 0 none (pushResult (fun _ => none) 429 "9223372037" 0)).map
        (·.nextAttempt) = some (15 * Clock.second) ∧
      (getJSONPage (fun _ => none) 1 0 [⟨.response 429 "9223372037" "" false, 0, false⟩]).sleeps =
        [-9223372036709551616] := by
  have hraw : Bluesky.Syncer.parseInt (trimSpace "9223372037") = some 9223372037 := by decide
  have hwrap : Clock.wrap (9223372037 * Clock.second) = -9223372036709551616 := by decide
  have hparse : parseRetryAfter (fun _ => none) "9223372037" 0 = -9223372036709551616 := by
    rw [parseRetryAfter_seconds hraw (by decide), hwrap]
    decide
  refine ⟨hraw, hparse, ?_, ?_⟩
  · have hpush : pushResult (fun _ => none) 429 "9223372037" 0 =
        .failed false (some (-9223372036709551616)) := by
      rw [← hparse]
      rfl
    rw [hpush]
    decide
  · have hsleep : (getJSONPage (fun _ => none) 1 0
        [⟨.response 429 "9223372037" "" false, 0, false⟩]).sleeps =
          [retryAfter (fun _ => none) "9223372037" 0 0] := rfl
    rw [hsleep, retryAfter_seconds hraw (by decide), hwrap]

end Bridge
