import Mathlib.Algebra.Order.Ring.Int
import Mytools.Bridge.Notification
import Mytools.Lib.Run

/-!
# The spacing of the pushes

What an evaluation does to one issue and one endpoint is a few attempts (`Attempted`): each leaves
the state of the pair as it is, or makes a push that the state allows. The three bounds on the
pushes are carried along any run of attempts (`Spaced`), and a stretch of evaluations is such a run.
-/

namespace Bridge.Notification

open Lib

/-! ## The delay -/

namespace Worker

variable {w w' : Worker}

theorem min_le_doubleDelay : ∀ (n : Nat) {d : Int}, 0 < d → ∀ m ≤ n,
    min (d * 2 ^ m) (15 * Clock.minute) ≤ doubleDelay d n
  | 0, d, _, m, hm => by
    obtain rfl : m = 0 := by omega
    simp [doubleDelay]
  | n + 1, d, hd, m, hm => by
    unfold doubleDelay
    split
    · cases m with
      | zero =>
        have h := min_le_doubleDelay n (d := d * 2) (by omega) 0 (by omega)
        simp only [pow_zero, mul_one] at h ⊢
        omega
      | succ m =>
        have h := min_le_doubleDelay n (d := d * 2) (by omega) m (by omega)
        rw [pow_succ', ← mul_assoc]
        exact h
    · omega

/-- The delay after a failure that at least `m` failures precede. -/
theorem le_retryDelay (he : 0 < w.evaluationInterval) {m n : Nat} (hm : m < n)
    (retryAfter : Option Int) :
    min (w.evaluationInterval * 2 ^ m) (15 * Clock.minute) ≤ w.retryDelay n retryAfter := by
  have h := min_le_doubleDelay (n - 1) he m (by omega)
  unfold retryDelay
  cases retryAfter with
  | none => simp only; omega
  | some d => simp only; omega

theorem record_congr (h : w.evaluationInterval = w'.evaluationInterval) :
    w.record = w'.record := by
  funext now u state result
  cases result <;> simp [record, retryDelay, h]

end Worker

/-! ## One issue and one endpoint -/

/-- The state of an endpoint with the last update `u`, unless it belongs to an earlier one. -/
def current (u : Int) (state : Option DeliveryState) : Option DeliveryState :=
  state.filter fun s => s.subscriptionUpdatedAt = u

/-- An attempt to push: nothing happens, or an outdated state is dropped, or the state allows a push
and records its result. -/
inductive Attempted (w : Worker) (u : Int) :
    Option DeliveryState → Option (Int × SendResult) → Option DeliveryState → Prop
  | idle {state} : Attempted w u state none state
  | refresh {state} : Attempted w u state none (current u state)
  | sent {state now result} :
      Worker.isEligible (current u state) now w.remindInterval = true →
      Attempted w u state (some (now, result)) (w.record now u (current u state) result)

def SendResult.Transient (r : SendResult) : Prop := ∃ retryAfter, r = .failed false retryAfter

def SendResult.Permanent (r : SendResult) : Prop := ∃ retryAfter, r = .failed true retryAfter

/-- The bounds on the pushes to one endpoint about one issue. -/
structure Spaced (remindInterval evaluationInterval : Int) (sends : List (Int × SendResult)) :
    Prop where
  delivered : sends.Pairwise fun a b =>
    a.2 = .delivered → b.2 = .delivered → remindInterval ≤ b.1 - a.1
  permanent : sends.Pairwise fun a _ => ¬a.2.Permanent
  transient : ∀ before fails last next after,
    sends = before ++ (fails ++ [last]) ++ next :: after → (∀ f ∈ fails, f.2.Transient) →
    last.2.Transient →
    min (evaluationInterval * 2 ^ fails.length) (15 * Clock.minute) ≤ next.1 - last.1

/-- What the state of the pair says about the pushes so far. -/
structure Remembers (w : Worker) (u : Int) (sends : List (Int × SendResult)) (s : DeliveryState) :
    Prop where
  updatedAt : s.subscriptionUpdatedAt = u
  delivered : ∀ a ∈ sends, a.2 = .delivered →
    (s.nextAttempt = Clock.zero ∧ s.lastSuccess = a.1 ∧ a.1 ≠ Clock.zero) ∨
      ∃ b ∈ sends, w.remindInterval ≤ b.1 - a.1
  permanent : ∀ a ∈ sends, a.2.Permanent → s.permanentFailure = true
  transient : ∀ before fails last, sends = before ++ (fails ++ [last]) →
    (∀ f ∈ fails, f.2.Transient) → last.2.Transient →
    fails.length < s.failureCount ∧ s.nextAttempt ≠ Clock.zero ∧
      last.1 + min (w.evaluationInterval * 2 ^ fails.length) (15 * Clock.minute) ≤ s.nextAttempt

/-- The invariant of a run of attempts. -/
structure Tracked (w : Worker) (u : Int) (sends : List (Int × SendResult))
    (state : Option DeliveryState) : Prop where
  spaced : Spaced w.remindInterval w.evaluationInterval sends
  remembers : sends = [] ∨ ∃ s, state = some s ∧ Remembers w u sends s

variable {w : Worker} {u now : Int} {sends : List (Int × SendResult)} {state : Option DeliveryState}
  {result : SendResult}

theorem current_some {s : DeliveryState} (h : s.subscriptionUpdatedAt = u) :
    current u (some s) = some s := by
  simp [current, h]

theorem Tracked.refresh (h : Tracked w u sends state) : Tracked w u sends (current u state) := by
  refine ⟨h.spaced, h.remembers.imp_right ?_⟩
  rintro ⟨s, rfl, hs⟩
  exact ⟨s, current_some hs.updatedAt, hs⟩

/-- What a push that the state allows keeps off from. -/
structure Allowed (w : Worker) (sends : List (Int × SendResult)) (now : Int) : Prop where
  delivered : ∀ a ∈ sends, a.2 = .delivered → w.remindInterval ≤ now - a.1
  permanent : ∀ a ∈ sends, ¬a.2.Permanent
  transient : ∀ before fails last, sends = before ++ (fails ++ [last]) →
    (∀ f ∈ fails, f.2.Transient) → last.2.Transient →
    min (w.evaluationInterval * 2 ^ fails.length) (15 * Clock.minute) ≤ now - last.1

theorem le_of_le_sub {d t v : Int} (hd : 0 < d) (h : d ≤ Clock.sub t v) : d ≤ t - v := by
  unfold Clock.sub Clock.minDuration at h
  omega

theorem Remembers.allowed {s : DeliveryState} (hr : 0 < w.remindInterval)
    (h : Remembers w u sends s) (hlast : ∀ a ∈ sends, a.1 ≤ now)
    (hok : Worker.isEligible (some s) now w.remindInterval = true) : Allowed w sends now := by
  have hperm : s.permanentFailure = false := by
    cases hp : s.permanentFailure with
    | false => rfl
    | true => simp [Worker.isEligible, hp] at hok
  simp only [Worker.isEligible, hperm, Bool.false_eq_true, if_false] at hok
  refine ⟨?_, ?_, ?_⟩
  · intro a ha hd
    rcases h.delivered a ha hd with ⟨hnext, hsucc, hne⟩ | ⟨b, hb, hle⟩
    · rw [if_neg (by simpa using hnext), hsucc, decide_eq_true_eq] at hok
      exact le_of_le_sub hr (hok.resolve_left hne)
    · have := hlast b hb
      omega
  · intro a ha hp
    rw [h.permanent a ha hp] at hperm
    cases hperm
  · intro before fails last he hf hl
    obtain ⟨-, hne, hle⟩ := h.transient before fails last he hf hl
    rw [if_pos hne] at hok
    simp only [Bool.not_eq_true', decide_eq_false_iff_not] at hok
    omega

theorem Tracked.allowed (hr : 0 < w.remindInterval) (h : Tracked w u sends state)
    (hlast : ∀ a ∈ sends, a.1 ≤ now)
    (hok : Worker.isEligible (current u state) now w.remindInterval = true) :
    Allowed w sends now := by
  rcases h.remembers with rfl | ⟨s, rfl, hs⟩
  · exact ⟨by simp, by simp, by simp⟩
  · rw [current_some hs.updatedAt] at hok
    exact hs.allowed hr hlast hok

theorem Spaced.snoc {x : Int × SendResult} (h : Spaced w.remindInterval w.evaluationInterval sends)
    (ha : Allowed w sends x.1) : Spaced w.remindInterval w.evaluationInterval (sends ++ [x]) where
  delivered := by
    rw [List.pairwise_append]
    refine ⟨h.delivered, List.pairwise_singleton _ _, fun a hm b hb hd _ => ?_⟩
    rw [List.mem_singleton.1 hb]
    exact ha.delivered a hm hd
  permanent := by
    rw [List.pairwise_append]
    exact ⟨h.permanent, List.pairwise_singleton _ _, fun a hm b _ => ha.permanent a hm⟩
  transient before fails last next after he hf hl := by
    -- the push after the failures is the new one or an old one
    obtain ⟨rfl, rfl, -⟩ | ⟨mid, -, rfl⟩ := Lib.snoc_eq_append_cons he
    · exact ha.transient before fails last rfl hf hl
    · exact h.transient before fails last next mid rfl hf hl

/-- The number of failures in a row that the state counts. -/
theorem Tracked.count (h : Tracked w u sends state) {before fails : List (Int × SendResult)}
    (he : sends = before ++ fails) (hf : ∀ f ∈ fails, f.2.Transient) :
    fails.length ≤ ((current u state).getD {}).failureCount := by
  rcases List.eq_nil_or_concat fails with rfl | ⟨fails, last, rfl⟩
  · exact Nat.zero_le _
  · rw [List.concat_eq_append] at he hf ⊢
    rcases h.remembers with rfl | ⟨s, rfl, hs⟩
    · simp at he
    · obtain ⟨hlt, -⟩ := hs.transient before fails last he
        (fun f hm => hf f (List.mem_append_left _ hm)) (hf last (by simp))
      rw [current_some hs.updatedAt, List.length_append]
      exact hlt

theorem Tracked.recorded (he : 0 < w.evaluationInterval) (hz : Clock.zero < now)
    (h : Tracked w u sends state) (ha : Allowed w sends now) (hx : result ≠ .expired) :
    ∃ s, w.record now u (current u state) result = some s ∧
      Remembers w u (sends ++ [(now, result)]) s := by
  have hold : ∀ a ∈ sends, a.2 = .delivered →
      ∃ b ∈ sends ++ [(now, result)], w.remindInterval ≤ b.1 - a.1 := fun a hm hd =>
    ⟨(now, result), by simp, ha.delivered a hm hd⟩
  have hperm : ∀ a ∈ sends ++ [(now, result)], a.2.Permanent → a = (now, result) := by
    intro a hm hp
    rcases List.mem_append.1 hm with hm | hm
    · exact absurd hp (ha.permanent a hm)
    · exact List.mem_singleton.1 hm
  cases result with
  | expired => exact absurd rfl hx
  | delivered =>
    refine ⟨_, rfl, rfl, ?_, ?_, ?_⟩
    · intro a hm hd
      rcases List.mem_append.1 hm with hm | hm
      · exact .inr (hold a hm hd)
      · rw [List.mem_singleton.1 hm]
        exact .inl ⟨rfl, rfl, by omega⟩
    · rintro a hm hp
      rw [hperm a hm hp] at hp
      obtain ⟨r, hr⟩ := hp
      cases hr
    · rintro before fails last heq - ⟨r, hr⟩
      rw [← List.append_assoc] at heq
      obtain ⟨-, hl⟩ := List.append_inj' heq rfl
      rw [← List.singleton_inj.1 hl] at hr
      cases hr
  | failed permanent retryAfter =>
    refine ⟨_, rfl, rfl, ?_, ?_, ?_⟩
    · intro a hm hd
      rcases List.mem_append.1 hm with hm | hm
      · exact .inr (hold a hm hd)
      · rw [List.mem_singleton.1 hm] at hd
        cases hd
    · rintro a hm hp
      rw [hperm a hm hp] at hp
      obtain ⟨r, hr⟩ := hp
      cases hr
      rfl
    · intro before fails last heq hf hl
      rw [← List.append_assoc] at heq
      obtain ⟨hs, hlast⟩ := List.append_inj' heq rfl
      rw [← List.singleton_inj.1 hlast]
      have hcount := h.count hs hf
      have hdelay := Worker.le_retryDelay he (Nat.lt_add_one_of_le hcount) retryAfter
      have hpow : 0 < w.evaluationInterval * 2 ^ fails.length :=
        Int.mul_pos he (pow_pos (by decide) _)
      have hmin : (0 : Int) < 15 * Clock.minute := by decide
      simp only
      omega

/-- A push whose time is no earlier than the last one's, with a result that is not `expired`. -/
theorem Tracked.step {a : Option (Int × SendResult)} {state' : Option DeliveryState}
    (hr : 0 < w.remindInterval) (he : 0 < w.evaluationInterval) (h : Tracked w u sends state)
    (hs : Attempted w u state a state')
    (ha : ∀ x, a = some x → Clock.zero < x.1 ∧ x.2 ≠ .expired ∧ ∀ y ∈ sends, y.1 ≤ x.1) :
    Tracked w u (sends ++ a.toList) state' := by
  cases hs with
  | idle => simpa using h
  | refresh => simpa using h.refresh
  | sent hok =>
    obtain ⟨hz, hx, hlast⟩ := ha _ rfl
    have hallowed := h.allowed hr hlast hok
    exact ⟨h.spaced.snoc hallowed, .inr (h.recorded he hz hallowed hx)⟩

/-- Along any run of attempts the pushes are spaced. -/
theorem spaced_of_runs {as : List (Option (Int × SendResult))} {state' : Option DeliveryState}
    (hr : 0 < w.remindInterval) (he : 0 < w.evaluationInterval)
    (h : Runs (Attempted w u) state as state')
    (hclock : (as.filterMap id).Pairwise fun x y => x.1 ≤ y.1)
    (hzero : ∀ x ∈ as.filterMap id, Clock.zero < x.1)
    (hexpired : ∀ x ∈ as.filterMap id, x.2 ≠ .expired) :
    Tracked w u (as.filterMap id) state' := by
  induction h with
  | nil => exact ⟨⟨.nil, .nil, by simp⟩, .inl rfl⟩
  | @snoc as a t t' _ hs ih =>
    have hsplit : (as ++ [a]).filterMap id = as.filterMap id ++ a.toList := by
      cases a <;> simp
    rw [hsplit] at hclock hzero hexpired ⊢
    rw [List.pairwise_append] at hclock
    refine (ih hclock.1 (fun x hx => hzero x (List.mem_append_left _ hx))
      fun x hx => hexpired x (List.mem_append_left _ hx)).step hr he hs ?_
    rintro x rfl
    exact ⟨hzero x (by simp), hexpired x (by simp), fun y hy => hclock.2.2 y hy x (by simp)⟩

/-! ## Evaluations -/

namespace Worker

def stateOf (w : Worker) (issue endpoint : String) : Option DeliveryState :=
  (w.activeIssues.get? issue).bind (·.get? endpoint)

/-- The pushes about one issue to one endpoint. -/
def pushes (issue endpoint : String) (sent : List Sent) : List (Int × SendResult) :=
  sent.filterMap fun s =>
    if s.issue = issue ∧ s.endpoint = endpoint then some (s.time, s.result) else none

variable {ev : Evaluation} {subs : Table String Int} {states : Table String DeliveryState}
  {expired : List String} {i p : String} {pos : Nat}

theorem get?_store (x : String × Int × SendResult) : (w.store now states x).get? p =
    if p = x.1 then w.record now x.2.1 (states.get? x.1) x.2.2 else states.get? p := by
  unfold store
  split
  · rename_i h
    rw [Table.get?_set, h]
  · rename_i h
    rw [Table.get?_erase, h]

theorem get?_foldl_store_of_not_mem : ∀ (results : List (String × Int × SendResult))
    (states : Table String DeliveryState), p ∉ results.map (·.1) →
    (results.foldl (w.store now) states).get? p = states.get? p
  | [], _, _ => rfl
  | x :: results, states, h => by
    rw [List.map_cons, List.mem_cons, not_or] at h
    rw [List.foldl_cons, get?_foldl_store_of_not_mem results _ h.2, get?_store, if_neg h.1]

theorem get?_foldl_store_of_mem : ∀ (results : List (String × Int × SendResult))
    (states : Table String DeliveryState), (results.map (·.1)).Nodup → (p, u, result) ∈ results →
    (results.foldl (w.store now) states).get? p = w.record now u (states.get? p) result
  | x :: results, states, hn, hm => by
    rw [List.map_cons, List.nodup_cons] at hn
    rw [List.foldl_cons]
    rcases List.mem_cons.1 hm with rfl | hm
    · rw [get?_foldl_store_of_not_mem results _ hn.1, get?_store, if_pos rfl]
    · have hne : p ≠ x.1 := by
        rintro rfl
        exact hn.1 (List.mem_map.2 ⟨_, hm, rfl⟩)
      rw [get?_foldl_store_of_mem results _ hn.2 hm, get?_store, if_neg hne]

theorem deliver_nodup : ((w.deliver ev pos subs states expired).map (·.1)).Nodup := by
  have hrows : subs.rows.Pairwise fun x y => x.1 ≠ y.1 := List.pairwise_map.1 subs.nodup
  rw [List.Nodup, List.pairwise_map, deliver, List.pairwise_filterMap]
  refine (hrows.sublist List.filter_sublist).imp ?_
  intro x y hne a ha b hb
  obtain ⟨r, -, rfl⟩ := Option.map_eq_some_iff.1 ha
  obtain ⟨r', -, rfl⟩ := Option.map_eq_some_iff.1 hb
  exact hne

theorem mem_deliver (hsub : subs.get? p = some u) {x : String × Int × SendResult}
    (h : x ∈ w.deliver ev pos subs states expired) (hp : x.1 = p) :
    x.2.1 = u ∧ isEligible (states.get? p) ev.now w.remindInterval = true := by
  obtain ⟨y, hy, hx⟩ := List.mem_filterMap.1 h
  obtain ⟨r, -, rfl⟩ := Option.map_eq_some_iff.1 hx
  obtain ⟨hrow, hok⟩ := List.mem_filter.1 hy
  subst hp
  have hu : subs.get? y.1 = some y.2 := Table.get?_eq_some_iff.2 hrow
  simp only [Bool.and_eq_true] at hok
  exact ⟨Option.some.inj (hu.symm.trans hsub), hok.2⟩

/-- The one result for an endpoint. -/
theorem pushes_of_mem : ∀ (results : List (String × Int × SendResult)),
    (results.map (·.1)).Nodup → (p, u, result) ∈ results →
    pushes i p (results.map fun x => ⟨i, x.1, now, x.2.2⟩) = [(now, result)]
  | x :: results, hn, hm => by
    rw [List.map_cons, List.nodup_cons] at hn
    have hrest : x.1 = p → pushes i p (results.map fun y => ⟨i, y.1, now, y.2.2⟩) = [] := by
      rintro rfl
      refine List.filterMap_eq_nil_iff.2 fun s hs => ?_
      obtain ⟨y, hy, rfl⟩ := List.mem_map.1 hs
      rw [if_neg]
      rintro ⟨-, he⟩
      exact hn.1 (he ▸ List.mem_map_of_mem hy)
    rcases List.mem_cons.1 hm with rfl | hm
    · rw [List.map_cons, pushes, List.filterMap_cons_some (by rw [if_pos ⟨rfl, rfl⟩])]
      exact congrArg _ (hrest rfl)
    · have hne : x.1 ≠ p := by
        rintro rfl
        exact hn.1 (List.mem_map.2 ⟨_, hm, rfl⟩)
      rw [List.map_cons, pushes, List.filterMap_cons_none (by rw [if_neg (fun h => hne h.2)])]
      exact pushes_of_mem results hn.2 hm

theorem pushes_of_not_mem {results : List (String × Int × SendResult)} {j : String}
    (h : j ≠ i ∨ p ∉ results.map (·.1)) :
    pushes i p (results.map fun x => ⟨j, x.1, now, x.2.2⟩) = [] := by
  refine List.filterMap_eq_nil_iff.2 fun s hs => ?_
  obtain ⟨y, hy, rfl⟩ := List.mem_map.1 hs
  rw [if_neg]
  rintro ⟨hj, hp⟩
  exact h.elim (fun h => h hj) fun h => h (hp ▸ List.mem_map_of_mem hy)

theorem get?_currentStates (hsub : subs.get? p = some u) :
    (currentStates subs ((w.activeIssues.get? i).getD .empty)).get? p =
      current u (w.stateOf i p) := by
  have hstate : ((w.activeIssues.get? i).getD .empty).get? p = w.stateOf i p := by
    unfold stateOf
    cases w.activeIssues.get? i <;> rfl
  rw [currentStates, Table.get?_filter, hstate, hsub, current]
  congr 1
  funext s
  simp [eq_comm]

theorem stateOf_setStates {j : String} : (w.setStates j states).stateOf i p =
    if i = j then states.get? p else w.stateOf i p := by
  unfold stateOf setStates
  rw [Table.get?_set]
  split <;> rfl

/-- One issue is one attempt for each pair. -/
theorem issue_attempted (w : Worker) (ev : Evaluation) (pos : Nat) (expired : List String)
    (hsub : subs.get? p = some u) (j : String) :
    let states := currentStates subs ((w.activeIssues.get? j).getD .empty)
    let results := w.deliver ev pos subs states expired
    ∃ a, Attempted w u (w.stateOf i p) a
        ((w.setStates j (results.foldl (w.store ev.now) states)).stateOf i p) ∧
      pushes i p (results.map fun x => ⟨j, x.1, ev.now, x.2.2⟩) = a.toList := by
  intro states results
  by_cases hj : j = i
  · subst hj
    have hst : states.get? p = current u (w.stateOf j p) := get?_currentStates hsub
    rw [stateOf_setStates, if_pos rfl]
    by_cases hp : p ∈ results.map (·.1)
    · obtain ⟨⟨q, v, r⟩, hm, rfl⟩ := List.mem_map.1 hp
      obtain ⟨rfl, hok⟩ := mem_deliver hsub hm rfl
      rw [get?_foldl_store_of_mem results states deliver_nodup hm, hst]
      rw [hst] at hok
      exact ⟨_, .sent hok, pushes_of_mem results deliver_nodup hm⟩
    · rw [get?_foldl_store_of_not_mem results states hp, hst]
      exact ⟨none, .refresh, pushes_of_not_mem (.inr hp)⟩
  · refine ⟨none, ?_, pushes_of_not_mem (.inl hj)⟩
    rw [stateOf_setStates, if_neg (Ne.symm hj)]
    exact .idle

/-- The settings that the attempts depend on. -/
def SameIntervals (w w' : Worker) : Prop :=
  w.remindInterval = w'.remindInterval ∧ w.evaluationInterval = w'.evaluationInterval

theorem runs_of_sameIntervals {w w' : Worker} {as : List (Option (Int × SendResult))}
    {state state' : Option DeliveryState} (hr : Runs (Attempted w' u) state as state')
    (h : SameIntervals w w') : Runs (Attempted w u) state as state' := by
  refine hr.mono ?_
  intro s a t hs
  cases hs with
  | idle => exact .idle
  | refresh => exact .refresh
  | sent hok =>
    rw [← record_congr h.2]
    exact .sent (h.1 ▸ hok)

theorem pushes_append (sent sent' : List Sent) :
    pushes i p (sent ++ sent') = pushes i p sent ++ pushes i p sent' := List.filterMap_append

/-- The pushes `sent` of a step from `w` to `w'` are those of a run of attempts at one instant. -/
structure Attempts (u : Int) (i p : String) (w : Worker) (now : Int) (w' : Worker)
    (sent : List Sent) : Prop where
  intervals : SameIntervals w w'
  runs : ∃ as, Runs (Attempted w u) (w.stateOf i p) as (w'.stateOf i p) ∧
    pushes i p sent = as.filterMap id
  time : ∀ s ∈ sent, s.time = now

theorem attempts_refl (h : w.stateOf i p = w'.stateOf i p) (hi : SameIntervals w w') :
    Attempts u i p w now w' [] :=
  ⟨hi, ⟨[], h ▸ .nil, rfl⟩, by simp⟩

theorem Attempts.cons {w₁ w₂ : Worker} {a : Option (Int × SendResult)} {sent sent' : List Sent}
    (ha : Attempted w u (w.stateOf i p) a (w₁.stateOf i p)) (hp : pushes i p sent = a.toList)
    (h : Attempts u i p w₁ now w₂ sent') (hi : SameIntervals w w₁) (ht : ∀ s ∈ sent, s.time = now) :
    Attempts u i p w now w₂ (sent ++ sent') := by
  obtain ⟨hint, ⟨as, hr, hpr⟩, htime⟩ := h
  refine ⟨⟨hi.1.trans hint.1, hi.2.trans hint.2⟩,
    ⟨[a] ++ as, (Runs.one ha).append (runs_of_sameIntervals hr hi), ?_⟩, ?_⟩
  · rw [pushes_append, hpr, List.filterMap_append, hp]
    cases a <;> rfl
  · intro s hs
    exact (List.mem_append.1 hs).elim (ht s) (htime s)

theorem sendIssues_attempts (hsub : subs.get? p = some u) : ∀ (issues : List Issue) (pos : Nat)
    (w : Worker) (expired : List String),
    Attempts u i p w ev.now (sendIssues ev subs issues pos w expired).1
      (sendIssues ev subs issues pos w expired).2
  | [], _, _, _ => attempts_refl rfl ⟨rfl, rfl⟩
  | issue :: issues, pos, w, expired => by
    unfold sendIssues
    split
    · exact attempts_refl rfl ⟨rfl, rfl⟩
    · obtain ⟨a, ha, hpa⟩ := issue_attempted w ev pos expired hsub issue.id
      refine .cons ha hpa (sendIssues_attempts hsub issues (pos + 1) _ _) ⟨rfl, rfl⟩ ?_
      intro s hs
      obtain ⟨x, -, rfl⟩ := List.mem_map.1 hs
      rfl

theorem sendNotifications_attempts (w : Worker) (ev : Evaluation) (issues : List Issue)
    (hsub : ∀ subs, ev.subscriptions = some subs → subs.get? p = some u) :
    Attempts u i p w ev.now (w.sendNotifications ev issues).1
      (w.sendNotifications ev issues).2 := by
  unfold sendNotifications
  split
  · exact attempts_refl rfl ⟨rfl, rfl⟩
  · split
    · exact attempts_refl rfl ⟨rfl, rfl⟩
    · rename_i subs hs
      split
      · exact attempts_refl rfl ⟨rfl, rfl⟩
      · exact sendIssues_attempts (hsub subs hs) issues 0 w []

theorem evaluateSnapshot_attempts {C : Cases}
    (hdet : ∃ issue ∈ w.detected C ev, issue.id = i)
    (hsub : ∀ subs, ev.subscriptions = some subs → subs.get? p = some u) :
    Attempts u i p w ev.now (w.evaluateSnapshot C ev).1 (w.evaluateSnapshot C ev).2 := by
  let v := (w.filterTransientStreamIssues C ev.snapshot (detectIssues C ev.snapshot)).1
  let v' : Worker := { v with
    activeIssues := v.activeIssues.filter fun id _ => (w.detected C ev).any (·.id = id) }
  -- the issue is still detected, so that its states are kept
  have hstate : v'.stateOf i p = w.stateOf i p := by
    have hany : (w.detected C ev).any (·.id = i) = true := by
      obtain ⟨issue, hm, hid⟩ := hdet
      exact List.any_eq_true.2 ⟨issue, hm, decide_eq_true hid⟩
    have hget : v'.activeIssues.get? i = w.activeIssues.get? i := by
      rw [Table.get?_filter, hany]
      show (w.activeIssues.get? i).filter (fun _ => true) = _
      cases w.activeIssues.get? i <;> rfl
    rw [stateOf, stateOf, hget]
  obtain ⟨hint, ⟨as, hr, hp⟩, htime⟩ := sendNotifications_attempts (i := i) v' ev
    (w.detected C ev) hsub
  rw [hstate] at hr
  exact ⟨hint, ⟨as, runs_of_sameIntervals hr ⟨rfl, rfl⟩, hp⟩, htime⟩

/-! ## Stretches -/

/-- In every evaluation the issue is detected after the transient filter, and the endpoint is listed
with the last update `u` if the subscriptions can be listed. -/
def Stretch (C : Cases) (i p : String) (u : Int) : Worker → List Evaluation → Prop
  | _, [] => True
  | w, ev :: evs => (∃ issue ∈ w.detected C ev, issue.id = i) ∧
      (∀ subs, ev.subscriptions = some subs → subs.get? p = some u) ∧
      Stretch C i p u (w.evaluateSnapshot C ev).1 evs

theorem evaluateAll_attempts {C : Cases} : ∀ (evs : List Evaluation) (w : Worker),
    Stretch C i p u w evs → evs.Pairwise (fun a b => a.now ≤ b.now) →
    (∃ as state', Runs (Attempted w u) (w.stateOf i p) as state' ∧
      pushes i p (w.evaluateAll C evs).2 = as.filterMap id) ∧
    (∀ x ∈ pushes i p (w.evaluateAll C evs).2, ∃ ev ∈ evs, x.1 = ev.now) ∧
    (pushes i p (w.evaluateAll C evs).2).Pairwise fun x y => x.1 ≤ y.1
  | [], w, _, _ => ⟨⟨[], _, .nil, rfl⟩, nofun, .nil⟩
  | ev :: evs, w, ⟨hdet, hsub, hs⟩, hclock => by
    rw [List.pairwise_cons] at hclock
    obtain ⟨hint, ⟨as, hr, hp⟩, htime⟩ := evaluateSnapshot_attempts hdet hsub
    obtain ⟨⟨bs, state', hr', hp'⟩, htimes, hmono⟩ := evaluateAll_attempts evs _ hs hclock.2
    have hnow : ∀ x ∈ pushes i p (w.evaluateSnapshot C ev).2, x.1 = ev.now := by
      intro x hx
      obtain ⟨s, hs, hx⟩ := List.mem_filterMap.1 hx
      split at hx
      · cases hx
        exact htime s hs
      · cases hx
    have hsplit : pushes i p (w.evaluateAll C (ev :: evs)).2 =
        pushes i p (w.evaluateSnapshot C ev).2 ++
          pushes i p ((w.evaluateSnapshot C ev).1.evaluateAll C evs).2 := pushes_append _ _
    rw [hsplit]
    refine ⟨⟨as ++ bs, state', hr.append (runs_of_sameIntervals hr' hint), ?_⟩, ?_, ?_⟩
    · rw [hp, hp', List.filterMap_append]
    · intro x hx
      rcases List.mem_append.1 hx with hx | hx
      · exact ⟨ev, List.mem_cons_self, hnow x hx⟩
      · obtain ⟨ev', hm, he⟩ := htimes x hx
        exact ⟨ev', List.mem_cons_of_mem _ hm, he⟩
    · rw [List.pairwise_append]
      refine ⟨?_, hmono, ?_⟩
      · refine List.Pairwise.imp_of_mem ?_ (List.pairwise_of_forall (R := fun _ _ => True)
          fun _ _ => trivial)
        intro x y hx hy _
        rw [hnow x hx, hnow y hy]
      · intro x hx y hy
        obtain ⟨ev', hm, he⟩ := htimes y hy
        rw [hnow x hx, he]
        exact hclock.1 ev' hm

/-- Over a stretch of evaluations after the zero time the pushes keep the three bounds. -/
theorem pushes_spaced (C : Cases) (w : Worker) (hr : 0 < w.remindInterval)
    (he : 0 < w.evaluationInterval) (i p : String) (u : Int) (evs : List Evaluation)
    (hs : Stretch C i p u w evs) (hclock : evs.Pairwise fun a b => a.now ≤ b.now)
    (hzero : ∀ ev ∈ evs, Clock.zero < ev.now)
    (hexpired : ∀ x ∈ pushes i p (w.evaluateAll C evs).2, x.2 ≠ .expired) :
    Spaced w.remindInterval w.evaluationInterval (pushes i p (w.evaluateAll C evs).2) := by
  obtain ⟨⟨as, state', hruns, hp⟩, htimes, hmono⟩ := evaluateAll_attempts evs w hs hclock
  rw [hp] at hexpired htimes hmono ⊢
  refine (spaced_of_runs hr he hruns hmono (fun x hx => ?_) hexpired).spaced
  obtain ⟨ev, hm, hx⟩ := htimes x hx
  rw [hx]
  exact hzero ev hm

/-! ## Samples -/

/-- The dispatcher is stopped and one subscription is listed; every push comes to `result`. -/
def sampleEvaluation (now : Int) (result : SendResult) : Evaluation where
  snapshot := ⟨false, false, .empty⟩
  now := now
  subscriptions := some (Table.empty.set "push" 0)
  cancelled _ := false
  send _ _ := some result

def sampleCases : Cases := ⟨id, id⟩

/-- Two evaluations a nanosecond apart whose pushes fail with a transient error. -/
def hastyRetry (start : Int) : List Evaluation :=
  [sampleEvaluation start (.failed false none),
    sampleEvaluation (start + 1) (.failed false none)]

theorem hastyRetry_stretch (start : Int) :
    Stretch sampleCases "system:dispatcher_stopped" "push" 0 (newWorker 0 0) (hastyRetry start) :=
  ⟨⟨_, List.mem_cons_self, rfl⟩, fun _ h => Option.some.inj h ▸ rfl,
    ⟨_, List.mem_cons_self, rfl⟩, fun _ h => Option.some.inj h ▸ rfl, trivial⟩

theorem hastyRetry_clock (start : Int) :
    (hastyRetry start).Pairwise fun a b => a.now ≤ b.now := by
  simp only [hastyRetry, sampleEvaluation, List.pairwise_cons, List.mem_singleton, forall_eq]
  exact ⟨by omega, by simp, .nil⟩

/-- Before the zero time the instant of the next attempt can be the zero time, which stands for no
such instant: the push is repeated after a nanosecond and not after fifteen seconds. -/
theorem hastyRetry_not_spaced :
    Stretch sampleCases "system:dispatcher_stopped" "push" 0 (newWorker 0 0)
        (hastyRetry (Clock.zero - 15 * Clock.second)) ∧
      (hastyRetry (Clock.zero - 15 * Clock.second)).Pairwise (fun a b => a.now ≤ b.now) ∧
      (∀ ev ∈ hastyRetry (Clock.zero - 15 * Clock.second), ev.now ≠ Clock.zero) ∧
      (∀ x ∈ pushes "system:dispatcher_stopped" "push" ((newWorker 0 0).evaluateAll sampleCases
        (hastyRetry (Clock.zero - 15 * Clock.second))).2, x.2 ≠ .expired) ∧
      ¬Spaced (newWorker 0 0).remindInterval (newWorker 0 0).evaluationInterval
        (pushes "system:dispatcher_stopped" "push" ((newWorker 0 0).evaluateAll sampleCases
          (hastyRetry (Clock.zero - 15 * Clock.second))).2) := by
  have hsends : pushes "system:dispatcher_stopped" "push" ((newWorker 0 0).evaluateAll sampleCases
      (hastyRetry (Clock.zero - 15 * Clock.second))).2 =
        [(Clock.zero - 15 * Clock.second, .failed false none),
          (Clock.zero - 15 * Clock.second + 1, .failed false none)] := by decide
  rw [hsends]
  refine ⟨hastyRetry_stretch _, hastyRetry_clock _, ?_, by simp, ?_⟩
  · rintro ev (_ | ⟨_, _ | ⟨_, ⟨⟩⟩⟩) <;> decide
  · intro h
    have := h.transient [] [] _ _ [] rfl (by simp) ⟨_, rfl⟩
    exact absurd this (by decide)

/-- After the zero time the second evaluation waits. -/
theorem pushes_spaced_waiting :
    Spaced (newWorker 0 0).remindInterval (newWorker 0 0).evaluationInterval
        (pushes "system:dispatcher_stopped" "push"
          ((newWorker 0 0).evaluateAll sampleCases (hastyRetry 0)).2) ∧
      (pushes "system:dispatcher_stopped" "push"
        ((newWorker 0 0).evaluateAll sampleCases (hastyRetry 0)).2).length = 1 := by
  have hsends : pushes "system:dispatcher_stopped" "push"
      ((newWorker 0 0).evaluateAll sampleCases (hastyRetry 0)).2 =
        [(0, .failed false none)] := by decide
  refine ⟨pushes_spaced sampleCases (newWorker 0 0) (by decide) (by decide)
    "system:dispatcher_stopped" "push" 0 (hastyRetry 0) (hastyRetry_stretch 0)
    (hastyRetry_clock 0) ?_ (by rw [hsends]; simp), by rw [hsends]; rfl⟩
  rintro ev (_ | ⟨_, _ | ⟨_, ⟨⟩⟩⟩) <;> decide

end Worker

end Bridge.Notification
