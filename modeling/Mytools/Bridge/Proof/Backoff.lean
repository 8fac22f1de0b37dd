import Mytools.Lib.Doubling
import Mytools.Bridge.Backoff

/-!
# The delays are those of unbounded integers

Both loops are loops of `Lib.Doubling`, so their results are the closed form of doubling up to a
bound, and the dispatcher's is the one that `Dispatcher.backoff` computes without a bound on its
integers.
-/

namespace Bridge.Backoff

open Lib Lib.Doubling

variable {max : Duration}

theorem orDefault_pos (d : Duration) {default : Duration} (h : 0 < default.toInt) :
    0 < (orDefault d default).toInt := by
  unfold orDefault
  split
  · exact h
  · next hd => exact Int64.lt_iff_toInt_lt.1 (Int64.not_le.1 hd)

theorem toInt_orDefault (d default : Duration) :
    (orDefault d default).toInt = if d.toInt ≤ 0 then default.toInt else d.toInt := by
  unfold orDefault
  rw [apply_ite Int64.toInt]
  exact if_congr Int64.le_iff_toInt_le rfl rfl

/-! ## The loops -/

theorem toInt_min (a b : Duration) : (min a b).toInt = min a.toInt b.toInt := by
  rw [show min a b = if a ≤ b then a else b from rfl, Int.min_def, apply_ite Int64.toInt]
  exact if_congr Int64.le_iff_toInt_le rfl rfl

/-- Past the loop the delay is cut at the bound. -/
theorem cut_of_le {d : Duration} (h : max ≤ d) : (if d > max then max else d) = max := by
  split
  · rfl
  · next hd => exact Int64.le_antisymm (Int64.not_lt.1 hd) h

theorem cut_of_lt {d : Duration} (h : d < max) : (if d > max then max else d) = d :=
  if_neg (Int64.not_lt.2 (Int64.le_of_lt h))

theorem backoffLoop_doubles (max : Duration) : Doubles max (backoffLoop max) where
  stop n d h := by
    have hd : ¬ d < max := Int64.not_lt.2 h
    cases n with
    | zero => exact cut_of_le h
    | succ n => simp only [backoffLoop, if_neg hd, cut_of_le h]
  done d h := cut_of_lt h
  cap n d h hc := by simp only [backoffLoop, if_pos h, gt_iff_lt, if_pos hc]
  double n d h hc := by simp only [backoffLoop, if_pos h, gt_iff_lt, if_neg hc]

theorem retryLoop_doubles (maxDelay : Duration) : Doubles maxDelay (retryLoop maxDelay) where
  stop n d h := by
    cases n with
    | zero => exact Int64.toInt_inj.1 (by
        rw [retryLoop, toInt_min]
        exact Int.min_eq_right (Int64.le_iff_toInt_le.1 h))
    | succ n => simp only [retryLoop, ge_iff_le, if_pos h]
  done d h := Int64.toInt_inj.1 (by
    rw [retryLoop, toInt_min]
    exact Int.min_eq_left (Int.le_of_lt (Int64.lt_iff_toInt_lt.1 h)))
  cap n d h hc := by
    simp only [retryLoop, ge_iff_le, if_neg (Int64.not_le.2 h), gt_iff_lt, if_pos hc]
  double n d h hc := by
    simp only [retryLoop, ge_iff_le, if_neg (Int64.not_le.2 h), gt_iff_lt, if_neg hc]

/-! ## The results -/

theorem toInt_backoff (baseBackoff maxBackoff : Duration) (attempts : Nat) :
    (backoff baseBackoff maxBackoff attempts).toInt =
      capped (orDefault maxBackoff minute).toInt (orDefault baseBackoff second).toInt attempts :=
  (backoffLoop_doubles _).toInt_eq attempts (orDefault_pos baseBackoff (by decide))

/-- The rounds of the unbounded loop, read as those of the closed form. -/
theorem dispatcher_backoffLoop (bound : Int) (n : Nat) {d : Int} (hd : 0 < d) :
    Dispatcher.backoffLoop bound n d = capped bound d n := by
  induction n generalizing d with
  | zero =>
    rw [Dispatcher.backoffLoop, capped_zero]
    omega
  | succ n ih =>
    unfold Dispatcher.backoffLoop
    split_ifs with h₁ h₂ h₃
    · exact (capped_of_half_lt (Int.le_of_lt hd) h₂).symm
    · rw [ih (by omega), capped_succ]
    · exact (capped_of_le (Int.le_of_lt hd) (Int.le_of_lt h₃)).symm
    · rw [capped_of_le (Int.le_of_lt hd) (by omega)]
      omega

/-- The wrapping arithmetic of the code and the unbounded arithmetic of the dispatcher's model
compute the same delays. -/
theorem toInt_backoff_eq_dispatcher (baseBackoff maxBackoff : Duration) (attempts : Nat) :
    (backoff baseBackoff maxBackoff attempts).toInt =
      Dispatcher.backoff ⟨baseBackoff.toInt, maxBackoff.toInt⟩ attempts := by
  have hbase : 0 < (orDefault baseBackoff second).toInt := orDefault_pos baseBackoff (by decide)
  rw [toInt_backoff, ← dispatcher_backoffLoop _ attempts hbase, toInt_orDefault, toInt_orDefault]
  rfl

theorem toInt_maintenanceRetryDelay (attempt : Nat) {checkInterval : Duration}
    (h : 0 < checkInterval.toInt) :
    (maintenanceRetryDelay attempt checkInterval).toInt =
      capped (checkInterval.toInt / 2) (min second.toInt (checkInterval.toInt / 2)) attempt := by
  have hhalf := toInt_half checkInterval (by omega)
  simp only [maintenanceRetryDelay]
  split
  · next h0 =>
    -- An interval of one nanosecond has no half.
    have h0' := Int64.le_iff_toInt_le.1 h0
    rw [show (0 : Duration).toInt = 0 from rfl] at h0' ⊢
    have hz : checkInterval.toInt / 2 = 0 := by omega
    rw [hz]
    exact (capped_of_le (by decide) (by decide)).symm
  · next h0 =>
    have h0' := Int64.lt_iff_toInt_lt.1 (Int64.not_le.1 h0)
    rw [show (0 : Duration).toInt = 0 from rfl] at h0'
    have hs : second.toInt = 1000000000 := rfl
    rw [(retryLoop_doubles _).toInt_eq attempt (by rw [toInt_min]; omega), toInt_min, hhalf]

/-- Both delays are exact: they are what unbounded integers give, and grow with the attempts. -/
theorem delays_exact :
    (∀ (baseBackoff maxBackoff : Duration) (attempts : Nat),
      (backoff baseBackoff maxBackoff attempts).toInt =
        min (if maxBackoff.toInt ≤ 0 then 60 * Dispatcher.second else maxBackoff.toInt)
          ((if baseBackoff.toInt ≤ 0 then Dispatcher.second
            else baseBackoff.toInt) * 2 ^ attempts)) ∧
    (∀ (baseBackoff maxBackoff : Duration) (attempts : Nat),
      (backoff baseBackoff maxBackoff attempts).toInt =
        Dispatcher.backoff ⟨baseBackoff.toInt, maxBackoff.toInt⟩ attempts) ∧
    (∀ (baseBackoff maxBackoff : Duration) (m n : Nat), m ≤ n →
      backoff baseBackoff maxBackoff m ≤ backoff baseBackoff maxBackoff n) ∧
    ∀ checkInterval : Duration, 0 < checkInterval →
      (∀ attempt : Nat, (maintenanceRetryDelay attempt checkInterval).toInt =
        min (checkInterval.toInt / 2)
          (min Dispatcher.second (checkInterval.toInt / 2) * 2 ^ attempt)) ∧
      ∀ m n : Nat, m ≤ n →
        maintenanceRetryDelay m checkInterval ≤ maintenanceRetryDelay n checkInterval := by
  refine ⟨fun baseBackoff maxBackoff attempts => ?_, toInt_backoff_eq_dispatcher,
    fun baseBackoff maxBackoff m n hmn => ?_, fun checkInterval hpos => ⟨fun attempt => ?_,
    fun m n hmn => ?_⟩⟩
  · rw [toInt_backoff, toInt_orDefault, toInt_orDefault]
    rfl
  · rw [Int64.le_iff_toInt_le, toInt_backoff, toInt_backoff]
    exact capped_mono (Int.le_of_lt (orDefault_pos baseBackoff (by decide))) hmn
  · exact toInt_maintenanceRetryDelay attempt (Int64.lt_iff_toInt_lt.1 hpos)
  · have h := Int64.lt_iff_toInt_lt.1 hpos
    rw [show (0 : Duration).toInt = 0 from rfl] at h
    have hs : second.toInt = 1000000000 := rfl
    rw [Int64.le_iff_toInt_le, toInt_maintenanceRetryDelay m h, toInt_maintenanceRetryDelay n h]
    exact capped_mono (by omega) hmn

/-- A check interval of three seconds: the retries wait for 1 s, then for 1.5 s. -/
theorem delays_exact_threeSeconds :
    (0 : Duration) < 3000000000 ∧
    ∀ m n : Nat, m ≤ n →
      maintenanceRetryDelay m 3000000000 ≤ maintenanceRetryDelay n 3000000000 :=
  ⟨by decide, (delays_exact.2.2.2 3000000000 (by decide)).2⟩

end Bridge.Backoff
