import Mathlib.Tactic.Positivity
import Mathlib.Tactic.Ring

/-!
# Doubling up to a bound

A delay that doubles in every round until it meets a bound, on 64-bit integers. A loop that never
doubles a delay above half of the bound computes what unbounded integers would: `Doubles` says what
the rounds of such a loop do, and `Doubles.toInt_eq` gives its result.
-/

namespace Lib.Doubling

/-- The delay after `n` rounds from `d`, in unbounded integers. -/
def capped (bound d : Int) (n : Nat) : Int := min bound (d * 2 ^ n)

variable {bound d : Int} {m n : Nat}

theorem capped_zero : capped bound d 0 = min bound d := by
  simp [capped]

theorem capped_succ : capped bound d (n + 1) = capped bound (d * 2) n := by
  unfold capped
  rw [show d * 2 ^ (n + 1) = d * 2 * 2 ^ n by ring]

/-- A delay does not shrink. -/
theorem le_mul_pow (hd : 0 ≤ d) (n : Nat) : d ≤ d * 2 ^ n := by
  have h : (1 : Int) ≤ 2 ^ n := by exact_mod_cast Nat.one_le_two_pow
  calc d = d * 1 := by ring
    _ ≤ d * 2 ^ n := mul_le_mul_of_nonneg_left h hd

theorem capped_of_le (hd : 0 ≤ d) (h : bound ≤ d) : capped bound d n = bound := by
  have := le_mul_pow hd n
  unfold capped
  omega

/-- Beyond half of the bound, one more round meets the bound, for an odd bound too. -/
theorem capped_of_half_lt (hd : 0 ≤ d) (h : bound / 2 < d) : capped bound d (n + 1) = bound := by
  rw [capped_succ]
  exact capped_of_le (by omega) (by omega)

theorem capped_mono (hd : 0 ≤ d) (h : m ≤ n) : capped bound d m ≤ capped bound d n := by
  obtain ⟨k, rfl⟩ := Nat.exists_eq_add_of_le h
  have hk : d * 2 ^ m ≤ d * 2 ^ m * 2 ^ k := le_mul_pow (by positivity) k
  rw [mul_assoc, ← pow_add] at hk
  unfold capped
  omega

/-! ## On 64-bit integers -/

theorem toInt_half (a : Int64) (ha : 0 ≤ a.toInt) : (a / 2).toInt = a.toInt / 2 := by
  rw [Int64.toInt_div_of_ne_right a 2 (by decide), show (2 : Int64).toInt = 2 from rfl]
  exact Int.tdiv_eq_ediv_of_nonneg ha

/-- Doubling is exact where the double fits. -/
theorem toInt_double {a : Int64} (h₀ : 0 ≤ a.toInt) (h : a.toInt * 2 < 2 ^ 63) :
    (a * 2).toInt = a.toInt * 2 := by
  rw [Int64.toInt_mul, show (2 : Int64).toInt = 2 from rfl]
  exact Int.bmod_eq_of_le (by omega) (by omega)

/-- What the rounds of a loop do with a delay: the first argument of `loop` is the number of rounds
that are left. -/
structure Doubles (bound : Int64) (loop : Nat → Int64 → Int64) : Prop where
  /-- At the bound the loop is left with the bound. -/
  stop : ∀ n d, bound ≤ d → loop n d = bound
  done : ∀ d, d < bound → loop 0 d = d
  cap : ∀ n d, d < bound → bound / 2 < d → loop (n + 1) d = bound
  double : ∀ n d, d < bound → ¬ bound / 2 < d → loop (n + 1) d = loop n (d * 2)

theorem Doubles.toInt_eq {bound : Int64} {loop : Nat → Int64 → Int64} (h : Doubles bound loop)
    (n : Nat) {d : Int64} (hd : 0 < d.toInt) :
    (loop n d).toInt = capped bound.toInt d.toInt n := by
  -- On the rounds that are left, for every delay: the doubled delay is again positive.
  induction n generalizing d with
  | zero =>
    by_cases hb : d < bound
    · rw [h.done d hb, capped_zero]
      have := Int64.lt_iff_toInt_lt.1 hb
      omega
    · rw [h.stop 0 d (Int64.not_lt.1 hb)]
      exact (capped_of_le (Int.le_of_lt hd) (Int64.le_iff_toInt_le.1 (Int64.not_lt.1 hb))).symm
  | succ n ih =>
    by_cases hb : d < bound
    · have hlt := Int64.lt_iff_toInt_lt.1 hb
      have hhalf := toInt_half bound (by omega)
      by_cases hc : bound / 2 < d
      · rw [h.cap n d hb hc]
        have hc' := Int64.lt_iff_toInt_lt.1 hc
        exact (capped_of_half_lt (Int.le_of_lt hd) (by omega)).symm
      · have hc' := Int64.le_iff_toInt_le.1 (Int64.not_lt.1 hc)
        have hmax := bound.toInt_lt
        have h2 : (d * 2).toInt = d.toInt * 2 := toInt_double (Int.le_of_lt hd) (by omega)
        rw [h.double n d hb hc, ih (by omega), h2, capped_succ]
    · rw [h.stop (n + 1) d (Int64.not_lt.1 hb)]
      exact (capped_of_le (Int.le_of_lt hd) (Int64.le_iff_toInt_le.1 (Int64.not_lt.1 hb))).symm

end Lib.Doubling
