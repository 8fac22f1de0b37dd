import Mathlib.Data.Nat.Init
import Mathlib.Order.Basic

/-!
# Histories of versioned pages

A history is a sequence of transactions, numbered from 1: transaction `t` writes some pages and
leaves the image with `size t` pages. `latest a b p` is the content of page `p` written last by a
transaction `t` with `a < t ≤ b`. Ranges compose (`latest_trans`), so what a chain of contiguous
ranges holds is read off the ranges one by one. `WellFormed`: a transaction writes pages of its
own image only, and every page by which the image grows.
-/

namespace Lib

structure History (α : Type) where
  writes : Nat → Nat → Option α
  size : Nat → Nat

namespace History

variable {α : Type} (H : History α)

/-- The content of `p` written last by a transaction in `(a, b]`. -/
def latest (a : Nat) : Nat → Nat → Option α
  | 0, _ => none
  | b + 1, p => if a < b + 1 then (H.writes (b + 1) p).or (latest a b p) else none

structure WellFormed : Prop where
  size_zero : H.size 0 = 0
  bounds : ∀ t p, (H.writes t p).isSome → 1 ≤ p ∧ p ≤ H.size t
  grow : ∀ t p, H.size t < p → p ≤ H.size (t + 1) → (H.writes (t + 1) p).isSome

variable {H} {a b m p : Nat}

theorem latest_of_le (h : b ≤ a) : H.latest a b p = none := by
  cases b with
  | zero => rfl
  | succ b => rw [latest, if_neg (by omega)]

@[simp] theorem latest_self : H.latest a a p = none := latest_of_le (Nat.le_refl a)

theorem latest_succ (h : a ≤ b) :
    H.latest a (b + 1) p = (H.writes (b + 1) p).or (H.latest a b p) := by
  rw [latest, if_pos (by omega)]

/-- The last write of a range is the last write of its second part, else of its first. -/
theorem latest_trans (ham : a ≤ m) (hmb : m ≤ b) :
    H.latest a b p = (H.latest m b p).or (H.latest a m p) := by
  induction b, hmb using Nat.le_induction with
  | base => simp
  | succ b hmb ih =>
    rw [latest_succ (by omega), latest_succ hmb, ih, Option.or_assoc]

theorem latest_none_of_trans (ham : a ≤ m) (hmb : m ≤ b) (h : H.latest a b p = none) :
    H.latest m b p = none := by
  rw [latest_trans ham hmb, Option.or_eq_none_iff] at h
  exact h.1

theorem latest_none_of_trans_left (ham : a ≤ m) (hmb : m ≤ b) (h : H.latest a b p = none) :
    H.latest a m p = none := by
  rw [latest_trans ham hmb, Option.or_eq_none_iff] at h
  exact h.2

/-- A page of the image at `b` that no transaction of `(a, b]` wrote is a page of the image at
`a`. -/
theorem WellFormed.le_size (hw : H.WellFormed) (hab : a ≤ b) (hp : p ≤ H.size b)
    (h : H.latest a b p = none) : p ≤ H.size a := by
  induction b, hab using Nat.le_induction with
  | base => exact hp
  | succ b hab ih =>
    rw [latest_succ hab, Option.or_eq_none_iff] at h
    refine ih ?_ h.2
    by_contra hlt
    have := hw.grow b p (by omega) hp
    simp [h.1] at this

/-- Every page of the image has been written. -/
theorem WellFormed.written (hw : H.WellFormed) (h1 : 1 ≤ p) (hp : p ≤ H.size b) :
    (H.latest 0 b p).isSome := by
  rw [Option.isSome_iff_ne_none]
  intro h
  have := hw.le_size (Nat.zero_le b) hp h
  rw [hw.size_zero] at this
  omega

end History

end Lib
