import Mathlib.Logic.Function.Basic

/-!
# Libraries for caches

What is known of a library for caches of a bounded size. A cache may forget an entry at any time;
what it can still hand out (`Holds`) was added for that key, and not removed since. A property of
all entries (`Lru.All`) is kept by every operation that adds none, and by an insertion that adds a
good one.
-/

namespace Lib

structure Lru (K V : Type) where
  Cache : Type
  new : (size : Nat) → Cache
  get : Cache → K → Option V × Cache
  add : Cache → K → V → Cache
  remove : Cache → K → Cache
  purge : Cache → Cache
  /-- The cache can hand out this value for the key. -/
  Holds : Cache → K → V → Prop
  holds_new : ∀ size k v, ¬ Holds (new size) k v
  holds_of_get : ∀ c k v, (get c k).1 = some v → Holds c k v
  holds_get : ∀ c k a v, Holds (get c k).2 a v → Holds c a v
  holds_add : ∀ c k v a w, Holds (add c k v) a w → a = k ∧ w = v ∨ Holds c a w
  holds_remove : ∀ c k a v, Holds (remove c k) a v → Holds c a v ∧ a ≠ k
  holds_purge : ∀ c k v, ¬ Holds (purge c) k v

namespace Lru

variable {K V : Type} {L : Lru K V} {c : L.Cache} {P : K → V → Prop} {k : K} {v : V}

/-- Every entry of the cache satisfies `P`. -/
def All (L : Lru K V) (c : L.Cache) (P : K → V → Prop) : Prop := ∀ k v, L.Holds c k v → P k v

theorem all_new (size : Nat) : L.All (L.new size) P :=
  fun k v h => absurd h (L.holds_new size k v)

theorem All.get (h : L.All c P) (k : K) : L.All (L.get c k).2 P :=
  fun a v hm => h a v (L.holds_get c k a v hm)

theorem All.get_hit (h : L.All c P) (hv : (L.get c k).1 = some v) : P k v :=
  h k v (L.holds_of_get c k v hv)

theorem All.add (h : L.All c P) (hv : P k v) : L.All (L.add c k v) P := by
  intro a w hm
  rcases L.holds_add c k v a w hm with ⟨rfl, rfl⟩ | hm
  · exact hv
  · exact h a w hm

theorem holds_foldl_remove {ks : List K} {a : K} (h : L.Holds (ks.foldl L.remove c) a v) :
    L.Holds c a v ∧ a ∉ ks := by
  induction ks generalizing c with
  | nil => exact ⟨h, by simp⟩
  | cons k ks ih =>
    obtain ⟨hr, hks⟩ := ih h
    obtain ⟨hc, hk⟩ := L.holds_remove c k a v hr
    exact ⟨hc, by simp [hk, hks]⟩

/-- Caches that forget nothing. -/
def unbounded (K V : Type) [DecidableEq K] : Lru K V where
  Cache := K → Option V
  new _ _ := none
  get c k := (c k, c)
  add c k v := Function.update c k (some v)
  remove c k := Function.update c k none
  purge _ _ := none
  Holds c k v := c k = some v
  holds_new _ _ _ h := nomatch h
  holds_of_get _ _ _ h := h
  holds_get _ _ _ _ h := h
  holds_add c k v a w h := by
    by_cases ha : a = k
    · subst ha
      rw [Function.update_self] at h
      exact .inl ⟨rfl, (Option.some.inj h).symm⟩
    · rw [Function.update_of_ne ha] at h
      exact .inr h
  holds_remove c k a v h := by
    by_cases ha : a = k
    · subst ha
      rw [Function.update_self] at h
      cases h
    · rw [Function.update_of_ne ha] at h
      exact ⟨h, ha⟩
  holds_purge _ _ _ h := nomatch h

end Lru

end Lib
