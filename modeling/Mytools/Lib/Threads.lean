import Mathlib.Logic.Function.Basic
import Mathlib.Logic.Relation
import Mytools.Lib.Run

/-!
# Threads that share a state and a mutex

A `Prog` is what a thread still has to do: atomic actions on the shared state, each with an answer,
and calls on the one mutex. `Step` takes one thread one step further, so that a run is an
interleaving.

A `Discipline` says what every action of every thread obeys (`lawful`), an invariant that such
actions keep (`good`) and one that holds whenever the mutex is free (`free`). `wp` is the weakest
precondition of a program under it: before each of its actions the other threads may have taken any
lawful steps, none of them with the mutex while the thread has it. When every program meets its
`wp`, every step of every run is lawful (`Consistent.step`).
-/

namespace Lib.Threads

inductive Prog (A : Type) (R : A → Type) (α : Type) : Type
  | ret (x : α)
  | act (a : A) (k : R a → Prog A R α)
  | lock (k : Prog A R α)
  | unlock (k : Prog A R α)

variable {A : Type} {R : A → Type} {α β σ : Type}

namespace Prog

def bind : Prog A R α → (α → Prog A R β) → Prog A R β
  | ret x, f => f x
  | act a k, f => act a fun r => (k r).bind f
  | lock k, f => lock (k.bind f)
  | unlock k, f => unlock (k.bind f)

instance : Monad (Prog A R) where
  pure := ret
  bind := bind

/-- One action. -/
def call (a : A) : Prog A R (R a) := act a ret

/-- The program with the mutex. -/
def locked (p : Prog A R α) : Prog A R α := lock (p.bind fun x => unlock (ret x))

end Prog

/-! ## Runs -/

structure Conf (A : Type) (R : A → Type) (α σ : Type) where
  shared : σ
  holder : Option Nat
  threads : Nat → Prog A R α

/-- Thread `i` holds the mutex. -/
def Conf.holds (c : Conf A R α σ) (i : Nat) : Bool := c.holder = some i

inductive Label (A : Type) (R : A → Type) : Type
  | act (i : Nat) (a : A) (r : R a)
  | lock (i : Nat)
  | unlock (i : Nat)

/-- `exec i a s r s'`: the action `a` of thread `i` in `s` may answer `r` and lead to `s'`. -/
inductive Step (exec : Nat → (a : A) → σ → R a → σ → Prop) :
    Conf A R α σ → Label A R → Conf A R α σ → Prop
  | act {c : Conf A R α σ} {i : Nat} {a : A} {k : R a → Prog A R α} {r : R a} {s' : σ}
      (hthread : c.threads i = .act a k) (hexec : exec i a c.shared r s') :
      Step exec c (.act i a r) ⟨s', c.holder, Function.update c.threads i (k r)⟩
  | lock {c : Conf A R α σ} {i : Nat} {k : Prog A R α}
      (hthread : c.threads i = .lock k) (hfree : c.holder = none) :
      Step exec c (.lock i) ⟨c.shared, some i, Function.update c.threads i k⟩
  | unlock {c : Conf A R α σ} {i : Nat} {k : Prog A R α}
      (hthread : c.threads i = .unlock k) (hheld : c.holder = some i) :
      Step exec c (.unlock i) ⟨c.shared, none, Function.update c.threads i k⟩

/-! ## Disciplines -/

structure Discipline (A : Type) (R : A → Type) (σ : Type) where
  exec : Nat → (a : A) → σ → R a → σ → Prop
  /-- Thread `i` may take the action with this answer; the flag says that it holds the mutex. -/
  lawful : Nat → Bool → σ → (a : A) → R a → Prop
  good : σ → Prop
  free : σ → Prop
  good_step {i : Nat} {l : Bool} {s s' : σ} {a : A} {r : R a} :
    good s → exec i a s r s' → lawful i l s a r → good s'
  free_step {i : Nat} {s s' : σ} {a : A} {r : R a} :
    good s → free s → exec i a s r s' → lawful i false s a r → free s'

namespace Discipline

variable (D : Discipline A R σ)

/-- A lawful step of another thread than `j`, without the mutex if `j` holds it. -/
def Other (j : Nat) (l : Bool) (s s' : σ) : Prop :=
  D.good s ∧ ∃ i l' a r, i ≠ j ∧ (l = true → l' = false) ∧ D.exec i a s r s' ∧ D.lawful i l' s a r

def Others (j : Nat) (l : Bool) : σ → σ → Prop := Relation.ReflTransGen (D.Other j l)

/-- The other threads keep `P`. -/
def Stable (j : Nat) (l : Bool) (P : σ → Prop) : Prop := ∀ s s', D.Other j l s s' → P s → P s'

/-- The weakest precondition of a program of thread `j`, where `l` says that the thread holds the
mutex: every action is lawful, the mutex is taken only without it and given back with `free`, and
the result meets `Q`. -/
def wp (j : Nat) : Bool → Prog A R α → (α → Bool → σ → Prop) → σ → Prop
  | l, .ret x, Q, s => Q x l s
  | l, .act a k, Q, s => ∀ s₁, D.Others j l s s₁ → D.good s₁ → ∀ r s₂, D.exec j a s₁ r s₂ →
      D.lawful j l s₁ a r ∧ wp j l (k r) Q s₂
  | l, .lock k, Q, s => l = false ∧ ∀ s₁, D.Others j false s s₁ → D.good s₁ → D.free s₁ →
      wp j true k Q s₁
  | l, .unlock k, Q, s => l = true ∧ ∀ s₁, D.Others j true s s₁ → D.good s₁ →
      D.free s₁ ∧ wp j false k Q s₁

variable {D} {j : Nat} {l : Bool} {P : σ → Prop} {s s' : σ}

theorem Stable.others (h : D.Stable j l P) (hs : D.Others j l s s') (hp : P s) : P s' := by
  induction hs with
  | refl => exact hp
  | tail _ hstep ih => exact h _ _ hstep ih

/-! ## Rules -/

theorem wp_mono {Q Q' : α → Bool → σ → Prop} (hQ : ∀ x l s, Q x l s → Q' x l s) :
    ∀ {p : Prog A R α} {l : Bool} {s : σ}, D.wp j l p Q s → D.wp j l p Q' s
  | .ret _, _, _, h => hQ _ _ _ h
  | .act _ _, _, _, h => fun s₁ hs hg r s₂ he =>
      ⟨(h s₁ hs hg r s₂ he).1, wp_mono hQ (h s₁ hs hg r s₂ he).2⟩
  | .lock _, _, _, h => ⟨h.1, fun s₁ hs hg hf => wp_mono hQ (h.2 s₁ hs hg hf)⟩
  | .unlock _, _, _, h => ⟨h.1, fun s₁ hs hg => ⟨(h.2 s₁ hs hg).1, wp_mono hQ (h.2 s₁ hs hg).2⟩⟩

theorem wp_bind {f : α → Prog A R β} {Q : β → Bool → σ → Prop} :
    ∀ {p : Prog A R α} {l : Bool} {s : σ},
      D.wp j l p (fun x l s => D.wp j l (f x) Q s) s → D.wp j l (p.bind f) Q s
  | .ret _, _, _, h => h
  | .act _ _, _, _, h => fun s₁ hs hg r s₂ he =>
      ⟨(h s₁ hs hg r s₂ he).1, wp_bind (h s₁ hs hg r s₂ he).2⟩
  | .lock _, _, _, h => ⟨h.1, fun s₁ hs hg hf => wp_bind (h.2 s₁ hs hg hf)⟩
  | .unlock _, _, _, h => ⟨h.1, fun s₁ hs hg => ⟨(h.2 s₁ hs hg).1, wp_bind (h.2 s₁ hs hg).2⟩⟩

theorem wp_ret {x : α} {Q : α → Bool → σ → Prop} (h : Q x l s) : D.wp j l (.ret x) Q s := h

/-- An action from a stable assertion. -/
theorem wp_call {a : A} {Q : R a → Bool → σ → Prop} (hstable : D.Stable j l P) (hp : P s)
    (h : ∀ s₁ r s₂, P s₁ → D.good s₁ → D.exec j a s₁ r s₂ → D.lawful j l s₁ a r ∧ Q r l s₂) :
    D.wp j l (Prog.call a) Q s :=
  fun s₁ hs hg r s₂ he => h s₁ r s₂ (hstable.others hs hp) hg he

/-- What a thread keeps with its own actions too, it still has at the end. -/
theorem wp_frame {K : σ → Prop} (hstable : ∀ l, D.Stable j l K)
    (hown : ∀ a s r s', D.exec j a s r s' → K s → K s') {Q : α → Bool → σ → Prop} :
    ∀ {p : Prog A R α} {l : Bool} {s : σ}, D.wp j l p Q s → K s →
      D.wp j l p (fun x l s => Q x l s ∧ K s) s
  | .ret _, _, _, h, hk => ⟨h, hk⟩
  | .act _ _, l, _, h, hk => fun s₁ hs hg r s₂ he =>
    ⟨(h s₁ hs hg r s₂ he).1, wp_frame hstable hown (h s₁ hs hg r s₂ he).2
      (hown _ _ _ _ he ((hstable l).others hs hk))⟩
  | .lock _, _, _, h, hk => ⟨h.1, fun s₁ hs hg hf =>
    wp_frame hstable hown (h.2 s₁ hs hg hf) ((hstable false).others hs hk)⟩
  | .unlock _, _, _, h, hk => ⟨h.1, fun s₁ hs hg =>
    ⟨(h.2 s₁ hs hg).1, wp_frame hstable hown (h.2 s₁ hs hg).2 ((hstable true).others hs hk)⟩⟩

theorem stable_free : D.Stable j true D.free := by
  rintro s s' ⟨hgood, i, l', a, r, -, hl, hexec, hlawful⟩ hfree
  rw [hl rfl] at hlawful
  exact D.free_step hgood hfree hexec hlawful

/-- A critical section from a stable assertion: it begins with `free` and ends with it. -/
theorem wp_locked {p : Prog A R α} {Q : α → σ → Prop} (hstable : D.Stable j false P) (hp : P s)
    (hQ : ∀ x, D.Stable j true (Q x))
    (h : ∀ s₁, P s₁ → D.good s₁ → D.free s₁ →
      D.wp j true p (fun x l s => l = true ∧ D.free s ∧ Q x s) s₁) :
    D.wp j false p.locked (fun x l s => l = false ∧ Q x s) s := by
  refine ⟨rfl, fun s₁ hs hg hf => wp_bind (wp_mono ?_ (h s₁ (hstable.others hs hp) hg hf))⟩
  rintro x l s ⟨rfl, hfree, hx⟩
  exact ⟨rfl, fun s' hs' _ => ⟨stable_free.others hs' hfree, rfl, (hQ x).others hs' hx⟩⟩

/-! ## Soundness -/

/-- What holds at every moment of a run of programs that meet their preconditions. -/
structure Consistent (D : Discipline A R σ) (Q : Nat → α → Bool → σ → Prop) (c : Conf A R α σ) :
    Prop where
  good : D.good c.shared
  free : c.holder = none → D.free c.shared
  threads : ∀ j, ∃ s, D.Others j (c.holds j) s c.shared ∧
    D.wp j (c.holds j) (c.threads j) (Q j) s

variable {Q : Nat → α → Bool → σ → Prop} {c c' : Conf A R α σ}

theorem Consistent.lawful (h : Consistent D Q c) {i : Nat} {a : A} {k : R a → Prog A R α} {r : R a}
    {s' : σ} (hthread : c.threads i = .act a k) (hexec : D.exec i a c.shared r s') :
    D.lawful i (c.holds i) c.shared a r ∧ D.wp i (c.holds i) (k r) (Q i) s' := by
  obtain ⟨s, hs, hwp⟩ := h.threads i
  rw [hthread] at hwp
  exact hwp _ hs h.good r s' hexec

theorem Consistent.act (h : Consistent D Q c) {i : Nat} {a : A} {k : R a → Prog A R α} {r : R a}
    {s' : σ} (hthread : c.threads i = .act a k) (hexec : D.exec i a c.shared r s') :
    Consistent D Q ⟨s', c.holder, Function.update c.threads i (k r)⟩ := by
  obtain ⟨hlawful, hwp⟩ := h.lawful hthread hexec
  refine ⟨D.good_step h.good hexec hlawful, fun hnone => ?_, fun j => ?_⟩
  · have hl : c.holds i = false := by simp [Conf.holds, show c.holder = none from hnone]
    rw [hl] at hlawful
    exact D.free_step h.good (h.free hnone) hexec hlawful
  · by_cases hj : j = i
    · subst hj
      exact ⟨s', .refl, by simpa [Conf.holds] using hwp⟩
    · obtain ⟨s, hs, hwpj⟩ := h.threads j
      refine ⟨s, hs.tail ⟨h.good, i, c.holds i, a, r, Ne.symm hj, fun hl => ?_, hexec, hlawful⟩, ?_⟩
      · -- the mutex has one holder
        have hl' : c.holder = some j := by simpa [Conf.holds] using hl
        simpa [Conf.holds, hl'] using hj
      · simpa [Function.update_of_ne hj, Conf.holds] using hwpj

theorem Consistent.lock (h : Consistent D Q c) {i : Nat} {k : Prog A R α}
    (hthread : c.threads i = .lock k) (hnone : c.holder = none) :
    Consistent D Q ⟨c.shared, some i, Function.update c.threads i k⟩ := by
  refine ⟨h.good, nofun, fun j => ?_⟩
  obtain ⟨s, hs, hwp⟩ := h.threads j
  have hl : c.holds j = false := by simp [Conf.holds, hnone]
  rw [hl] at hs hwp
  by_cases hj : j = i
  · subst hj
    rw [hthread] at hwp
    exact ⟨c.shared, .refl, by simpa [Conf.holds] using hwp.2 _ hs h.good (h.free hnone)⟩
  · have hl' : Conf.holds ⟨c.shared, some i, Function.update c.threads i k⟩ j = false := by
      simpa [Conf.holds] using Ne.symm hj
    rw [hl']
    exact ⟨s, hs, by simpa [Function.update_of_ne hj] using hwp⟩

theorem Consistent.unlock (h : Consistent D Q c) {i : Nat} {k : Prog A R α}
    (hthread : c.threads i = .unlock k) (hheld : c.holder = some i) :
    Consistent D Q ⟨c.shared, none, Function.update c.threads i k⟩ := by
  have hwpi : D.free c.shared ∧ D.wp i false k (Q i) c.shared := by
    obtain ⟨s, hs, hwp⟩ := h.threads i
    have hl : c.holds i = true := by simp [Conf.holds, hheld]
    rw [hl, hthread] at hwp
    rw [hl] at hs
    exact hwp.2 _ hs h.good
  refine ⟨h.good, fun _ => hwpi.1, fun j => ?_⟩
  by_cases hj : j = i
  · subst hj
    exact ⟨c.shared, .refl, by simpa [Conf.holds] using hwpi.2⟩
  · obtain ⟨s, hs, hwp⟩ := h.threads j
    have hl : c.holds j = false := by simpa [Conf.holds, hheld] using Ne.symm hj
    have hl' : Conf.holds ⟨c.shared, none, Function.update c.threads i k⟩ j = false := rfl
    rw [hl] at hs hwp
    rw [hl']
    exact ⟨s, hs, by simpa [Function.update_of_ne hj] using hwp⟩

theorem Consistent.step (h : Consistent D Q c) {lbl : Label A R} (hs : Step D.exec c lbl c') :
    Consistent D Q c' := by
  cases hs with
  | act hthread hexec => exact h.act hthread hexec
  | lock hthread hnone => exact h.lock hthread hnone
  | unlock hthread hheld => exact h.unlock hthread hheld

theorem Consistent.run (h : Consistent D Q c) {ls : List (Label A R)}
    (hs : Runs (Step D.exec) c ls c') : Consistent D Q c' :=
  hs.inv (I := Consistent D Q) (fun _ _ _ hc hstep => hc.step hstep) h

/-- Programs that meet their preconditions in the initial state, with the mutex free. -/
theorem Consistent.start {s : σ} {threads : Nat → Prog A R α} (hgood : D.good s) (hfree : D.free s)
    (h : ∀ j, D.wp j false (threads j) (Q j) s) : Consistent D Q ⟨s, none, threads⟩ :=
  ⟨hgood, fun _ => hfree, fun j => ⟨s, .refl, h j⟩⟩

/-- The result of a thread that has ended. -/
theorem Consistent.result (h : Consistent D Q c) {j : Nat} {x : α}
    (hthread : c.threads j = .ret x) :
    ∃ s, D.Others j (c.holds j) s c.shared ∧ Q j x (c.holds j) s := by
  obtain ⟨s, hs, hwp⟩ := h.threads j
  rw [hthread] at hwp
  exact ⟨s, hs, hwp⟩

-- programs are stepped through with the rules only
attribute [irreducible] wp

end Discipline

end Lib.Threads
