import Mytools.Lib.Exec

/-!
# Scripts that are interrupted

All that a script may do when its programs may fail at any point, when it may be killed at any
point, and when signals arrive that it has set an action for. A program is a relation here
(`Behaviour`): it ends with an effect, or it is still at work when everything is killed. A signal
that is trapped does not end the shell: the action is run when the command at work has ended, and
the script goes on. A signal that is not trapped kills it.

`Within` says that every end of a run has a property; its rules follow the commands. What
`Lib.Shell` does not read may end in any way.
-/

namespace Lib.Shell

/-! ## Ends -/

inductive Ending (σ : Type) where
  | ended (e : Effect σ)
  | killed (world : σ)

/-- What the programs may do: arguments (the name first), input, world, and how the call ends. -/
abbrev Behaviour (σ : Type) := List String → String → σ → Ending σ → Prop

/-- A shell with the action on the signals `HUP`, `INT` and `TERM`. -/
structure Trapping (σ : Type) extends State σ where
  onSignal : Option String := none

/-- How commands end: with a status, with the end of the shell, or killed. -/
inductive End (σ : Type) where
  | next (s : Trapping σ) (status : Nat) (out : Output)
  | exit (s : Trapping σ) (status : Nat) (out : Output)
  | killed (world : σ)

variable {σ : Type}

def End.after (out : Output) : End σ → End σ
  | .next s k o => .next s k (out ++ o)
  | .exit s k o => .exit s k (out ++ o)
  | .killed w => .killed w

/-- The possible ends of commands. -/
abbrev Ends (σ : Type) := End σ → Prop

namespace Ends

def only (o : End σ) : Ends σ := fun o' => o' = o

def anything : Ends σ := fun _ => True

/-- What follows a command that has not ended the shell. -/
def bind (p : Ends σ) (f : Trapping σ → Nat → Ends σ) : Ends σ := fun o =>
  ∃ o₁, p o₁ ∧ match o₁ with
    | .next s k out => ∃ o₂, f s k o₂ ∧ o = o₂.after out
    | .exit .. | .killed _ => o = o₁

/-- What follows a shell of its own, from the world, the status and the output of it. -/
def subshell (p : Ends σ) (f : σ → Nat → Output → Ends σ) : Ends σ := fun o =>
  ∃ o₁, p o₁ ∧ match o₁ with
    | .next s k out | .exit s k out => f s.world k out o
    | .killed w => o = .killed w

def mapOutput (f : Output → Option Output) (p : Ends σ) : Ends σ := fun o =>
  ∃ o₁, p o₁ ∧ match o₁ with
    | .next s k out => ∀ out', f out = some out' → o = .next s k out'
    | .exit s k out => ∀ out', f out = some out' → o = .exit s k out'
    | .killed w => o = .killed w

end Ends

/-! ## Commands -/

section
variable (E : Behaviour σ) (H : Trapping σ → Ends σ)

def settle (tested : Bool) (s : Trapping σ) (status : Nat) (out : Output) : End σ :=
  if status ≠ 0 ∧ s.errexit ∧ tested = false then .exit s status out else .next s status out

/-- The end of a command; `H` is what the shell does if a signal has arrived by then. -/
def settled (tested : Bool) (s : Trapping σ) (status : Nat) (out : Output) : Ends σ := fun o =>
  o = settle tested s status out ∨
    (Ends.bind (H s) fun s' _ => Ends.only (settle tested s' status out)) o

def trapAction (s : Trapping σ) (action : String) (signals : List String) : Trapping σ :=
  { s with
    onExit := if "EXIT" ∈ signals then some action else s.onExit
    onSignal := if "HUP" ∈ signals ∨ "INT" ∈ signals ∨ "TERM" ∈ signals then some action
      else s.onSignal }

def callEnds (tested : Bool) (input : String) (s : Trapping σ) : List String → Ends σ
  | ["set", "-eu"] => settled H tested { s with errexit := true, nounset := true } 0 []
  | ["exit", "0"] => Ends.only (.exit s 0 [])
  | ["exit", "1"] => Ends.only (.exit s 1 [])
  | "trap" :: action :: signals => settled H tested (trapAction s action signals) 0 []
  | "set" :: _ | "exit" :: _ | "trap" :: _ | [] => Ends.anything
  | args => fun o => ∃ e, E args input s.world e ∧ match e with
    | .ended e => settled H tested { s with world := e.world } e.status e.out o
    | .killed w => o = .killed w

/-- Actions are not inherited. -/
def Trapping.inner (s : Trapping σ) : Trapping σ := { s with onExit := none, onSignal := none }

mutual

def Cmd.ends (tested : Bool) (input : String) : Trapping σ → Cmd → Ends σ
  | s, .simple words => fun o => o = .killed s.world ∨
    match expandAll s.toState words with
    | none => True
    | some none => o = .exit s 2 []
    | some (some args) => callEnds E H tested input s args o
  | s, .assign name value => fun o => o = .killed s.world ∨
    match expand s.toState value with
    | none => True
    | some .unset => o = .exit s 2 []
    | some (.text cs) =>
      settled H tested { s with vars := (name, String.ofList cs) :: s.vars } 0 [] o
  | s, .capture name body =>
    (listEnds tested input s.inner 0 body).subshell fun w k out =>
      settled H tested { s with world := w, vars := (name, captured out) :: s.vars } k
        (notPrinted out)
  | s, .duplicate c fd target => (Cmd.ends tested input s c).mapOutput (redirect fd target)
  | s, .not c =>
    (Cmd.ends true input s c).bind fun s' k => Ends.only (.next s' (if k = 0 then 1 else 0) [])
  | s, .pipe c d =>
    (Cmd.ends true input s.inner c).subshell fun w _ out =>
      (Cmd.ends true (printed out) { s.inner with world := w } d).subshell fun w' k out' =>
        settled H tested { s with world := w' } k (notPrinted out ++ out')
  | s, .or c d =>
    (Cmd.ends true input s c).bind fun s' k =>
      if k = 0 then Ends.only (.next s' 0 []) else Cmd.ends tested input s' d
  | s, .group body => listEnds tested input s 0 body
  | s, .ifThen cond body =>
    (listEnds true input s 0 cond).bind fun s' k =>
      if k = 0 then listEnds tested input s' 0 body else Ends.only (.next s' 0 [])
  | s, .case subject arms =>
    match expand s.toState subject with
    | none => Ends.anything
    | some .unset => Ends.only (.exit s 2 [])
    | some (.text cs) => armsEnds tested input s cs arms

def listEnds (tested : Bool) (input : String) : Trapping σ → Nat → List Cmd → Ends σ
  | s, status, [] => Ends.only (.next s status [])
  | s, _, c :: cs => (Cmd.ends tested input s c).bind fun s' k => listEnds tested input s' k cs

def armsEnds (tested : Bool) (input : String) :
    Trapping σ → List Char → List (List Word × List Cmd) → Ends σ
  | s, _, [] => Ends.only (.next s 0 [])
  | s, cs, (patterns, body) :: arms =>
    if patterns.any (matchesPattern · cs) then listEnds tested input s 0 body
    else armsEnds tested input s cs arms

end

end

/-! ## Scripts -/

section
variable (E : Behaviour σ)

/-- A text that the shell is given; signals are handled by `H`. -/
def textEnds (H : Trapping σ → Ends σ) (s : Trapping σ) (status : Nat) (text : String) : Ends σ :=
  match parse text with
  | none => Ends.anything
  | some cs => listEnds E H false "" s status cs

/-- A signal: the action that is set for it is run, and a second one waits for its end. -/
def handle (s : Trapping σ) : Ends σ :=
  match s.onSignal with
  | none => Ends.only (.killed s.world)
  | some action => textEnds E (fun _ _ => False) s 0 action

/-- How a script ends: with a status or killed, and the world that it leaves. -/
inductive Final (σ : Type) where
  | ended (status : Nat) (world : σ)
  | killed (world : σ)

/-- The end of a shell, with the action on `EXIT`. -/
def leaveEnds (s : Trapping σ) (status : Nat) : Final σ → Prop :=
  match s.onExit with
  | none => fun f => f = .ended status s.world
  | some action => fun f => ∃ o, textEnds E (handle E) { s with onExit := none } status action o ∧
    f = match o with
      | .next s' _ _ => .ended status s'.world
      | .exit s' k _ => .ended k s'.world
      | .killed w => .killed w

/-- All that may become of a script. -/
def scriptEnds (text : String) (world : σ) (f : Final σ) : Prop :=
  ∃ o, textEnds E (handle E) { world := world } 0 text o ∧ match o with
    | .next s k _ | .exit s k _ => leaveEnds E s k f
    | .killed w => f = .killed w

end

/-! ## Rules -/

/-- Every possible end has the property. -/
def Ends.Within (p : Ends σ) (Q : End σ → Prop) : Prop := ∀ o, p o → Q o

/-- What holds when commands have ended with a status, when they have ended the shell, and when they
were killed. -/
def post (N X : Trapping σ → Nat → Prop) (K : σ → Prop) : End σ → Prop
  | .next s k _ => N s k
  | .exit s k _ => X s k
  | .killed w => K w

variable {E : Behaviour σ} {H : Trapping σ → Ends σ} {tested : Bool} {input : String}
  {s : Trapping σ} {N N' M X X' : Trapping σ → Nat → Prop} {K K' : σ → Prop}

theorem post_after {o : End σ} (out : Output) (h : post N X K o) : post N X K (o.after out) := by
  cases o with
  | next s k out' => exact h
  | exit s k out' => exact h
  | killed w => exact h

theorem Ends.Within.mono {p : Ends σ} (h : p.Within (post N X K)) (hN : ∀ s k, N s k → N' s k)
    (hX : ∀ s k, X s k → X' s k) (hK : ∀ w, K w → K' w) : p.Within (post N' X' K') := by
  intro o ho
  have h := h o ho
  cases o with
  | next s k out => exact hN s k h
  | exit s k out => exact hX s k h
  | killed w => exact hK w h

theorem within_only {o : End σ} {Q : End σ → Prop} (h : Q o) : (Ends.only o).Within Q := by
  rintro o' rfl
  exact h

theorem within_bind {p : Ends σ} {f : Trapping σ → Nat → Ends σ} (hp : p.Within (post M X K))
    (hf : ∀ s k, M s k → (f s k).Within (post N X K)) : (p.bind f).Within (post N X K) := by
  rintro o ⟨o₁, ho₁, ho⟩
  have h := hp o₁ ho₁
  cases o₁ with
  | next s k out =>
    obtain ⟨o₂, ho₂, rfl⟩ := ho
    exact post_after out (hf s k h o₂ ho₂)
  | exit s k out =>
    cases ho
    exact h
  | killed w =>
    cases ho
    exact h

theorem within_settled {k : Nat} {out : Output} (hnow : post N X K (settle tested s k out))
    (hsignal : (H s).Within (post (fun s' _ => post N X K (settle tested s' k out)) X K)) :
    (settled H tested s k out).Within (post N X K) := by
  rintro o (rfl | ho)
  · exact hnow
  · exact within_bind hsignal (fun s' _ h => within_only h) o ho

/-- The end of a command in a shell without an action on signals. -/
theorem within_settled_untrapped {k : Nat} {out : Output} {Q : End σ → Prop}
    (hs : s.onSignal = none) (hnow : Q (settle tested s k out)) (hkill : Q (.killed s.world)) :
    (settled (handle E) tested s k out).Within Q := by
  rintro o (rfl | ⟨o₁, ho₁, ho⟩)
  · exact hnow
  · rw [handle, hs] at ho₁
    cases ho₁
    cases ho
    exact hkill

theorem within_simple {ws : List Word} {args : List String} {Q : End σ → Prop}
    (hw : Expands s.toState ws args) (hkill : Q (.killed s.world))
    (h : (callEnds E H tested input s args).Within Q) :
    ((Cmd.simple ws).ends E H tested input s).Within Q := by
  rintro o ho
  rw [Cmd.ends] at ho
  rcases ho with rfl | ho
  · exact hkill
  · rw [show expandAll s.toState ws = some (some args) from hw] at ho
    exact h o ho

theorem callEnds_program {name : String} {args : List String}
    (hname : name ≠ "set" ∧ name ≠ "exit" ∧ name ≠ "trap") :
    callEnds E H tested input s (name :: args) = fun o =>
      ∃ e, E (name :: args) input s.world e ∧ match e with
        | .ended e => settled H tested { s with world := e.world } e.status e.out o
        | .killed w => o = .killed w := by
  obtain ⟨h1, h2, h3⟩ := hname
  unfold callEnds
  split <;> simp_all

/-- A call of a program: each of its ends, and a kill before it. -/
theorem within_program {ws : List Word} {name : String} {args : List String} {Q : End σ → Prop}
    (hw : Expands s.toState ws (name :: args))
    (hname : name ≠ "set" ∧ name ≠ "exit" ∧ name ≠ "trap") (hkill : Q (.killed s.world))
    (hended : ∀ e, E (name :: args) input s.world (.ended e) →
      (settled H tested { s with world := e.world } e.status e.out).Within Q)
    (hkilled : ∀ w, E (name :: args) input s.world (.killed w) → Q (.killed w)) :
    ((Cmd.simple ws).ends E H tested input s).Within Q := by
  refine within_simple hw hkill ?_
  rw [callEnds_program hname]
  rintro o ⟨e, he, ho⟩
  cases e with
  | ended e => exact hended e he o ho
  | killed w =>
    cases ho
    exact hkilled w he

theorem listEnds_nil {k : Nat} :
    listEnds E H tested input s k [] = Ends.only (.next s k []) := rfl

theorem listEnds_cons {c : Cmd} {cs : List Cmd} {k : Nat} :
    listEnds E H tested input s k (c :: cs) =
      (c.ends E H tested input s).bind fun s' k => listEnds E H tested input s' k cs := rfl

theorem within_nil {k : Nat} (h : N s k) :
    (listEnds E H tested input s k []).Within (post N X K) := by
  rw [listEnds_nil]
  exact within_only h

theorem within_cons {c : Cmd} {cs : List Cmd} {k : Nat}
    (hc : (c.ends E H tested input s).Within (post M X K))
    (hcs : ∀ s k, M s k → (listEnds E H tested input s k cs).Within (post N X K)) :
    (listEnds E H tested input s k (c :: cs)).Within (post N X K) := by
  rw [listEnds_cons]
  exact within_bind hc hcs

theorem within_one {c : Cmd} {k : Nat} (hc : (c.ends E H tested input s).Within (post N X K)) :
    (listEnds E H tested input s k [c]).Within (post N X K) :=
  within_cons hc fun _ _ h => within_nil h

theorem within_append {cs ds : List Cmd} {k : Nat}
    (hcs : (listEnds E H tested input s k cs).Within (post M X K))
    (hds : ∀ s k, M s k → (listEnds E H tested input s k ds).Within (post N X K)) :
    (listEnds E H tested input s k (cs ++ ds)).Within (post N X K) := by
  induction cs generalizing s k with
  | nil =>
    rw [List.nil_append]
    refine hds s k (hcs (.next s k []) ?_)
    rw [listEnds_nil]
    rfl
  | cons c cs ih =>
    rw [listEnds_cons] at hcs
    rw [List.cons_append, listEnds_cons]
    rintro o ⟨o₁, ho₁, ho⟩
    cases o₁ with
    | next s' k' out =>
      obtain ⟨o₂, ho₂, rfl⟩ := ho
      refine post_after out (ih ?_ o₂ ho₂)
      intro o₃ ho₃
      have h := hcs (o₃.after out) ⟨_, ho₁, o₃, ho₃, rfl⟩
      cases o₃ with
      | next _ _ _ => exact h
      | exit _ _ _ => exact h
      | killed _ => exact h
    | exit s' k' out =>
      cases ho
      exact hcs _ ⟨_, ho₁, rfl⟩
    | killed w =>
      cases ho
      exact hcs _ ⟨_, ho₁, rfl⟩

theorem within_ifThen {cond body : List Cmd}
    (hcond : (listEnds E H true input s 0 cond).Within (post M X K))
    (hbody : ∀ s, M s 0 → (listEnds E H tested input s 0 body).Within (post N X K))
    (hskip : ∀ s k, M s (k + 1) → N s 0) :
    ((Cmd.ifThen cond body).ends E H tested input s).Within (post N X K) := by
  rw [Cmd.ends]
  refine within_bind hcond fun s' k hM => ?_
  cases k with
  | zero => exact hbody s' hM
  | succ k => exact within_only (hskip s' k hM)

theorem within_not {c : Cmd} (h : (c.ends E H true input s).Within
      (post (fun s k => N s (if k = 0 then 1 else 0)) X K)) :
    ((Cmd.not c).ends E H tested input s).Within (post N X K) := by
  rw [Cmd.ends]
  exact within_bind h fun s' k hN => within_only hN

theorem within_duplicate {c : Cmd} {fd target : Word} (hr : ∀ out, (redirect fd target out).isSome)
    (h : (c.ends E H tested input s).Within (post N X K)) :
    ((Cmd.duplicate c fd target).ends E H tested input s).Within (post N X K) := by
  rw [Cmd.ends]
  rintro o ⟨o₁, ho₁, ho⟩
  have h := h o₁ ho₁
  cases o₁ with
  | next s' k out =>
    obtain ⟨out', hout⟩ := Option.isSome_iff_exists.1 (hr out)
    rw [ho out' hout]
    exact h
  | exit s' k out =>
    obtain ⟨out', hout⟩ := Option.isSome_iff_exists.1 (hr out)
    rw [ho out' hout]
    exact h
  | killed w =>
    cases ho
    exact h

/-- What a shell of its own leaves. -/
def inner (R : σ → Nat → Output → Prop) (K : σ → Prop) : End σ → Prop
  | .next s k out | .exit s k out => R s.world k out
  | .killed w => K w

theorem inner_settle {R : σ → Nat → Output → Prop} {k : Nat} {out : Output} (h : R s.world k out) :
    inner R K (settle tested s k out) := by
  unfold settle
  split
  · exact h
  · exact h

/-- A substitution of one command; `R` is what holds of the status and the output of it. -/
theorem within_capture {name : String} {c : Cmd} {R : σ → Nat → Output → Prop}
    (hc : (c.ends E H tested input s.inner).Within (inner R K))
    (hR : ∀ w k out, R w k out → (settled H tested
      { s with world := w, vars := (name, captured out) :: s.vars } k
        (notPrinted out)).Within (post N X K)) :
    ((Cmd.capture name [c]).ends E H tested input s).Within (post N X K) := by
  rw [Cmd.ends, listEnds_cons]
  rintro o ⟨o₁, ⟨o₀, ho₀, ho₁⟩, ho⟩
  have h := hc o₀ ho₀
  cases o₀ with
  | next s' k out =>
    obtain ⟨o₂, ho₂, rfl⟩ := ho₁
    rw [listEnds_nil] at ho₂
    cases ho₂
    simp only [End.after, List.append_nil] at ho
    exact hR _ _ _ h o ho
  | exit s' k out =>
    cases ho₁
    exact hR _ _ _ h o ho
  | killed w =>
    cases ho₁
    cases ho
    exact h

end Lib.Shell
