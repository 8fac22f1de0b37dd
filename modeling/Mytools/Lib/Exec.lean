import Mytools.Lib.Script

/-!
# Running shell scripts

What the commands of `Lib.Shell` do. The programs that a script calls are a parameter: a function of
the arguments, the input and the world, which returns the world, a status and what is printed. The
shell itself keeps its variables, the options `-e` and `-u` and the action on `EXIT`.

A command that is outside of the modelled part has no result (`none`): a word that would be split
into fields, a pattern in an argument, a built-in with arguments that are not read here. The
language has no loop, so that a result is found by recursion over the commands.
-/

namespace Lib.Shell

/-- Texts with the file descriptor they are written to. -/
abbrev Output := List (Nat × String)

structure Effect (σ : Type) where
  world : σ
  status : Nat := 0
  out : Output := []

/-- The programs that a script may call: arguments (the name first), input, world. -/
abbrev Programs (σ : Type) := List String → String → σ → Effect σ

structure State (σ : Type) where
  vars : List (String × String) := []
  errexit : Bool := false
  nounset : Bool := false
  onExit : Option String := none
  world : σ

/-- A command ends with a status, or ends the shell with one. -/
inductive Flow where
  | next (status : Nat)
  | exit (status : Nat)
  deriving DecidableEq, Repr

def Flow.status : Flow → Nat
  | .next k | .exit k => k

structure Result (σ : Type) where
  state : State σ
  flow : Flow
  out : Output := []

def Result.after {σ : Type} (out : Output) (r : Result σ) : Result σ :=
  { r with out := out ++ r.out }

/-! ## Words -/

section Words

variable {σ : Type} (s : State σ)

/-- The text of a word, or that a variable of it is not set. -/
inductive Expansion where
  | text (cs : List Char)
  | unset
  deriving DecidableEq, Repr

def expand : Word → Option Expansion
  | [] => some (.text [])
  | .char c quoted :: w =>
    if quoted = false ∧ (c = '*' ∨ c = '?') then none
    else (expand w).map fun
      | .text cs => .text (c :: cs)
      | .unset => .unset
  | .var name quoted :: w =>
    if quoted = false then none
    else match s.vars.lookup name, s.nounset, expand w with
      | _, _, none => none
      | none, true, _ => some .unset
      | _, _, some .unset => some .unset
      | v, _, some (.text cs) => some (.text ((v.getD "").toList ++ cs))

/-- The texts of the words; `some none` if one of them has a variable that is not set. -/
def expandAll : List Word → Option (Option (List String))
  | [] => some (some [])
  | w :: ws =>
    match expand s w, expandAll ws with
    | none, _ | _, none => none
    | some .unset, some _ | some (.text _), some none => some none
    | some (.text cs), some (some args) => some (some (String.ofList cs :: args))

/-- A text matches a pattern: `*` stands for any text, unless it is quoted. -/
def matchesPattern : Word → List Char → Bool
  | [], cs => cs.isEmpty
  | .char c quoted :: w, cs =>
    if quoted = false ∧ c = '*' then cs.tails.any (matchesPattern w)
    else match cs with
      | [] => false
      | d :: cs => (d = c || (quoted = false && c = '?')) && matchesPattern w cs
  | .var _ _ :: _, _ => false

end Words

/-! ## Commands -/

section Eval

variable {σ : Type} (E : Programs σ)

/-- A status that is not tested ends the shell if it is not zero and `-e` is set. -/
def finish (tested : Bool) (s : State σ) (status : Nat) (out : Output) : Result σ :=
  ⟨s, if status ≠ 0 ∧ s.errexit ∧ tested = false then .exit status else .next status, out⟩

/-- The built-ins that change the shell, and the programs. -/
def call (tested : Bool) (input : String) (s : State σ) : List String → Option (Result σ)
  | ["set", "-eu"] => some ⟨{ s with errexit := true, nounset := true }, .next 0, []⟩
  | ["exit", "0"] => some ⟨s, .exit 0, []⟩
  | ["exit", "1"] => some ⟨s, .exit 1, []⟩
  | "trap" :: action :: signals =>
    some ⟨if "EXIT" ∈ signals then { s with onExit := some action } else s, .next 0, []⟩
  | "set" :: _ | "exit" :: _ | "trap" :: _ | [] => none
  | args =>
    let r := E args input s.world
    some (finish tested { s with world := r.world } r.status r.out)

/-- Output to `fd` goes where output to `target` goes. -/
def redirect (fd target : Word) (out : Output) : Option Output :=
  if (fd = [] ∨ fd = plain "1") ∧ target = plain "2" then
    some (out.map fun o => if o.1 = 1 then (2, o.2) else o)
  else if fd = plain "2" ∧ target = plain "1" then
    some (out.map fun o => if o.1 = 2 then (1, o.2) else o)
  else none

def printed (out : Output) : String :=
  String.join ((out.filter (·.1 = 1)).map (·.2))

/-- What a substitution stands for: the output without the newlines at its end. -/
def captured (out : Output) : String :=
  String.ofList (((printed out).toList.reverse.dropWhile (· = '\n')).reverse)

def notPrinted (out : Output) : Output := out.filter (·.1 ≠ 1)

/-- The shell that runs a part of a command on its own: what it leaves is the world. -/
def inSubshell (s : State σ) : State σ := { s with onExit := none }

mutual

/-- A command; `tested` says that its status is looked at, so that `-e` does not apply. -/
def Cmd.eval (tested : Bool) (input : String) : State σ → Cmd → Option (Result σ)
  | s, .simple words =>
    match expandAll s words with
    | none => none
    | some none => some ⟨s, .exit 2, []⟩
    | some (some args) => call E tested input s args
  | s, .assign name value =>
    match expand s value with
    | none => none
    | some .unset => some ⟨s, .exit 2, []⟩
    | some (.text cs) => some ⟨{ s with vars := (name, String.ofList cs) :: s.vars }, .next 0, []⟩
  | s, .capture name body =>
    (evalList tested input (inSubshell s) 0 body).map fun r =>
      finish tested { s with world := r.state.world, vars := (name, captured r.out) :: s.vars }
        r.flow.status (notPrinted r.out)
  | s, .duplicate c fd target =>
    match Cmd.eval tested input s c with
    | none => none
    | some r => (redirect fd target r.out).map fun out => { r with out := out }
  | s, .not c =>
    (Cmd.eval true input s c).map fun r => match r.flow with
      | .next k => { r with flow := .next (if k = 0 then 1 else 0) }
      | .exit _ => r
  | s, .pipe c d =>
    match Cmd.eval true input (inSubshell s) c with
    | none => none
    | some r =>
      (Cmd.eval true (printed r.out) { inSubshell s with world := r.state.world } d).map fun r' =>
        finish tested { s with world := r'.state.world } r'.flow.status (notPrinted r.out ++ r'.out)
  | s, .or c d =>
    match Cmd.eval true input s c with
    | none => none
    | some r => match r.flow with
      | .exit _ | .next 0 => some r
      | .next _ => (Cmd.eval tested input r.state d).map (·.after r.out)
  | s, .group body => evalList tested input s 0 body
  | s, .ifThen cond body =>
    match evalList true input s 0 cond with
    | none => none
    | some r => match r.flow with
      | .exit _ => some r
      | .next 0 => (evalList tested input r.state 0 body).map (·.after r.out)
      | .next _ => some { r with flow := .next 0 }
  | s, .case subject arms =>
    match expand s subject with
    | none => none
    | some .unset => some ⟨s, .exit 2, []⟩
    | some (.text cs) => evalArms tested input s cs arms

/-- Commands one after the other; `status` is that of the command before. -/
def evalList (tested : Bool) (input : String) : State σ → Nat → List Cmd → Option (Result σ)
  | s, status, [] => some ⟨s, .next status, []⟩
  | s, _, c :: cs =>
    match Cmd.eval tested input s c with
    | none => none
    | some r => match r.flow with
      | .exit _ => some r
      | .next k => (evalList tested input r.state k cs).map (·.after r.out)

def evalArms (tested : Bool) (input : String) :
    State σ → List Char → List (List Word × List Cmd) → Option (Result σ)
  | s, _, [] => some ⟨s, .next 0, []⟩
  | s, cs, (patterns, body) :: arms =>
    if patterns.any (matchesPattern · cs) then evalList tested input s 0 body
    else evalArms tested input s cs arms

end

attribute [local simp] expand expandAll Cmd.eval evalList evalArms

/-- At its end a shell runs the action on `EXIT`, which keeps the status unless it ends the shell
itself. -/
def leave (r : Result σ) : Option (Effect σ) :=
  match r.state.onExit with
  | none => some ⟨r.state.world, r.flow.status, r.out⟩
  | some action => do
    let cs ← parse action
    let r' ← evalList E false "" { r.state with onExit := none } r.flow.status cs
    some ⟨r'.state.world, match r'.flow with
      | .exit k => k
      | .next _ => r.flow.status, r.out ++ r'.out⟩

/-- A script, from a shell without variables. -/
def runScript (text : String) (world : σ) : Option (Effect σ) := do
  let cs ← parse text
  let r ← evalList E false "" { world := world } 0 cs
  leave E r

/-! ## Words that are expanded -/

/-- The words stand for the arguments. -/
def Expands (s : State σ) (ws : List Word) (args : List String) : Prop :=
  expandAll s ws = some (some args)

theorem Expands.nil (s : State σ) : Expands s [] [] := rfl

theorem Expands.cons {s : State σ} {w : Word} {ws : List Word} {cs : List Char} {args : List String}
    (h : expand s w = some (.text cs)) (hs : Expands s ws args) :
    Expands s (w :: ws) (String.ofList cs :: args) := by
  unfold Expands at hs ⊢
  simp only [expandAll, h, hs]

theorem Expands.append {s : State σ} {ws vs : List Word} {as bs : List String} (h : Expands s ws as)
    (h' : Expands s vs bs) : Expands s (ws ++ vs) (as ++ bs) := by
  induction ws generalizing as with
  | nil =>
    cases h
    exact h'
  | cons w ws ih =>
    unfold Expands at h
    rw [expandAll] at h
    split at h <;> simp only [Option.some.injEq, reduceCtorEq] at h
    rename_i cs args hw hws
    subst h
    exact (ih hws).cons hw

theorem expand_lit (s : State σ) (t : String) : expand s (lit t) = some (.text t.toList) := by
  unfold lit literal
  induction t.toList with
  | nil => rfl
  | cons c cs ih =>
    rw [List.map_cons, expand, if_neg (by simp), ih]
    rfl

theorem Expands.lits (s : State σ) (ts : List String) : Expands s (ts.map lit) ts := by
  induction ts with
  | nil => exact .nil s
  | cons t ts ih =>
    have h := ih.cons (expand_lit s t)
    rwa [String.ofList_toList] at h

theorem expand_plain (s : State σ) {t : String} (h : '*' ∉ t.toList ∧ '?' ∉ t.toList) :
    expand s (plain t) = some (.text t.toList) := by
  unfold plain
  induction ht : t.toList generalizing t with
  | nil => rfl
  | cons c cs ih =>
    rw [ht] at h
    have hc : ¬ (false = false ∧ (c = '*' ∨ c = '?')) := by
      rintro ⟨-, rfl | rfl⟩
      · exact h.1 List.mem_cons_self
      · exact h.2 List.mem_cons_self
    have hih := ih (t := String.ofList cs) (by
      rw [String.toList_ofList]
      exact ⟨fun hm => h.1 (List.mem_cons_of_mem _ hm), fun hm => h.2 (List.mem_cons_of_mem _ hm)⟩)
      String.toList_ofList
    rw [List.map_cons, expand, if_neg hc, hih]
    rfl

theorem Expands.var {s : State σ} {name value : String} (h : s.vars.lookup name = some value) :
    Expands s [[.var name true]] [value] := by
  unfold Expands
  simp [h]

/-! ## Rules -/

variable {E} {tested : Bool} {input : String} {s s' s'' : State σ} {cs ds : List Cmd} {c : Cmd}

/-- The commands end with status zero in the state `s'`. -/
def Passes (E : Programs σ) (tested : Bool) (input : String) (s : State σ) (cs : List Cmd)
    (s' : State σ) : Prop :=
  ∃ out, evalList E tested input s 0 cs = some ⟨s', .next 0, out⟩

/-- The commands end the shell, in the state `s'` and with a status other than zero. -/
def Aborts (E : Programs σ) (tested : Bool) (input : String) (s : State σ) (cs : List Cmd)
    (s' : State σ) : Prop :=
  ∃ k out, evalList E tested input s 0 cs = some ⟨s', .exit (k + 1), out⟩

theorem evalList_append (k : Nat) :
    evalList E tested input s k (cs ++ ds) = (evalList E tested input s k cs).bind fun r =>
      match r.flow with
      | .exit _ => some r
      | .next k' => (evalList E tested input r.state k' ds).map (·.after r.out) := by
  induction cs generalizing s k with
  | nil =>
    simp only [List.nil_append, evalList, Option.bind_some]
    cases evalList E tested input s k ds <;> rfl
  | cons c cs ih =>
    simp only [List.cons_append, evalList]
    cases Cmd.eval E tested input s c with
    | none => rfl
    | some r =>
      obtain ⟨s₁, flow, out⟩ := r
      cases flow with
      | exit _ => rfl
      | next k₁ =>
        simp only [ih]
        cases evalList E tested input s₁ k₁ cs with
        | none => rfl
        | some r₁ =>
          obtain ⟨s₂, flow₁, out₁⟩ := r₁
          cases flow₁ with
          | exit _ => rfl
          | next k₂ =>
            simp only [Option.bind_some, Option.map_some, Result.after, Option.map_map]
            congr 1
            funext r₂
            simp

theorem Passes.nil : Passes E tested input s [] s := ⟨[], rfl⟩

theorem Passes.one {o : Output} (h : c.eval E tested input s = some ⟨s', .next 0, o⟩) :
    Passes E tested input s [c] s' :=
  ⟨o ++ [], by simp [evalList, h, Result.after]⟩

theorem Passes.append (h : Passes E tested input s cs s') (h' : Passes E tested input s' ds s'') :
    Passes E tested input s (cs ++ ds) s'' := by
  obtain ⟨out, h⟩ := h
  obtain ⟨out', h'⟩ := h'
  refine ⟨out ++ out', ?_⟩
  simp [evalList_append, h, h', Result.after]

theorem Aborts.one {k : Nat} {o : Output}
    (h : c.eval E tested input s = some ⟨s', .exit (k + 1), o⟩) :
    Aborts E tested input s [c] s' :=
  ⟨k, o, by simp [evalList, h]⟩

theorem Aborts.append (h : Aborts E tested input s cs s') (ds : List Cmd) :
    Aborts E tested input s (cs ++ ds) s' := by
  obtain ⟨k, out, h⟩ := h
  exact ⟨k, out, by simp [evalList_append, h]⟩

theorem Passes.aborts (h : Passes E tested input s cs s') (h' : Aborts E tested input s' ds s'') :
    Aborts E tested input s (cs ++ ds) s'' := by
  obtain ⟨out, h⟩ := h
  obtain ⟨k, out', h'⟩ := h'
  exact ⟨k, out ++ out', by simp [evalList_append, h, h', Result.after]⟩

theorem call_program {name : String} {args : List String}
    (hname : name ≠ "set" ∧ name ≠ "exit" ∧ name ≠ "trap") :
    call E tested input s (name :: args) =
      some (finish tested { s with world := (E (name :: args) input s.world).world }
        (E (name :: args) input s.world).status (E (name :: args) input s.world).out) := by
  obtain ⟨h1, h2, h3⟩ := hname
  unfold call
  split <;> simp_all

/-- A call of a program, which is not one of the built-ins. -/
theorem eval_program {ws : List Word} {name : String} {args : List String}
    (hw : Expands s ws (name :: args)) (hname : name ≠ "set" ∧ name ≠ "exit" ∧ name ≠ "trap") :
    (Cmd.simple ws).eval E tested input s =
      some (finish tested { s with world := (E (name :: args) input s.world).world }
        (E (name :: args) input s.world).status (E (name :: args) input s.world).out) := by
  rw [Cmd.eval, show expandAll s ws = _ from hw]
  exact call_program hname

theorem evalList_program (tested : Bool) {ws : List Word} {name : String} {args : List String}
    {w : σ} {out : Output} (hw : Expands s ws (name :: args))
    (hname : name ≠ "set" ∧ name ≠ "exit" ∧ name ≠ "trap")
    (h : E (name :: args) input s.world = { world := w, out := out }) :
    evalList E tested input s 0 [.simple ws] = some ⟨{ s with world := w }, .next 0, out⟩ := by
  rw [evalList, eval_program hw hname, h]
  simp [finish, Result.after]

theorem Passes.program (tested : Bool) {ws : List Word} {name : String} {args : List String}
    {w : σ} {out : Output} (hw : Expands s ws (name :: args))
    (hname : name ≠ "set" ∧ name ≠ "exit" ∧ name ≠ "trap")
    (h : E (name :: args) input s.world = { world := w, out := out }) :
    Passes E tested input s [.simple ws] { s with world := w } :=
  ⟨out, evalList_program tested hw hname h⟩

theorem Aborts.program {ws : List Word} {name : String} {args : List String} {w : σ} {k : Nat}
    (hw : Expands s ws (name :: args)) (hname : name ≠ "set" ∧ name ≠ "exit" ∧ name ≠ "trap")
    (he : s.errexit = true) (h : E (name :: args) input s.world = { world := w, status := k + 1 }) :
    Aborts E false input s [.simple ws] { s with world := w } := by
  refine .one (k := k) (o := []) ?_
  rw [eval_program hw hname, h]
  simp [finish, he]

theorem Passes.capture (name : String) {out : Output}
    (h : evalList E tested input (inSubshell s) 0 cs = some ⟨s', .next 0, out⟩) :
    Passes E tested input s [.capture name cs]
      { s with world := s'.world, vars := (name, captured out) :: s.vars } := by
  refine .one (o := notPrinted out) ?_
  simp [h, finish, Flow.status]

theorem Passes.trap {ws : List Word} {action : String} {signals : List String}
    (hw : Expands s ws ("trap" :: action :: signals)) (hx : "EXIT" ∈ signals) :
    Passes E tested input s [.simple ws] { s with onExit := some action } := by
  refine .one (o := []) ?_
  rw [Cmd.eval, show expandAll s ws = _ from hw]
  simp [call, hx]

/-- A body that is run. -/
theorem Passes.ifTrue (hc : Passes E true input s cs s') (hb : Passes E tested input s' ds s'') :
    Passes E tested input s [.ifThen cs ds] s'' := by
  obtain ⟨out, hc⟩ := hc
  obtain ⟨out', hb⟩ := hb
  refine .one (o := out ++ out') ?_
  simp [hc, hb, Result.after]

/-- A body that is skipped. -/
theorem Passes.ifFalse {k : Nat} {o : Output}
    (hc : evalList E true input s 0 cs = some ⟨s', .next (k + 1), o⟩) :
    Passes E tested input s [.ifThen cs ds] s' := by
  refine .one (o := o) ?_
  simp [hc]

/-- A failed test, which does not end the shell. -/
theorem evalList_failed {ws : List Word} {name : String} {args : List String} {w : σ} {k : Nat}
    (hw : Expands s ws (name :: args)) (hname : name ≠ "set" ∧ name ≠ "exit" ∧ name ≠ "trap")
    (h : E (name :: args) input s.world = { world := w, status := k + 1 }) :
    evalList E true input s 0 [.simple ws] = some ⟨{ s with world := w }, .next (k + 1), []⟩ := by
  rw [evalList, eval_program hw hname, h]
  simp [finish, Result.after]

/-- A program that succeeds, after `!`. -/
theorem evalList_not {ws : List Word} {name : String} {args : List String} {w : σ} {out : Output}
    (hw : Expands s ws (name :: args)) (hname : name ≠ "set" ∧ name ≠ "exit" ∧ name ≠ "trap")
    (h : E (name :: args) input s.world = { world := w, out := out }) :
    evalList E tested input s 0 [.not (.simple ws)] =
      some ⟨{ s with world := w }, .next (0 + 1), out⟩ := by
  rw [evalList, Cmd.eval, eval_program hw hname, h]
  simp [finish, Result.after]

/-! ## The end of a script -/

theorem leave_none {r : Result σ} (h : r.state.onExit = none) :
    leave E r = some ⟨r.state.world, r.flow.status, r.out⟩ := by
  simp [leave, h]

theorem leave_action {r : Result σ} {action : String} (h : r.state.onExit = some action)
    (hp : parse action = some (c :: cs))
    (hr : Passes E false "" { r.state with onExit := none } (c :: cs) s') :
    ∃ out, leave E r = some ⟨s'.world, r.flow.status, out⟩ := by
  obtain ⟨out, hr⟩ := hr
  refine ⟨r.out ++ out, ?_⟩
  have hk : evalList E false "" { r.state with onExit := none } r.flow.status (c :: cs) =
      some ⟨s', .next 0, out⟩ := by
    rw [← hr]
    simp only [evalList]
  unfold leave
  rw [h]
  simp only [hp, Option.bind_eq_bind, Option.bind_some, hk]

end Eval

end Lib.Shell
