import Mytools.Lib.Script

/-!
# The calls of a script

What a script passes to the programs it calls (`invocations`), and the script without these
arguments (`outline`): the programs, the order they are called in and what decides whether they are.
-/

namespace Lib.Shell

/-! ## Arguments -/

/-- An argument is a text that nothing expands, or the value of a variable in double quotes. -/
inductive Arg where
  | text (s : String)
  | value (name : String)
  deriving DecidableEq, Repr

def Piece.isChar : Piece → Bool
  | .char _ _ => true
  | .var _ _ => false

/-- The word is more than its characters: a pattern for file names, or a home directory. -/
def expands (w : Word) : Bool :=
  w.any (fun p => p = .char '*' false || p = .char '?' false || p = .char '~' false) ||
    (w.any (· = .char '[' false) && w.any (· = .char ']' false))

/-- The one argument that a word is passed as, if it is passed as it stands. -/
def arg? : Word → Option Arg
  | [.var name true] => some (.value name)
  | w => if w.all Piece.isChar && !expands w then some (.text (text w)) else none

/-- Every call with its arguments, the name of the program first. -/
def invocations (cmds : List Cmd) : List (List (Option Arg)) :=
  (simplesList cmds).map (·.map arg?)

theorem arg?_chars {w : Word} (hc : w.all Piece.isChar = true) (he : expands w = false) :
    arg? w = some (.text (text w)) := by
  unfold arg?
  split
  · simp [Piece.isChar] at hc
  · rw [hc, he]
    rfl

@[simp] theorem arg?_var (name : String) : arg? [.var name true] = some (.value name) := by
  rw [arg?]

/-- A quoted text is passed as it is. -/
@[simp] theorem arg?_lit (s : String) : arg? (lit s) = some (.text s) := by
  have hc : (lit s).all Piece.isChar = true := by simp [lit, literal, Piece.isChar]
  have he : expands (lit s) = false := by simp [expands, lit, literal]
  rw [arg?_chars hc he, lit, text_literal]

/-- A number needs no quotes. -/
theorem arg?_digits {s : String} (h : s.toList.all Char.isDigit = true) :
    arg? (plain s) = some (.text s) := by
  have hc : (plain s).all Piece.isChar = true := by simp [plain, Piece.isChar]
  have hne : ∀ p ∈ plain s, ∀ d : Char, d.isDigit = false → p ≠ .char d false := by
    intro p hp d hd
    obtain ⟨c, hm, rfl⟩ := List.mem_map.1 hp
    intro h'
    exact ne_of_isDigit (List.all_eq_true.1 h c hm) hd (Piece.char.inj h').1
  have he : expands (plain s) = false := by
    rw [expands, Bool.or_eq_false_iff, Bool.and_eq_false_iff]
    refine ⟨List.any_eq_false.2 fun p hp => ?_, .inl (List.any_eq_false.2 fun p hp => ?_)⟩
    · simp [hne p hp '*' (by decide), hne p hp '?' (by decide), hne p hp '~' (by decide)]
    · simp [hne p hp '[' (by decide)]
  rw [arg?_chars hc he, text_plain]

theorem invocations_append (cs ds : List Cmd) :
    invocations (cs ++ ds) = invocations cs ++ invocations ds := by
  rw [invocations, simplesList_append, List.map_append]
  rfl

/-! ## Outlines -/

mutual

/-- A command without the arguments of the simple commands in it. -/
def Cmd.outline : Cmd → Cmd
  | .simple words => .simple (words.take 1)
  | .assign name value => .assign name value
  | .capture name body => .capture name (outlineList body)
  | .duplicate c fd target => .duplicate c.outline fd target
  | .not c => .not c.outline
  | .pipe c d => .pipe c.outline d.outline
  | .or c d => .or c.outline d.outline
  | .group body => .group (outlineList body)
  | .ifThen cond body => .ifThen (outlineList cond) (outlineList body)
  | .case subject arms => .case subject (outlineArms arms)

def outlineList : List Cmd → List Cmd
  | [] => []
  | c :: cs => c.outline :: outlineList cs

def outlineArms : List (List Word × List Cmd) → List (List Word × List Cmd)
  | [] => []
  | (patterns, body) :: arms => (patterns, outlineList body) :: outlineArms arms

end

theorem outlineList_append (cs ds : List Cmd) :
    outlineList (cs ++ ds) = outlineList cs ++ outlineList ds := by
  induction cs with
  | nil => rfl
  | cons c cs ih => rw [List.cons_append, outlineList, ih, outlineList, List.cons_append]

end Lib.Shell
