import Mytools.Lib.Text

/-!
# Shell scripts

The part of the POSIX shell language that generated scripts use. A text is read character by
character into tokens (`lex`); a word keeps which of its characters are quoted. The tokens are read
into commands (`parse`): simple commands, assignments, command substitutions that are assigned,
pipes, `||`, `!`, groups, `if` and `case`. Other commands, backquotes, `${`, substitutions in double
quotes and the special parameters are refused.

`run_append` cuts the text that is read into segments, so that fixed text is read by evaluation and
quoted text by a lemma.
-/

namespace Lib.Shell

/-! ## Tokens -/

inductive Piece where
  | char (c : Char) (quoted : Bool)
  | var (name : String) (quoted : Bool)
  deriving DecidableEq, Repr

abbrev Word := List Piece

inductive Token where
  | word (w : Word)
  /-- Digits right before a redirection. -/
  | io (w : Word)
  /-- The word so far, and `$(` at its end. -/
  | subst (w : Word)
  | op (c : Char)
  deriving DecidableEq, Repr

/-- Where in a token the reader stands. -/
inductive Mode where
  | gap
  | gapEscape
  | comment
  | word (w : Word)
  | escape (w : Word)
  | single (w : Word)
  | double (w : Word)
  | doubleEscape (w : Word)
  | dollar (w : Word) (quoted : Bool)
  | name (w : Word) (quoted : Bool) (n : List Char)
  | refused
  deriving DecidableEq, Repr

def apostrophe : Char := Char.ofNat 39

def backslash : Char := Char.ofNat 92

def quotation : Char := Char.ofNat 34

def backquote : Char := Char.ofNat 96

def isOperator (c : Char) : Bool := c ∈ ['\n', ';', '|', '&', '<', '>', '(', ')']

def isNameStart (c : Char) : Bool := c.isAlpha || c == '_'

/-- What makes an expansion of a `$` that stands before it, apart from a name. -/
def isExpansion (c : Char) : Bool :=
  c.isDigit || c ∈ ['\x7b', '(', '@', '*', '#', '?', '-', '$', '!']

def Piece.isDigit : Piece → Bool
  | .char c quoted => c.isDigit && !quoted
  | .var _ _ => false

/-- The next character of an unquoted part of a word. -/
def inWord (w : Word) (c : Char) : List Token × Mode :=
  if c = ' ' ∨ c = '\t' then ([.word w], .gap)
  else if isOperator c then
    ([if (c = '<' ∨ c = '>') ∧ w ≠ [] ∧ w.all Piece.isDigit then .io w else .word w, .op c], .gap)
  else if c = apostrophe then ([], .single w)
  else if c = quotation then ([], .double w)
  else if c = backslash then ([], .escape w)
  else if c = '$' then ([], .dollar w false)
  else if c = backquote then ([], .refused)
  else ([], .word (w ++ [.char c false]))

/-- The next character of a part in double quotes. -/
def inDouble (w : Word) (c : Char) : List Token × Mode :=
  if c = quotation then ([], .word w)
  else if c = backslash then ([], .doubleEscape w)
  else if c = '$' then ([], .dollar w true)
  else if c = backquote then ([], .refused)
  else ([], .double (w ++ [.char c true]))

def resume (quoted : Bool) (w : Word) (c : Char) : List Token × Mode :=
  if quoted then inDouble w c else inWord w c

/-- The next character between tokens. -/
def inGap (c : Char) : List Token × Mode :=
  if c = ' ' ∨ c = '\t' then ([], .gap)
  else if isOperator c then ([.op c], .gap)
  else if c = '#' then ([], .comment)
  else if c = backslash then ([], .gapEscape)
  else inWord [] c

def Mode.next : Mode → Char → List Token × Mode
  | .gap, c => inGap c
  | .gapEscape, c => if c = '\n' then ([], .gap) else ([], .word [.char c true])
  | .comment, c => if c = '\n' then ([.op c], .gap) else ([], .comment)
  | .word w, c => inWord w c
  | .escape w, c => if c = '\n' then ([], .word w) else ([], .word (w ++ [.char c true]))
  | .single w, c => if c = apostrophe then ([], .word w) else ([], .single (w ++ [.char c true]))
  | .double w, c => inDouble w c
  | .doubleEscape w, c =>
    if c = '\n' then ([], .double w)
    else if c = '$' ∨ c = quotation ∨ c = backslash ∨ c = backquote
      then ([], .double (w ++ [.char c true]))
    else ([], .double (w ++ [.char backslash true, .char c true]))
  | .dollar w quoted, c =>
    if c = '(' ∧ quoted = false then ([.subst w], .gap)
    else if isNameStart c then ([], .name w quoted [c])
    else if isExpansion c then ([], .refused)
    else resume quoted (w ++ [.char '$' quoted]) c
  | .name w quoted n, c =>
    if isNameStart c ∨ c.isDigit then ([], .name w quoted (n ++ [c]))
    else resume quoted (w ++ [.var (String.ofList n) quoted]) c
  | .refused, _ => ([], .refused)

/-- The tokens that a text completes, and where it leaves the reader. -/
def run : Mode → List Char → List Token × Mode
  | m, [] => ([], m)
  | m, c :: cs =>
    let r := m.next c
    let s := run r.2 cs
    (r.1 ++ s.1, s.2)

/-- The end of the text; it may not stand inside quotes. -/
def Mode.finish : Mode → Option (List Token)
  | .gap | .comment => some []
  | .word w => some [.word w]
  | .dollar w false => some [.word (w ++ [.char '$' false])]
  | .name w false n => some [.word (w ++ [.var (String.ofList n) false])]
  | _ => none

def lex (cs : List Char) : Option (List Token) :=
  let r := run .gap cs
  r.2.finish.map (r.1 ++ ·)

theorem run_append (m : Mode) (as bs : List Char) :
    run m (as ++ bs) = ((run m as).1 ++ (run (run m as).2 bs).1, (run (run m as).2 bs).2) := by
  induction as generalizing m with
  | nil => simp [run]
  | cons c as ih => simp [run, ih]

/-! ## Quoted text -/

/-- A text as the characters of a quoted word. -/
def literal (s : List Char) : Word := s.map (.char · true)

/-- A text in single quotes: an apostrophe is put between two quoted parts. -/
def quote (s : List Char) : List Char :=
  apostrophe :: s.flatMap (fun c => if c = apostrophe then
    [apostrophe, backslash, apostrophe, apostrophe] else [c]) ++ [apostrophe]

theorem run_single (w : Word) (s : List Char) :
    run (.single w) (s.flatMap (fun c => if c = apostrophe then
      [apostrophe, backslash, apostrophe, apostrophe] else [c]) ++ [apostrophe]) =
    ([], .word (w ++ literal s)) := by
  induction s generalizing w with
  | nil => simp [run, Mode.next, literal]
  | cons c s ih =>
    rw [List.flatMap_cons, List.append_assoc, run_append]
    by_cases hc : c = apostrophe
    · have hr : run (.single w) [apostrophe, backslash, apostrophe, apostrophe] =
          ([], .single (w ++ [.char apostrophe true])) := rfl
      rw [if_pos hc, hr, ih, hc]
      simp [literal]
    · have hr : run (.single w) [c] = ([], .single (w ++ [.char c true])) := by
        simp [run, Mode.next, hc]
      rw [if_neg hc, hr, ih]
      simp [literal]

/-- A quoted text is read as one word with just these characters. -/
theorem run_quote (s : List Char) : run .gap (quote s) = ([], .word (literal s)) := by
  have h : run .gap (quote s) = run (.single []) (s.flatMap (fun c => if c = apostrophe then
      [apostrophe, backslash, apostrophe, apostrophe] else [c]) ++ [apostrophe]) := by
    rfl
  rw [h, run_single, List.nil_append]

/-! ## Commands -/

inductive Cmd where
  | simple (words : List Word)
  | assign (name : String) (value : Word)
  /-- An assignment of what a list of commands prints. -/
  | capture (name : String) (body : List Cmd)
  /-- A command whose file descriptor `fd` (1 if empty) is made a copy of `target`. -/
  | duplicate (c : Cmd) (fd target : Word)
  | not (c : Cmd)
  | pipe (c d : Cmd)
  | or (c d : Cmd)
  | group (body : List Cmd)
  | ifThen (cond body : List Cmd)
  | case (subject : Word) (arms : List (List Word × List Cmd))

/-- A word without quoting. -/
def plain (s : String) : Word := s.toList.map (.char · false)

/-- A word that is `name=` and a value. -/
def assignment? (w : Word) : Option (String × Word) :=
  let name := w.takeWhile (· ≠ .char '=' false)
  let chars := name.filterMap fun
    | .char c false => some c
    | _ => none
  if name = w ∨ chars.length ≠ name.length ∨ isNameStart (chars.headD '=') = false then none
  else some (String.ofList chars, w.drop (name.length + 1))

/-- The words up to the next operator. -/
def takeWords : List Token → List Word × List Token
  | .word w :: ts => let r := takeWords ts; (w :: r.1, r.2)
  | ts => ([], ts)

/-- Reserved words that end a list of commands. -/
def closes : Token → Bool
  | .word w => w = plain "then" || w = plain "fi" || w = plain "\x7d" || w = plain "esac"
  | _ => false

def expect (s : String) : List Token → Option (List Token)
  | .word w :: ts => if w = plain s then some ts else none
  | _ => none

/-- A redirection of the form `>&` after a command. -/
def parseRedirect (c : Cmd) : List Token → Option (Cmd × List Token)
  | .io fd :: .op '>' :: .op '&' :: .word t :: ts => some (.duplicate c fd t, ts)
  | .op '>' :: .op '&' :: .word t :: ts => some (.duplicate c [] t, ts)
  | .io _ :: _ | .op '>' :: _ | .op '<' :: _ | .op '&' :: _ => none
  | ts => some (c, ts)

/-- The patterns of one arm of a `case`. -/
def parsePatterns : List Token → Option (List Word × List Token)
  | .word w :: .op '|' :: ts => (parsePatterns ts).map fun r => (w :: r.1, r.2)
  | .word w :: .op ')' :: ts => some ([w], ts)
  | _ => none

mutual

/-- Commands up to the end of the enclosing list, which is left in the tokens. -/
def parseList : Nat → List Token → Option (List Cmd × List Token)
  | 0, _ => none
  | _ + 1, [] => some ([], [])
  | n + 1, .op '\n' :: ts => parseList n ts
  | _ + 1, .op ';' :: .op ';' :: ts => some ([], .op ';' :: .op ';' :: ts)
  | n + 1, .op ';' :: ts => parseList n ts
  | _ + 1, .op ')' :: ts => some ([], .op ')' :: ts)
  | n + 1, t :: ts =>
    if closes t then some ([], t :: ts)
    else do
      let (c, ts) ← parseOr n (t :: ts)
      let (cs, ts) ← parseList n ts
      some (c :: cs, ts)

def parseOr : Nat → List Token → Option (Cmd × List Token)
  | 0, _ => none
  | n + 1, ts => do
    let (c, ts) ← parsePipe n ts
    match ts with
    | .op '|' :: .op '|' :: ts => do
      let (d, ts) ← parseOr n ts
      some (.or c d, ts)
    | _ => some (c, ts)

def parsePipe : Nat → List Token → Option (Cmd × List Token)
  | 0, _ => none
  | n + 1, ts => do
    let (c, ts) ← parseCmd n ts
    match ts with
    | .op '|' :: .op '|' :: _ => some (c, ts)
    | .op '|' :: ts => do
      let (d, ts) ← parsePipe n ts
      some (.pipe c d, ts)
    | _ => some (c, ts)

def parseCmd : Nat → List Token → Option (Cmd × List Token)
  | 0, _ => none
  | n + 1, .subst w :: ts => do
    let (name, value) ← assignment? w
    if value ≠ [] then none
    else
      let (body, ts) ← parseList n ts
      match ts with
      | .op ')' :: ts => some (.capture name body, ts)
      | _ => none
  | n + 1, .word w :: ts =>
    if w = plain "if" then do
      let (cond, ts) ← parseList n ts
      let ts ← expect "then" ts
      let (body, ts) ← parseList n ts
      let ts ← expect "fi" ts
      if cond.isEmpty || body.isEmpty then none else some (.ifThen cond body, ts)
    else if w = plain "\x7b" then do
      let (body, ts) ← parseList n ts
      let ts ← expect "\x7d" ts
      if body.isEmpty then none else some (.group body, ts)
    else if w = plain "!" then do
      let (c, ts) ← parseCmd n ts
      some (.not c, ts)
    else if w = plain "case" then
      match ts with
      | .word subject :: ts => do
        let ts ← expect "in" ts
        let (arms, ts) ← parseArms n ts
        some (.case subject arms, ts)
      | _ => none
    else match assignment? w with
      | some (name, value) => some (.assign name value, ts)
      | none => let r := takeWords (.word w :: ts); parseRedirect (.simple r.1) r.2
  | _ + 1, _ => none

def parseArms : Nat → List Token → Option (List (List Word × List Cmd) × List Token)
  | 0, _ => none
  | n + 1, .op '\n' :: ts => parseArms n ts
  | n + 1, ts =>
    match expect "esac" ts with
    | some ts => some ([], ts)
    | none => do
      let (patterns, ts) ← parsePatterns ts
      let (body, ts) ← parseList n ts
      match ts with
      | .op ';' :: .op ';' :: ts => do
        let (arms, ts) ← parseArms n ts
        some ((patterns, body) :: arms, ts)
      | _ => none

end

/-- A whole script. Every call of the parser reads a token or is one of a few on the same token,
so the length of the text is enough fuel. -/
def parse (s : String) : Option (List Cmd) := do
  let ts ← lex s.toList
  match ← parseList (5 * s.length + 5) ts with
  | (cs, []) => some cs
  | _ => none

/-! ## Calls -/

def Piece.text : Piece → List Char
  | .char c _ => [c]
  | .var name _ => '$' :: name.toList

/-- The text of a word; a variable is left as it is written. -/
def text (w : Word) : String := String.ofList (w.flatMap Piece.text)

mutual

/-- The simple commands inside a command, in the order of the text. -/
def Cmd.simples : Cmd → List (List Word)
  | .simple words => [words]
  | .assign _ _ => []
  | .capture _ body => simplesList body
  | .duplicate c _ _ => c.simples
  | .not c => c.simples
  | .pipe c d => c.simples ++ d.simples
  | .or c d => c.simples ++ d.simples
  | .group body => simplesList body
  | .ifThen cond body => simplesList cond ++ simplesList body
  | .case _ arms => simplesArms arms

def simplesList : List Cmd → List (List Word)
  | [] => []
  | c :: cs => c.simples ++ simplesList cs

def simplesArms : List (List Word × List Cmd) → List (List Word)
  | [] => []
  | (_, body) :: arms => simplesList body ++ simplesArms arms

end

attribute [simp] Cmd.simples simplesList simplesArms

/-- The arguments of every call of a program in a script. -/
def calls (program : String) (cmds : List Cmd) : List (List String) :=
  (simplesList cmds).filterMap fun words =>
    match words.map text with
    | name :: args => if name = program then some args else none
    | [] => none

theorem simplesList_append (cs ds : List Cmd) :
    simplesList (cs ++ ds) = simplesList cs ++ simplesList ds := by
  induction cs with
  | nil => rfl
  | cons c cs ih => simp [ih]

theorem calls_append (program : String) (cs ds : List Cmd) :
    calls program (cs ++ ds) = calls program cs ++ calls program ds := by
  rw [calls, simplesList_append, List.filterMap_append]
  rfl

@[simp] theorem text_plain (s : String) : text (plain s) = s := by
  apply String.toList_injective
  rw [text, String.toList_ofList, plain, List.flatMap_map]
  exact List.flatMap_singleton' _

@[simp] theorem text_literal (s : String) : text (literal s.toList) = s := by
  apply String.toList_injective
  rw [text, String.toList_ofList, literal, List.flatMap_map]
  exact List.flatMap_singleton' _

end Lib.Shell
