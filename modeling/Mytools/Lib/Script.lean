import Mytools.Lib.Shell

/-!
# Reading a script in pieces

`Lexes` cuts a text for the reader of tokens, `Script` a script for the parser: a script that is put
together from statements is read as the commands of the statements, one after the other.
-/

namespace Lib.Shell

/-! ## Tokens -/

/-- The reader in mode `m` reads the text as the tokens and is then in mode `m'`. -/
def Lexes (m : Mode) (text : String) (ts : List Token) (m' : Mode) : Prop :=
  run m text.toList = (ts, m')

theorem Lexes.append {m m' m'' : Mode} {a b : String} {ts us : List Token} (h : Lexes m a ts m')
    (h' : Lexes m' b us m'') : Lexes m (a ++ b) (ts ++ us) m'' := by
  unfold Lexes at *
  rw [String.toList_append, run_append, h, h']

/-- A long text is read in two parts. -/
theorem Lexes.cut {m m' m'' : Mode} {text a b : String} {ts us : List Token} (h : Lexes m a ts m')
    (h' : Lexes m' b us m'') (he : text = a ++ b) : Lexes m text (ts ++ us) m'' :=
  he ▸ h.append h'

/-- A quoted text. -/
def quoted (s : String) : String := String.ofList (quote s.toList)

theorem quote_clean {cs : List Char} (h : apostrophe ∉ cs) :
    cs.flatMap (fun c => if c = apostrophe then [apostrophe, backslash, apostrophe, apostrophe]
      else [c]) = cs := by
  induction cs with
  | nil => rfl
  | cons c cs ih =>
    have hc : c ≠ apostrophe := fun he => h (he ▸ List.mem_cons_self)
    rw [List.flatMap_cons, if_neg hc, ih fun hm => h (List.mem_cons_of_mem _ hm)]
    rfl

/-- A text without an apostrophe is only put between two. -/
theorem quoted_clean {s : String} (h : apostrophe ∉ s.toList) :
    quoted s = "\x27" ++ s ++ "\x27" := by
  apply String.toList_injective
  rw [quoted, String.toList_ofList, quote, quote_clean h]
  simp [String.toList_append]
  rfl

/-- The word that a quoted text is read as. -/
def lit (s : String) : Word := literal s.toList

theorem lexes_quoted (s : String) : Lexes .gap (quoted s) [] (.word (lit s)) := by
  unfold Lexes quoted
  rw [String.toList_ofList]
  exact run_quote _

theorem lexes_blank (w : Word) : Lexes (.word w) " " [.word w] .gap := rfl

theorem lexes_newline (w : Word) : Lexes (.word w) "\n" [.word w, .op '\n'] .gap := rfl

theorem lexes_quoted_blank (s : String) : Lexes .gap (quoted s ++ " ") [.word (lit s)] .gap :=
  (lexes_quoted s).append (lexes_blank _)

theorem lexes_quoted_newline (s : String) :
    Lexes .gap (quoted s ++ "\n") [.word (lit s), .op '\n'] .gap :=
  (lexes_quoted s).append (lexes_newline _)

/-- Quoted texts with blanks between and after them. -/
theorem lexes_quoted_list : ∀ {ss : List String}, ss ≠ [] →
    Lexes .gap (" ".intercalate (ss.map quoted) ++ " ") ((ss.map lit).map .word) .gap
  | [], h => absurd rfl h
  | [s], _ => by
    rw [List.map_singleton, String.intercalate_singleton]
    exact (lexes_quoted s).append rfl
  | s :: s' :: ss, _ => by
    have hcut : " ".intercalate ((s :: s' :: ss).map quoted) =
        quoted s ++ " " ++ " ".intercalate ((s' :: ss).map quoted) := String.intercalate_cons_cons
    rw [hcut, String.append_assoc]
    exact (lexes_quoted_blank s).append (lexes_quoted_list (List.cons_ne_nil s' ss))

theorem ne_of_isDigit {c d : Char} (h : c.isDigit = true) (hd : d.isDigit = false) : c ≠ d := by
  rintro rfl
  rw [hd] at h
  cases h

theorem isOperator_digit {c : Char} (h : c.isDigit = true) : isOperator c = false := by
  have hne : ∀ d ∈ ['\n', ';', '|', '&', '<', '>', '(', ')'], d.isDigit = false := by simp
  rw [isOperator, decide_eq_false_iff_not]
  exact fun hm => ne_of_isDigit h (hne c hm) rfl

/-- A digit belongs to the word. -/
theorem inWord_digit (w : Word) {c : Char} (h : c.isDigit = true) :
    inWord w c = ([], .word (w ++ [.char c false])) := by
  have hne : ∀ d : Char, d.isDigit = false → c ≠ d := fun d => ne_of_isDigit h
  unfold inWord
  rw [if_neg (not_or.2 ⟨hne _ (by decide), hne _ (by decide)⟩),
    if_neg (by simp [isOperator_digit h]),
    if_neg (hne _ (by decide)), if_neg (hne _ (by decide)), if_neg (hne _ (by decide)),
    if_neg (hne _ (by decide)), if_neg (hne _ (by decide))]

theorem inGap_digit {c : Char} (h : c.isDigit = true) : inGap c = inWord [] c := by
  have hne : ∀ d : Char, d.isDigit = false → c ≠ d := fun d => ne_of_isDigit h
  unfold inGap
  rw [if_neg (not_or.2 ⟨hne _ (by decide), hne _ (by decide)⟩),
    if_neg (by simp [isOperator_digit h]), if_neg (hne _ (by decide)), if_neg (hne _ (by decide))]

theorem run_digits (w : Word) : ∀ {cs : List Char}, cs.all Char.isDigit = true →
    run (.word w) cs = ([], .word (w ++ cs.map (.char · false)))
  | [], _ => by simp [run]
  | c :: cs, h => by
    rw [List.all_cons, Bool.and_eq_true] at h
    simp only [run, Mode.next, inWord_digit w h.1, run_digits _ h.2, List.nil_append, List.map_cons,
      List.append_assoc, List.singleton_append]

/-- An unquoted number is a word. -/
theorem lexes_digits {s : String} (hne : s ≠ "") (h : s.toList.all Char.isDigit = true) :
    Lexes .gap s [] (.word (plain s)) := by
  unfold Lexes plain
  cases hs : s.toList with
  | nil => exact absurd (String.toList_eq_nil_iff.1 hs) hne
  | cons c cs =>
    rw [hs, List.all_cons, Bool.and_eq_true] at h
    simp only [run, Mode.next, inGap_digit h.1, inWord_digit [] h.1, run_digits _ h.2,
      List.nil_append, List.map_cons, List.singleton_append]

/-! ## Statements -/

/-- The token begins a command. -/
def Token.begins : Token → Bool
  | .subst _ => true
  | .word w => !closes (.word w)
  | _ => false

/-- A text that ends a line and is read as one command, whatever follows. -/
structure Statement (text : String) (c : Cmd) : Prop where
  lexed : ∃ t ts, t.begins = true ∧ Lexes .gap text (t :: ts ++ [.op '\n']) .gap ∧
    ∀ n rest, parseOr (n + 40) (t :: ts ++ .op '\n' :: rest) = some (c, .op '\n' :: rest)
  length : 2 ≤ text.length

theorem two_le_append {a b : String} (h : 2 ≤ a.length) : 2 ≤ (a ++ b).length := by
  rw [String.length_append]
  omega

/-- A text that is read as the commands, whatever follows. Each command and each line takes a unit
of the parser's fuel, and leaves enough for what stands inside a command. -/
def Script (text : String) (cmds : List Cmd) : Prop :=
  ∃ ts j, Lexes .gap text ts .gap ∧ j ≤ text.length ∧
    ∀ n rest, parseList (n + 50 + j) (ts ++ rest) =
      (parseList (n + 50) rest).map fun r => (cmds ++ r.1, r.2)

theorem parseList_begins {t : Token} (h : t.begins = true) (n : Nat) (ts : List Token) :
    parseList (n + 1) (t :: ts) = (parseOr n (t :: ts)).bind fun r =>
      (parseList n r.2).map fun s => (r.1 :: s.1, s.2) := by
  cases t with
  | word w =>
    have hc : closes (.word w) = false := by simpa [Token.begins] using h
    rw [parseList]
    · simp only [hc, Bool.false_eq_true, if_false, Option.bind_eq_bind]
      cases parseOr n (.word w :: ts) with
      | none => rfl
      | some r => cases hp : parseList n r.2 <;> simp [hp]
    all_goals simp
  | subst w =>
    rw [parseList]
    · simp only [closes, Bool.false_eq_true, if_false, Option.bind_eq_bind]
      cases parseOr n (.subst w :: ts) with
      | none => rfl
      | some r => cases hp : parseList n r.2 <;> simp [hp]
    all_goals simp
  | io w => simp [Token.begins] at h
  | op c => simp [Token.begins] at h

theorem Script.empty : Script "" [] :=
  ⟨[], 0, rfl, Nat.zero_le _, fun n rest => by simp⟩

theorem Script.append {a b : String} {cs ds : List Cmd} (h : Script a cs) (h' : Script b ds) :
    Script (a ++ b) (cs ++ ds) := by
  obtain ⟨ts, j, hl, hj, hp⟩ := h
  obtain ⟨us, k, hl', hk, hp'⟩ := h'
  refine ⟨ts ++ us, j + k, hl.append hl', by rw [String.length_append]; omega, fun n rest => ?_⟩
  have hn : n + 50 + (j + k) = n + k + 50 + j := by omega
  have hn' : n + k + 50 = n + 50 + k := by omega
  rw [hn, List.append_assoc, hp, hn', hp', Option.map_map]
  congr 1
  funext r
  simp

theorem Statement.script {text : String} {c : Cmd} (h : Statement text c) : Script text [c] := by
  obtain ⟨⟨t, ts, hb, hl, hp⟩, hlen⟩ := h
  refine ⟨_, 2, hl, hlen, fun n rest => ?_⟩
  have hassoc : t :: ts ++ [.op '\n'] ++ rest = t :: (ts ++ .op '\n' :: rest) := by simp
  rw [hassoc, parseList_begins hb]
  have hcmd := hp (n + 11) rest
  rw [List.cons_append] at hcmd
  rw [hcmd, Option.bind_some]
  have hline : parseList (n + 50 + 1) (.op '\n' :: rest) = parseList (n + 50) rest := rfl
  rw [hline]
  rfl

/-- The first line of a script. -/
theorem Script.shebang : Script "#!/bin/sh\n" [] :=
  ⟨[.op '\n'], 1, rfl, by decide, fun n rest => by
    have h : parseList (n + 50 + 1) ([.op '\n'] ++ rest) = parseList (n + 50) rest := rfl
    rw [h]
    simp⟩

theorem Script.parse {text : String} {cs : List Cmd} (h : Script text cs)
    (hlen : 12 ≤ text.length) :
    parse text = some cs := by
  obtain ⟨ts, j, hl, hj, hp⟩ := h
  have hlex : lex text.toList = some ts := by
    rw [lex, hl]
    simp [Mode.finish]
  have hfuel : 5 * text.length + 5 = (5 * text.length + 5 - 50 - j) + 50 + j := by omega
  have hend := hp (5 * text.length + 5 - 50 - j) []
  have hnil : parseList (5 * text.length + 5 - 50 - j + 50) [] = some ([], []) := rfl
  rw [List.append_nil, hnil, ← hfuel] at hend
  simp [Shell.parse, hlex, hend]

/-! ## Simple commands -/

theorem takeWords_map (ws : List Word) (c : Char) (ts : List Token) :
    takeWords (ws.map .word ++ .op c :: ts) = (ws, .op c :: ts) := by
  induction ws with
  | nil => rfl
  | cons w ws ih => simp [takeWords, ih]

/-- Words of which the first is neither reserved nor an assignment. -/
structure Simple (w : Word) : Prop where
  reserved : w ≠ plain "if" ∧ w ≠ plain "\x7b" ∧ w ≠ plain "!" ∧ w ≠ plain "case"
  value : assignment? w = none

theorem parseOr_simple {w : Word} (h : Simple w) (n : Nat) (ws : List Word) (ts : List Token) :
    parseOr (n + 40) ((w :: ws).map .word ++ .op '\n' :: ts) =
      some (.simple (w :: ws), .op '\n' :: ts) := by
  have hcmd : parseCmd (n + 38) ((w :: ws).map .word ++ .op '\n' :: ts) =
      some (.simple (w :: ws), .op '\n' :: ts) := by
    rw [List.map_cons, List.cons_append, parseCmd.eq_def]
    simp only []
    rw [if_neg h.reserved.1, if_neg h.reserved.2.1, if_neg h.reserved.2.2.1,
      if_neg h.reserved.2.2.2, h.value]
    simp only [← List.cons_append, ← List.map_cons, takeWords_map]
    rfl
  rw [parseOr, parsePipe, hcmd]
  rfl

theorem Statement.simple {w : Word} (h : Simple w) (hc : closes (.word w) = false) {ws : List Word}
    {text : String} (hl : Lexes .gap text ((w :: ws).map .word ++ [.op '\n']) .gap)
    (hlen : 2 ≤ text.length) : Statement text (.simple (w :: ws)) :=
  ⟨⟨.word w, ws.map .word, by simp [Token.begins, hc], hl,
    fun n rest => parseOr_simple h n ws rest⟩, hlen⟩

end Lib.Shell
