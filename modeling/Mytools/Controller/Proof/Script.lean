import Mytools.Controller.Proof.Render
import Mytools.Lib.Script

/-!
# The commands of the restore scripts

Each script is read back by the shell's own rules (`Lib.Shell.parse`): the commands below are what
the texts of `Config/Script.lean` say, for every path, flag and name that they quote.
-/

namespace Controller.Config

open Lib V1alpha1 Shell

/-! ## Quoting -/

theorem shellQuote_ok {s q : String} (h : shellQuote s = .ok q) : q = quoted s := by
  unfold shellQuote at h
  split at h
  · cases h
  · cases h
    rfl

theorem quoteFlags_ok : ∀ {flags qs : List String}, quoteFlags flags = .ok qs →
    qs = flags.map quoted
  | [], qs, h => by
    cases h
    rfl
  | flag :: flags, qs, h => by
    simp only [quoteFlags, bind_ok_iff] at h
    obtain ⟨q, hq, rest, hr, he⟩ := h
    cases he
    rw [shellQuote_ok hq, quoteFlags_ok hr, List.map_cons]

/-! ## Restores -/

def tmpVar : Word := [.var "restore_tmp" true]

def restoreCmd (flags : List String) (configFile dbPath : String) : Cmd :=
  .simple (plain "litestream" :: plain "restore" :: flags.map lit ++
    [plain "-config", lit configFile, lit dbPath])

theorem simple_litestream : Simple (plain "litestream") := ⟨by decide, by decide⟩

theorem RestorePolicy.flags_ne (p : RestorePolicy) : p.flags ≠ [] := by
  simp [RestorePolicy.flags]

theorem restoreLine_statement {flags : List String} {configFile dbPath text : String}
    (hne : flags ≠ []) (h : restoreLine flags configFile dbPath = .ok text) :
    Statement text (restoreCmd flags configFile dbPath) := by
  simp only [restoreLine, bind_ok_iff] at h
  obtain ⟨qs, hqs, c, hc, d, hd, he⟩ := h
  cases he
  rw [quoteFlags_ok hqs, shellQuote_ok hc, shellQuote_ok hd]
  have hA : Lexes .gap "litestream restore " [.word (plain "litestream"), .word (plain "restore")]
    .gap := rfl
  have hC : Lexes .gap "\\\n  -config " [.word (plain "-config")] .gap := rfl
  have hall := (((hA.append (lexes_quoted_list hne)).append hC).append
    (lexes_quoted_blank configFile)).append (lexes_quoted_newline dbPath)
  have hcut : (" \\\n  -config " : String) = " " ++ "\\\n  -config " := rfl
  refine Statement.simple simple_litestream (by decide) ?_ ?_
  · rw [hcut]
    simp only [String.append_assoc] at hall ⊢
    simpa using hall
  · simp only [String.append_assoc]
    exact two_le_append (by decide)

def restoreTemplate (dbPath : String) : String :=
  Path.join (Path.dir dbPath) ".litestream-restore-XXXXXX"

/-- The statements of a staged restore. -/
def stagedRestoreCmds (flags : List String) (configFile dbPath : String) : List Cmd :=
  [.capture "restore_tmp" [.simple [plain "mktemp", lit (restoreTemplate dbPath)]],
    .simple [plain "trap", lit "rm -f \"$restore_tmp\"", plain "EXIT", plain "HUP", plain "INT",
      plain "TERM"],
    .simple (plain "litestream" :: plain "restore" :: flags.map lit ++
      [plain "-config", lit configFile, plain "-o", tmpVar, lit dbPath]),
    .ifThen [.simple [plain "[", plain "-s", tmpVar, plain "]"]]
      [.simple [plain "mv", tmpVar, lit dbPath],
        .simple [plain "rm", plain "-f", lit (dbPath ++ "-wal"), lit (dbPath ++ "-shm"),
          lit (dbPath ++ "-journal")]]]

theorem mktemp_statement (template : String) :
    Statement ("restore_tmp=$(mktemp " ++ quoted template ++ ")\n")
      (.capture "restore_tmp" [.simple [plain "mktemp", lit template]]) := by
  have hA : Lexes .gap "restore_tmp=$(mktemp " [.subst (plain "restore_tmp="),
    .word (plain "mktemp")] .gap := rfl
  have hB : Lexes (.word (lit template)) ")\n" [.word (lit template), .op ')', .op '\n'] .gap := rfl
  refine ⟨⟨.subst (plain "restore_tmp="), [.word (plain "mktemp"), .word (lit template), .op ')'],
    rfl, (hA.append (lexes_quoted template)).append hB, fun n rest => rfl⟩, ?_⟩
  rw [String.append_assoc]
  exact two_le_append (by decide)

theorem trap_statement : Statement "trap 'rm -f \"$restore_tmp\"' EXIT HUP INT TERM\n"
    (.simple [plain "trap", lit "rm -f \"$restore_tmp\"", plain "EXIT", plain "HUP", plain "INT",
      plain "TERM"]) :=
  Statement.simple ⟨by decide, by decide⟩ (by decide) rfl (by decide)

theorem replace_statement (dbPath wal shm journal : String) :
    Statement ("if [ -s \"$restore_tmp\" ]; then\n" ++ "  mv \"$restore_tmp\" " ++ quoted dbPath ++
        "\n" ++ "  rm -f " ++ quoted wal ++ " " ++ quoted shm ++ " " ++ quoted journal ++ "\n" ++
        "fi\n")
      (.ifThen [.simple [plain "[", plain "-s", tmpVar, plain "]"]]
        [.simple [plain "mv", tmpVar, lit dbPath],
          .simple [plain "rm", plain "-f", lit wal, lit shm, lit journal]]) := by
  have hA : Lexes .gap "if [ -s \"$restore_tmp\" ]; then\n" [.word (plain "if"), .word (plain "["),
    .word (plain "-s"), .word tmpVar, .word (plain "]"), .op ';', .word (plain "then"), .op '\n']
    .gap := rfl
  have hB : Lexes .gap "  mv \"$restore_tmp\" " [.word (plain "mv"), .word tmpVar] .gap := rfl
  have hC : Lexes .gap "  rm -f " [.word (plain "rm"), .word (plain "-f")] .gap := rfl
  have hD : Lexes .gap "fi\n" [.word (plain "fi"), .op '\n'] .gap := rfl
  have hall := ((((((hA.append hB).append (lexes_quoted_newline dbPath)).append hC).append
    (lexes_quoted_blank wal)).append (lexes_quoted_blank shm)).append
    (lexes_quoted_newline journal)).append hD
  refine ⟨⟨.word (plain "if"), [.word (plain "["), .word (plain "-s"), .word tmpVar,
    .word (plain "]"), .op ';', .word (plain "then"), .op '\n', .word (plain "mv"), .word tmpVar,
    .word (lit dbPath), .op '\n', .word (plain "rm"), .word (plain "-f"), .word (lit wal),
    .word (lit shm), .word (lit journal), .op '\n', .word (plain "fi")], by decide, ?_,
    fun n rest => rfl⟩, ?_⟩
  · simp only [String.append_assoc] at hall ⊢
    exact hall
  · simp only [String.append_assoc]
    exact two_le_append (by decide)

theorem stagedRestoreLine_script {flags : List String} {configFile dbPath text : String}
    (hne : flags ≠ []) (h : stagedRestoreLine flags configFile dbPath = .ok text) :
    Script text (stagedRestoreCmds flags configFile dbPath) := by
  simp only [stagedRestoreLine, bind_ok_iff] at h
  obtain ⟨qs, hqs, c, hc, d, hd, t, ht, w, hw, s, hs, j, hj, he⟩ := h
  obtain rfl := pure_ok_iff.1 he
  rw [quoteFlags_ok hqs, shellQuote_ok hc, shellQuote_ok hd, shellQuote_ok ht, shellQuote_ok hw,
    shellQuote_ok hs, shellQuote_ok hj]
  have hrestore : Statement ("litestream restore " ++ " ".intercalate (flags.map quoted) ++
      " \\\n  -config " ++ quoted configFile ++ " -o \"$restore_tmp\" " ++ quoted dbPath ++ "\n")
      (.simple (plain "litestream" :: plain "restore" :: flags.map lit ++
        [plain "-config", lit configFile, plain "-o", tmpVar, lit dbPath])) := by
    have hA : Lexes .gap "litestream restore " [.word (plain "litestream"),
      .word (plain "restore")] .gap := rfl
    have hC : Lexes .gap "\\\n  -config " [.word (plain "-config")] .gap := rfl
    have hD : Lexes (.word (lit configFile)) " -o \"$restore_tmp\" " [.word (lit configFile),
      .word (plain "-o"), .word tmpVar] .gap := rfl
    have hall := ((((hA.append (lexes_quoted_list hne)).append hC).append
      (lexes_quoted configFile)).append hD).append (lexes_quoted_newline dbPath)
    have hcut : (" \\\n  -config " : String) = " " ++ "\\\n  -config " := rfl
    refine Statement.simple simple_litestream (by decide) ?_ ?_
    · rw [hcut]
      simp only [String.append_assoc] at hall ⊢
      simpa using hall
    · simp only [String.append_assoc]
      exact two_le_append (by decide)
  have hall :=
    (((mktemp_statement (restoreTemplate dbPath)).script.append trap_statement.script).append
    hrestore.script).append (replace_statement dbPath (dbPath ++ "-wal") (dbPath ++ "-shm")
      (dbPath ++ "-journal")).script
  simp only [String.append_assoc] at hall ⊢
  exact hall

def buildRestoreCmds (policy : RestorePolicy) (configFile dbPath : String) : List Cmd :=
  if policy.ifDatabaseExists = .overwrite then stagedRestoreCmds policy.flags configFile dbPath
  else [restoreCmd policy.flags configFile dbPath]

theorem buildRestoreLine_script {policy : RestorePolicy} {configFile dbPath text : String}
    (h : buildRestoreLine policy configFile dbPath = .ok text) :
    Script text (buildRestoreCmds policy configFile dbPath) := by
  unfold buildRestoreLine at h
  unfold buildRestoreCmds
  by_cases ho : policy.ifDatabaseExists = .overwrite
  · rw [if_pos ho] at h ⊢
    exact stagedRestoreLine_script policy.flags_ne h
  · rw [if_neg ho] at h ⊢
    exact (restoreLine_statement policy.flags_ne h).script

/-! ## Modes -/

def chmodCmd (mode path : String) : Cmd :=
  .ifThen [.not (.simple [plain "chmod", plain mode, lit path])]
    [.duplicate (.simple [plain "echo", lit "error: unable to apply Litestream permissions"]) []
      (plain "2"),
    .simple [plain "exit", plain "1"]]

def chmodTokens (mode path : String) : List Token :=
  [.word (plain "if"), .word (plain "!"), .word (plain "chmod"), .word (plain mode),
    .word (lit path), .op ';', .word (plain "then"), .op '\n', .word (plain "echo"),
    .word (lit "error: unable to apply Litestream permissions"), .op '>', .op '&',
    .word (plain "2"), .op '\n', .word (plain "exit"), .word (plain "1"), .op '\n',
    .word (plain "fi"), .op '\n']

/-- A mode is written without quotes. -/
def IsMode (mode : String) : Prop := mode ≠ "" ∧ mode.toList.all Char.isDigit = true

theorem chmodLine_lexes {mode : String} (hm : IsMode mode) (path : String) :
    Lexes .gap (chmodLine mode (quoted path)) (chmodTokens mode path) .gap := by
  have hA : Lexes .gap "  if ! chmod " [.word (plain "if"), .word (plain "!"),
    .word (plain "chmod")] .gap := rfl
  have hC : Lexes (.word (lit path)) "; then\n" [.word (lit path), .op ';', .word (plain "then"),
    .op '\n'] .gap := rfl
  have hD₁ : Lexes .gap "    echo 'error: unable to " [.word (plain "echo")]
    (.single (lit "error: unable to ")) := rfl
  have hD₂ : Lexes (.single (lit "error: unable to ")) "apply Litestream permissions' >&2\n"
    [.word (lit "error: unable to apply Litestream permissions"), .op '>', .op '&',
      .word (plain "2"), .op '\n'] .gap := rfl
  have hD : Lexes .gap "    echo 'error: unable to apply Litestream permissions' >&2\n" _ .gap :=
    hD₁.cut hD₂ rfl
  have hE : Lexes .gap "    exit 1\n" [.word (plain "exit"), .word (plain "1"), .op '\n'] .gap :=
    rfl
  have hF : Lexes .gap "  fi\n" [.word (plain "fi"), .op '\n'] .gap := rfl
  have hall := ((((((hA.append (lexes_digits hm.1 hm.2)).append (lexes_blank _)).append
    (lexes_quoted path)).append hC).append hD).append hE).append hF
  unfold chmodLine
  simp only [String.append_assoc] at hall ⊢
  exact hall

/-- The mode of the directory has its group bit. -/
def directoryMode (perms : PermissionsSpec) : String :=
  "2" ++ String.ofList (perms.directoryMode.toList.drop 1)

/-- The modes that are applied, with the paths they are applied to. -/
def modes (db : Database) (perms : PermissionsSpec) : List (String × String) :=
  (if perms.databaseMode ≠ "" then [(perms.databaseMode, db.path)] else []) ++
    if Path.dir db.path = "/" ∨ perms.directoryMode = "" then []
    else [(directoryMode perms, Path.dir db.path)]

def chmodCmds (db : Database) (perms : PermissionsSpec) : List Cmd :=
  if perms.databaseMode = "" ∧ perms.directoryMode = "" then []
  else [.ifThen [.simple [plain "[", plain "-e", lit db.path, plain "]"]]
    ((modes db perms).map fun m => chmodCmd m.1 m.2)]

/-- What validation has made sure of the modes. -/
structure ValidModes (db : Database) (perms : PermissionsSpec) : Prop where
  databaseMode : perms.databaseMode ≠ "" → IsMode perms.databaseMode
  directoryMode : perms.directoryMode ≠ "" → IsMode (directoryMode perms)
  dir : perms.directoryMode ≠ "" → Path.dir db.path ≠ "/"

theorem isMode_modes {db : Database} {perms : PermissionsSpec} (hv : ValidModes db perms) :
    ∀ m ∈ modes db perms, IsMode m.1 := by
  intro m hm
  rcases List.mem_append.1 hm with hm | hm
  · split at hm
    · rename_i hne
      obtain rfl := List.mem_singleton.1 hm
      exact hv.databaseMode hne
    · cases hm
  · split at hm
    · cases hm
    · rename_i hne
      obtain rfl := List.mem_singleton.1 hm
      exact hv.directoryMode fun he => hne (.inr he)

/-- The lines of the modes, up to the last `fi`. -/
theorem chmodLines_eq {db : Database} {perms : PermissionsSpec} {text : String}
    (h : chmodLines db perms = .ok text) :
    text = if perms.databaseMode = "" ∧ perms.directoryMode = "" then ""
      else "if [ -e " ++ quoted db.path ++ " ]; then\n" ++
        String.join ((modes db perms).map fun m => chmodLine m.1 (quoted m.2)) ++ "fi\n" := by
  unfold chmodLines at h
  by_cases hnone : perms.databaseMode = "" ∧ perms.directoryMode = ""
  · rw [if_pos hnone] at h ⊢
    exact (pure_ok_iff.1 h).symm
  rw [if_neg hnone] at h ⊢
  obtain ⟨q, hq, h⟩ := bind_ok_iff.1 h
  rw [shellQuote_ok hq] at h
  unfold modes
  by_cases hdir : Path.dir db.path = "/" ∨ perms.directoryMode = ""
  · rw [if_pos hdir] at h ⊢
    obtain rfl := pure_ok_iff.1 h
    by_cases hdb : perms.databaseMode = "" <;> simp [hdb, String.join]
  · rw [if_neg hdir] at h ⊢
    obtain ⟨d, hd, h⟩ := bind_ok_iff.1 h
    rw [shellQuote_ok hd] at h
    obtain rfl := pure_ok_iff.1 h
    by_cases hdb : perms.databaseMode = "" <;>
      simp [hdb, String.join, directoryMode, String.append_assoc]

theorem existsLine_lexes (path : String) :
    Lexes .gap ("if [ -e " ++ quoted path ++ " ]; then\n") [.word (plain "if"), .word (plain "["),
      .word (plain "-e"), .word (lit path), .word (plain "]"), .op ';', .word (plain "then"),
      .op '\n'] .gap := by
  have hA : Lexes .gap "if [ -e "
    [.word (plain "if"), .word (plain "["), .word (plain "-e")] .gap := rfl
  have hB : Lexes (.word (lit path)) " ]; then\n" [.word (lit path), .word (plain "]"), .op ';',
    .word (plain "then"), .op '\n'] .gap := rfl
  exact (hA.append (lexes_quoted path)).append hB

theorem fiLine_lexes : Lexes .gap "fi\n" [.word (plain "fi"), .op '\n'] .gap := rfl

theorem chmod_statement {mode : String} (hm : IsMode mode) (file path : String) :
    Statement ("if [ -e " ++ quoted path ++ " ]; then\n" ++ chmodLine mode (quoted file) ++ "fi\n")
      (.ifThen [.simple [plain "[", plain "-e", lit path, plain "]"]] [chmodCmd mode file]) := by
  have hall := ((existsLine_lexes path).append (chmodLine_lexes hm file)).append fiLine_lexes
  refine ⟨⟨.word (plain "if"), [.word (plain "["), .word (plain "-e"), .word (lit path),
    .word (plain "]"), .op ';', .word (plain "then"), .op '\n'] ++ chmodTokens mode file ++
    [.word (plain "fi")], by decide, by simpa using hall, fun n rest => rfl⟩, ?_⟩
  simp only [String.append_assoc]
  exact two_le_append (by decide)

theorem chmod_statement₂ {mode mode' : String} (hm : IsMode mode) (hm' : IsMode mode')
    (file file' path : String) :
    Statement ("if [ -e " ++ quoted path ++ " ]; then\n" ++ chmodLine mode (quoted file) ++
        chmodLine mode' (quoted file') ++ "fi\n")
      (.ifThen [.simple [plain "[", plain "-e", lit path, plain "]"]]
        [chmodCmd mode file, chmodCmd mode' file']) := by
  have hall := (((existsLine_lexes path).append (chmodLine_lexes hm file)).append
    (chmodLine_lexes hm' file')).append fiLine_lexes
  refine ⟨⟨.word (plain "if"), [.word (plain "["), .word (plain "-e"), .word (lit path),
    .word (plain "]"), .op ';', .word (plain "then"), .op '\n'] ++ chmodTokens mode file ++
    chmodTokens mode' file' ++ [.word (plain "fi")], by decide, by simpa using hall,
    fun n rest => rfl⟩, ?_⟩
  simp only [String.append_assoc]
  exact two_le_append (by decide)

theorem chmodLines_script {db : Database} {perms : PermissionsSpec} {text : String}
    (hv : ValidModes db perms) (h : chmodLines db perms = .ok text) :
    Script text (chmodCmds db perms) := by
  rw [chmodLines_eq h]
  unfold chmodCmds
  by_cases hnone : perms.databaseMode = "" ∧ perms.directoryMode = ""
  · rw [if_pos hnone, if_pos hnone]
    exact Script.empty
  rw [if_neg hnone, if_neg hnone]
  by_cases hdb : perms.databaseMode = ""
  · have hdir : perms.directoryMode ≠ "" := fun hd => hnone ⟨hdb, hd⟩
    have hms : modes db perms = [(directoryMode perms, Path.dir db.path)] := by
      simp [modes, hdb, hdir, hv.dir hdir]
    rw [hms]
    have hs := (chmod_statement (hv.directoryMode hdir) (Path.dir db.path) db.path).script
    simpa [String.join] using hs
  · by_cases hdir : perms.directoryMode = ""
    · have hms : modes db perms = [(perms.databaseMode, db.path)] := by simp [modes, hdb, hdir]
      rw [hms]
      have hs := (chmod_statement (hv.databaseMode hdb) db.path db.path).script
      simpa [String.join] using hs
    · have hms : modes db perms = [(perms.databaseMode, db.path),
          (directoryMode perms, Path.dir db.path)] := by simp [modes, hdb, hdir, hv.dir hdir]
      rw [hms]
      have hs := (chmod_statement₂ (hv.databaseMode hdb) (hv.directoryMode hdir) db.path
        (Path.dir db.path) db.path).script
      simpa [String.join, String.append_assoc] using hs

/-! ## The preflight -/

def planVar : Word := [.var "restore_plan" true]

/-- A pattern for texts that contain the quoted one. -/
def containing (s : String) : Word := plain "*" ++ lit s ++ plain "*"

def refuseCmds (problem name : String) : List Cmd :=
  [.duplicate (.simple [plain "printf",
      lit ("litestream: " ++ problem ++ "; require-empty policy refuses to continue\\n"),
      lit name]) [] (plain "2"),
     .simple [plain "exit", plain "1"]]

def inspectProblem : String := "unable to inspect destination replica for database %s"

def occupiedProblem : String := "destination replica for database %s already contains data"

/-- The statements of the preflight: the plan, without blanks, must not name a file. -/
def preflightCmds (name configFile dbPath : String) : List Cmd :=
  [.or (.capture "restore_plan" [.duplicate (.simple [plain "litestream", plain "restore",
        plain "-dry-run", plain "-json", plain "-if-replica-exists", plain "-config",
        lit configFile, lit dbPath]) (plain "2") (plain "1")])
      (.group [.case planVar [
        ([containing "no matching backup files available", containing "no matching backups found"],
          [.assign "restore_plan" (lit "\x7b\"files\":[]\x7d")]),
        ([plain "*"], refuseCmds inspectProblem name)]]),
    .capture "compact_plan" [.pipe (.simple [plain "printf", lit "%s", planVar])
      (.simple [plain "tr", plain "-d", lit "[:space:]"])],
    .case [.var "compact_plan" true] [
      ([containing "\"files\":[]"], []),
      ([containing "\"files\":["], refuseCmds occupiedProblem name),
      ([plain "*"], refuseCmds inspectProblem name)]]

def refuseTokens (problem name : String) : List Token :=
  [.word (plain "printf"),
    .word (lit ("litestream: " ++ problem ++ "; require-empty policy refuses to continue\\n")),
    .word (lit name), .op '>', .op '&', .word (plain "2"), .op '\n', .word (plain "exit"),
    .word (plain "1"), .op '\n', .op ';', .op ';', .op '\n']

theorem refuse_lexes (problem : String) (h : problem ∈ [inspectProblem, occupiedProblem])
    (name : String) :
    Lexes .gap (refuse problem (quoted name)) (refuseTokens problem name) .gap := by
  have hclean : ∀ p ∈ [inspectProblem, occupiedProblem], apostrophe ∉
      ("litestream: " ++ p ++ "; require-empty policy refuses to continue\\n").toList := by
    simp [apostrophe, inspectProblem, occupiedProblem]
  have hA : Lexes .gap "  printf " [.word (plain "printf")] .gap := rfl
  have hQ := lexes_quoted_blank
    ("litestream: " ++ problem ++ "; require-empty policy refuses to continue\\n")
  rw [quoted_clean (hclean problem h)] at hQ
  have hcut : ("  printf 'litestream: " : String) = "  printf " ++ ("\x27" ++ "litestream: ") := rfl
  have hcut' : ("; require-empty policy refuses to continue\\n' " : String) =
      "; require-empty policy refuses to continue\\n" ++ ("\x27" ++ " ") := rfl
  have hB : Lexes (.word (lit name)) " >&2\n" [.word (lit name), .op '>', .op '&',
    .word (plain "2"), .op '\n'] .gap := rfl
  have hC : Lexes .gap "  exit 1\n" [.word (plain "exit"), .word (plain "1"), .op '\n'] .gap := rfl
  have hD : Lexes .gap "  ;;\n" [.op ';', .op ';', .op '\n'] .gap := rfl
  have hall := ((((hA.append hQ).append (lexes_quoted name)).append hB).append hC).append hD
  unfold refuse
  rw [hcut, hcut']
  simp only [String.append_assoc] at hall ⊢
  exact hall

theorem plan_statement (name configFile dbPath : String) :
    Statement ("restore_plan=$(litestream restore -dry-run -json -if-replica-exists -config " ++
        quoted configFile ++ " " ++ quoted dbPath ++ " 2>&1) || \x7b\n" ++
      "  case \"$restore_plan\" in\n" ++
      "  *'no matching backup files available'*|*'no matching backups found'*) " ++
        "restore_plan='\x7b\"files\":[]\x7d' ;;\n" ++
      "  *)\n" ++ refuse inspectProblem (quoted name) ++ "  esac\n" ++ "\x7d\n")
    (.or (.capture "restore_plan" [.duplicate (.simple [plain "litestream", plain "restore",
        plain "-dry-run", plain "-json", plain "-if-replica-exists", plain "-config",
        lit configFile, lit dbPath]) (plain "2") (plain "1")])
      (.group [.case planVar [
        ([containing "no matching backup files available", containing "no matching backups found"],
          [.assign "restore_plan" (lit "\x7b\"files\":[]\x7d")]),
        ([plain "*"], refuseCmds inspectProblem name)]])) := by
  have hA₁ : Lexes .gap "restore_plan=$(litestream restore " [.subst (plain "restore_plan="),
    .word (plain "litestream"), .word (plain "restore")] .gap := rfl
  have hA₂ : Lexes .gap "-dry-run -json -if-replica-exists -config " [.word (plain "-dry-run"),
    .word (plain "-json"), .word (plain "-if-replica-exists"), .word (plain "-config")] .gap := rfl
  have hA : Lexes .gap
    "restore_plan=$(litestream restore -dry-run -json -if-replica-exists -config " _ .gap :=
    hA₁.cut hA₂ rfl
  have hB : Lexes (.word (lit dbPath)) " 2>&1) || \x7b\n" [.word (lit dbPath), .io (plain "2"),
    .op '>', .op '&', .word (plain "1"), .op ')', .op '|', .op '|', .word (plain "\x7b"),
    .op '\n'] .gap := rfl
  have hC : Lexes .gap "  case \"$restore_plan\" in\n" [.word (plain "case"), .word planVar,
    .word (plain "in"), .op '\n'] .gap := rfl
  have hD₁ : Lexes .gap "  *'no matching backup files available'*|"
    [.word (containing "no matching backup files available"), .op '|'] .gap := rfl
  have hD₂ : Lexes .gap "*'no matching backups found'*) "
    [.word (containing "no matching backups found"), .op ')'] .gap := rfl
  have hD₃ : Lexes .gap "restore_plan='\x7b\"files\":[]\x7d' ;;\n"
    [.word (plain "restore_plan=" ++ lit "\x7b\"files\":[]\x7d"), .op ';', .op ';', .op '\n']
    .gap := rfl
  have hD : Lexes .gap
    ("  *'no matching backup files available'*|*'no matching backups found'*) " ++
      "restore_plan='\x7b\"files\":[]\x7d' ;;\n") _ .gap := Lexes.append (hD₁.cut hD₂ rfl) hD₃
  have hE : Lexes .gap "  *)\n" [.word (plain "*"), .op ')', .op '\n'] .gap := rfl
  have hF : Lexes .gap "  esac\n" [.word (plain "esac"), .op '\n'] .gap := rfl
  have hG : Lexes .gap "\x7d\n" [.word (plain "\x7d"), .op '\n'] .gap := rfl
  have hall := ((((((((hA.append (lexes_quoted_blank configFile)).append
    (lexes_quoted dbPath)).append hB).append hC).append hD).append hE).append
    (refuse_lexes inspectProblem (by simp) name)).append hF).append hG
  refine ⟨⟨.subst (plain "restore_plan="), [.word (plain "litestream"), .word (plain "restore"),
    .word (plain "-dry-run"), .word (plain "-json"), .word (plain "-if-replica-exists"),
    .word (plain "-config"), .word (lit configFile), .word (lit dbPath), .io (plain "2"), .op '>',
    .op '&', .word (plain "1"), .op ')', .op '|', .op '|', .word (plain "\x7b"), .op '\n',
    .word (plain "case"), .word planVar, .word (plain "in"), .op '\n',
    .word (containing "no matching backup files available"), .op '|',
    .word (containing "no matching backups found"), .op ')',
    .word (plain "restore_plan=" ++ lit "\x7b\"files\":[]\x7d"), .op ';', .op ';', .op '\n',
    .word (plain "*"), .op ')', .op '\n'] ++ refuseTokens inspectProblem name ++
    [.word (plain "esac"), .op '\n', .word (plain "\x7d")], by decide, ?_, fun n rest => rfl⟩, ?_⟩
  · simp only [String.append_assoc] at hall ⊢
    simpa using hall
  · simp only [String.append_assoc]
    exact two_le_append (by decide)

theorem compact_statement :
    Statement "compact_plan=$(printf '%s' \"$restore_plan\" | tr -d '[:space:]')\n"
      (.capture "compact_plan" [.pipe (.simple [plain "printf", lit "%s", planVar])
        (.simple [plain "tr", plain "-d", lit "[:space:]"])]) := by
  have hA : Lexes .gap "compact_plan=$(printf '%s' \"$restore_plan\" "
    [.subst (plain "compact_plan="), .word (plain "printf"), .word (lit "%s"), .word planVar]
    .gap := rfl
  have hB : Lexes .gap "| tr -d '[:space:]')\n" [.op '|', .word (plain "tr"), .word (plain "-d"),
    .word (lit "[:space:]"), .op ')', .op '\n'] .gap := rfl
  exact ⟨⟨.subst (plain "compact_plan="), [.word (plain "printf"), .word (lit "%s"),
    .word planVar, .op '|', .word (plain "tr"), .word (plain "-d"), .word (lit "[:space:]"),
    .op ')'], by decide, hA.cut hB rfl, fun n rest => rfl⟩, by decide⟩

theorem verdict_statement (name : String) :
    Statement ("case \"$compact_plan\" in\n" ++ "  *'\"files\":[]'*) ;;\n" ++
        "  *'\"files\":['*)\n" ++ refuse occupiedProblem (quoted name) ++ "  *)\n" ++
        refuse inspectProblem (quoted name) ++ "esac\n")
      (.case [.var "compact_plan" true] [
        ([containing "\"files\":[]"], []),
        ([containing "\"files\":["], refuseCmds occupiedProblem name),
        ([plain "*"], refuseCmds inspectProblem name)]) := by
  have hA : Lexes .gap "case \"$compact_plan\" in\n" [.word (plain "case"),
    .word [.var "compact_plan" true], .word (plain "in"), .op '\n'] .gap := rfl
  have hB : Lexes .gap "  *'\"files\":[]'*) ;;\n" [.word (containing "\"files\":[]"), .op ')',
    .op ';', .op ';', .op '\n'] .gap := rfl
  have hC : Lexes .gap "  *'\"files\":['*)\n" [.word (containing "\"files\":["), .op ')',
    .op '\n'] .gap := rfl
  have hD : Lexes .gap "  *)\n" [.word (plain "*"), .op ')', .op '\n'] .gap := rfl
  have hE : Lexes .gap "esac\n" [.word (plain "esac"), .op '\n'] .gap := rfl
  have hall := (((((hA.append hB).append hC).append
    (refuse_lexes occupiedProblem (by simp) name)).append hD).append
    (refuse_lexes inspectProblem (by simp) name)).append hE
  refine ⟨⟨.word (plain "case"), [.word [.var "compact_plan" true], .word (plain "in"), .op '\n',
    .word (containing "\"files\":[]"), .op ')', .op ';', .op ';', .op '\n',
    .word (containing "\"files\":["), .op ')', .op '\n'] ++ refuseTokens occupiedProblem name ++
    [.word (plain "*"), .op ')', .op '\n'] ++ refuseTokens inspectProblem name ++
    [.word (plain "esac")], by decide, by simpa using hall, fun n rest => rfl⟩, ?_⟩
  simp only [String.append_assoc]
  exact two_le_append (by decide)

theorem preflight_script {name configFile dbPath text : String}
    (h : buildRequireEmptyPreflight name (quoted configFile) (quoted dbPath) = .ok text) :
    Script text (preflightCmds name configFile dbPath) := by
  obtain ⟨q, hq, h⟩ := bind_ok_iff.1 h
  rw [shellQuote_ok hq] at h
  obtain rfl := pure_ok_iff.1 h
  have hall := ((plan_statement name configFile dbPath).script.append
    compact_statement.script).append (verdict_statement name).script
  simp only [String.append_assoc] at hall ⊢
  exact hall

/-! ## Scripts -/

def setCmd : Cmd := .simple [plain "set", plain "-eu"]

theorem prologue_script : Script "#!/bin/sh\nset -eu\n" [setCmd] := by
  have hset : Statement "set -eu\n" setCmd :=
    Statement.simple ⟨by decide, by decide⟩ (by decide) rfl (by decide)
  have hcut : ("#!/bin/sh\nset -eu\n" : String) = "#!/bin/sh\n" ++ "set -eu\n" := by decide
  rw [hcut]
  exact Script.shebang.append hset.script

def cloneCmds (db : Database) (source : Restore) (perms : PermissionsSpec)
    (destFileName srcFileName : String) : List Cmd :=
  setCmd :: ((if db.clonePolicy = .requireEmpty then
      preflightCmds db.name (configPath destFileName) db.path else []) ++
    buildRestoreCmds defaultRestorePolicy (configPath destFileName) db.path ++
    buildRestoreCmds (restorePolicyFromSpec source) (configPath srcFileName) db.path ++
    chmodCmds db perms)

/-- The commands of a database's script. -/
def scriptCmds (perms : PermissionsSpec) (db : Database) : List Cmd :=
  match db.restore, db.replicate, db.clone with
  | some s, some _, true => cloneCmds db s perms (cloneConfigFileName db.name "destination")
      (cloneConfigFileName db.name "source")
  | some s, _, _ => setCmd :: (buildRestoreCmds (restorePolicyFromSpec s)
      (configPath (restoreConfigFileName db.name)) db.path ++ chmodCmds db perms)
  | none, _, _ => setCmd :: (buildRestoreCmds defaultRestorePolicy
      (configPath (restoreConfigFileName db.name)) db.path ++ chmodCmds db perms)

theorem twelve_le {text : String} : 12 ≤ ("#!/bin/sh\nset -eu\n" ++ text).length := by
  have h : ("#!/bin/sh\nset -eu\n" : String).length = 18 := by decide
  rw [String.length_append, h]
  omega

theorem parse_single {db : Database} {perms : PermissionsSpec} {configFileName text : String}
    {policy : RestorePolicy} (hv : ValidModes db perms)
    (h : buildSingleRestoreScript db perms configFileName policy = .ok text) :
    parse text = some (setCmd :: (buildRestoreCmds policy (configPath configFileName) db.path ++
      chmodCmds db perms)) := by
  simp only [buildSingleRestoreScript, bind_ok_iff] at h
  obtain ⟨chmod, hc, restore, hr, he⟩ := h
  obtain rfl := pure_ok_iff.1 he
  have hall := prologue_script.append
    ((buildRestoreLine_script hr).append (chmodLines_script hv hc))
  rw [String.append_assoc]
  exact hall.parse twelve_le

theorem parse_clone {db : Database} {source : Restore} {perms : PermissionsSpec}
    {destFileName srcFileName text : String} (hv : ValidModes db perms)
    (h : buildCloneScript db source perms destFileName srcFileName = .ok text) :
    parse text = some (cloneCmds db source perms destFileName srcFileName) := by
  simp only [buildCloneScript, bind_ok_iff] at h
  obtain ⟨c, hc, d, hd, chmod, hm, pre, hp, dest, hdest, src, hsrc, he⟩ := h
  obtain rfl := pure_ok_iff.1 he
  have hpre : Script pre (if db.clonePolicy = .requireEmpty then
      preflightCmds db.name (configPath destFileName) db.path else []) := by
    unfold preflightLines at hp
    by_cases hpol : db.clonePolicy = .requireEmpty
    · rw [if_pos hpol] at hp ⊢
      rw [shellQuote_ok hc, shellQuote_ok hd] at hp
      exact preflight_script hp
    · rw [if_neg hpol] at hp ⊢
      cases hp
      exact Script.empty
  have hall := prologue_script.append (((hpre.append (buildRestoreLine_script hdest)).append
    (buildRestoreLine_script hsrc)).append (chmodLines_script hv hm))
  simp only [String.append_assoc] at hall ⊢
  have hlen : 12 ≤ ("#!/bin/sh\nset -eu\n" ++ (pre ++ (dest ++ (src ++ chmod)))).length := twelve_le
  exact hall.parse hlen

theorem parse_script {db : Database} {perms : PermissionsSpec} {text : String}
    (hv : ValidModes db perms) (h : script perms db = .ok text) :
    parse text = some (scriptCmds perms db) := by
  unfold script at h
  unfold scriptCmds
  cases hr : db.restore with
  | none =>
    simp only [hr] at h
    exact parse_single hv h
  | some s =>
    cases hd : db.replicate with
    | none =>
      simp only [hr, hd] at h
      exact parse_single hv h
    | some d =>
      cases hc : db.clone with
      | false =>
        simp only [hr, hd, hc] at h
        exact parse_single hv h
      | true =>
        simp only [hr, hd, hc] at h
        exact parse_clone hv h

end Controller.Config
