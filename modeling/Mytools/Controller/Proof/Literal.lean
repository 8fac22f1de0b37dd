import Mytools.Controller.Proof.Files
import Mytools.Lib.Invocation

/-!
# Values stay values in the restore scripts

`scriptCalls` lists what the script of a database is to call, with the paths, flags, modes and names
as they were given; `scriptOutline` is the rest of the script, in which no value occurs.
`scripts_literal` says that every stored script is read by the shell as just these.
-/

namespace Controller.Config

open Lib V1alpha1 Shell

/-! ## The intended calls -/

def texts (l : List String) : List Arg := l.map .text

def tmpArg : Arg := .value "restore_tmp"

/-- The script that is run when a staged restore ends. -/
def trapAction : String := "rm -f \"$restore_tmp\""

/-- The options of a restore: an existing database, a missing replica, the check of the outcome and
the point in time. -/
def restoreOptions (p : RestorePolicy) : List String :=
  (match p.ifDatabaseExists with
    | .overwrite => ["-force"]
    | .fail => []
    | .unset | .skip | .other _ => ["-if-db-not-exists"]) ++
  (match p.ifReplicaMissing with
    | .fail => []
    | .unset | .skip | .other _ => ["-if-replica-exists"]) ++
  ["-integrity-check", match p.integrityCheck with
    | .none => "none"
    | .unset | .quick => "quick"
    | .full => "full"
    | .other check => check] ++
  if p.timestamp ≠ "" then ["-timestamp", p.timestamp]
  else if p.txID ≠ "" then ["-txid", p.txID]
  else []

theorem flags_eq_restoreOptions (p : RestorePolicy) : p.flags = restoreOptions p := by
  obtain ⟨ifDatabaseExists, ifReplicaMissing, integrityCheck, timestamp, txID⟩ := p
  cases ifDatabaseExists <;> cases ifReplicaMissing <;> cases integrityCheck <;> rfl

/-- A restore, with the temporary file if the database is overwritten. -/
def restoreCalls (p : RestorePolicy) (configFile dbPath : String) : List (List Arg) :=
  if p.ifDatabaseExists = .overwrite then
    [texts ["mktemp", restoreTemplate dbPath],
      texts ["trap", trapAction, "EXIT", "HUP", "INT", "TERM"],
      texts (["litestream", "restore"] ++ restoreOptions p ++ ["-config", configFile, "-o"]) ++
        [tmpArg, .text dbPath],
      [.text "[", .text "-s", tmpArg, .text "]"],
      [.text "mv", tmpArg, .text dbPath],
      texts ["rm", "-f", dbPath ++ "-wal", dbPath ++ "-shm", dbPath ++ "-journal"]]
  else [texts (["litestream", "restore"] ++ restoreOptions p ++ ["-config", configFile, dbPath])]

def refuseCalls (problem name : String) : List (List Arg) :=
  [texts ["printf", "litestream: " ++ problem ++ "; require-empty policy refuses to continue\\n",
    name], texts ["exit", "1"]]

def preflightCalls (name configFile dbPath : String) : List (List Arg) :=
  [texts ["litestream", "restore", "-dry-run", "-json", "-if-replica-exists", "-config", configFile,
      dbPath]] ++ refuseCalls inspectProblem name ++
    [[.text "printf", .text "%s", .value "restore_plan"], texts ["tr", "-d", "[:space:]"]] ++
    refuseCalls occupiedProblem name ++ refuseCalls inspectProblem name

def chmodCalls (db : Database) (perms : PermissionsSpec) : List (List Arg) :=
  if perms.databaseMode = "" ∧ perms.directoryMode = "" then []
  else texts ["[", "-e", db.path, "]"] :: (modes db perms).flatMap fun m =>
    [texts ["chmod", m.1, m.2], texts ["echo", "error: unable to apply Litestream permissions"],
      texts ["exit", "1"]]

/-- The restores of a script in order: the policy and the configuration of each. -/
def restores (db : Database) : List (RestorePolicy × String) :=
  match db.restore, db.replicate, db.clone with
  | some s, some _, true => [(defaultRestorePolicy, cloneConfigFileName db.name "destination"),
      (restorePolicyFromSpec s, cloneConfigFileName db.name "source")]
  | some s, _, _ => [(restorePolicyFromSpec s, restoreConfigFileName db.name)]
  | none, _, _ => [(defaultRestorePolicy, restoreConfigFileName db.name)]

def scriptCalls (perms : PermissionsSpec) (db : Database) : List (List Arg) :=
  texts ["set", "-eu"] ::
    ((if db.clonePolicy = .requireEmpty then preflightCalls db.name
        (configPath (cloneConfigFileName db.name "destination")) db.path else []) ++
      (restores db).flatMap (fun p => restoreCalls p.1 (configPath p.2) db.path) ++
      chmodCalls db perms)

/-! ## The outline -/

/-- The commands around the calls: they depend on what is passed here only. -/
def scriptOutline (clonePolicy : ClonePolicy) (policies : List IfDatabaseExistsPolicy)
    (databaseMode directoryMode inRoot : Bool) : List Cmd :=
  outlineList (setCmd ::
    ((if clonePolicy = .requireEmpty then preflightCmds "" "" "" else []) ++
      policies.flatMap (fun p =>
        if p = .overwrite then stagedRestoreCmds [] "" "" else [restoreCmd [] "" ""]) ++
      if databaseMode = false ∧ directoryMode = false then []
      else [.ifThen [.simple [plain "["]] ((if databaseMode then [chmodCmd "" ""] else []) ++
        if inRoot = true ∨ directoryMode = false then [] else [chmodCmd "" ""])]))

/-- The commands of a script, with the restores as a list. -/
theorem scriptCmds_eq {perms : PermissionsSpec} {db : Database}
    (h : db.clonePolicy = .requireEmpty → db.clone = true ∧ db.restore ≠ none ∧
      db.replicate ≠ none) :
    scriptCmds perms db = setCmd :: ((if db.clonePolicy = .requireEmpty then preflightCmds db.name
        (configPath (cloneConfigFileName db.name "destination")) db.path else []) ++
      (restores db).flatMap (fun p => buildRestoreCmds p.1 (configPath p.2) db.path) ++
      chmodCmds db perms) := by
  unfold scriptCmds restores
  by_cases hp : db.clonePolicy = .requireEmpty
  · obtain ⟨hc, hr, hd⟩ := h hp
    obtain ⟨s, hs⟩ := Option.ne_none_iff_exists'.1 hr
    obtain ⟨d, hd⟩ := Option.ne_none_iff_exists'.1 hd
    simp [hs, hd, hc, hp, cloneCmds]
  · cases db.restore with
    | none => simp [hp]
    | some s =>
      cases db.replicate with
      | none => simp [hp]
      | some d => cases hc : db.clone <;> simp [hp, cloneCmds]

/-! ## The calls -/

section Calls

variable {perms : PermissionsSpec} {db : Database}

/-- The words of the scripts that stand without quotes. -/
theorem arg?_plain {s : String} (h : s ∈ ["set", "-eu", "mktemp", "trap", "EXIT", "HUP", "INT",
    "TERM", "litestream", "restore", "-config", "-o", "[", "-s", "-e", "]", "mv", "rm", "-f",
    "-dry-run", "-json", "-if-replica-exists", "printf", "exit", "1", "tr", "-d", "chmod",
    "echo"]) : arg? (plain s) = some (.text s) := by
  revert s
  decide

theorem invocations_restore (p : RestorePolicy) (configFile dbPath : String) :
    invocations (buildRestoreCmds p configFile dbPath) =
      (restoreCalls p configFile dbPath).map (·.map some) := by
  unfold buildRestoreCmds restoreCalls
  rw [flags_eq_restoreOptions]
  by_cases hp : p.ifDatabaseExists = .overwrite
  · rw [if_pos hp, if_pos hp]
    simp [invocations, stagedRestoreCmds, arg?_plain, texts, tmpVar, tmpArg, trapAction]
  · rw [if_neg hp, if_neg hp]
    simp [invocations, restoreCmd, arg?_plain, texts]

theorem invocations_preflight (name configFile dbPath : String) :
    invocations (preflightCmds name configFile dbPath) =
      (preflightCalls name configFile dbPath).map (·.map some) := by
  simp [invocations, preflightCmds, preflightCalls, refuseCmds, refuseCalls, arg?_plain, texts,
    planVar]

theorem invocations_chmod (hv : ValidModes db perms) :
    invocations (chmodCmds db perms) = (chmodCalls db perms).map (·.map some) := by
  have hmodes := isMode_modes hv
  unfold chmodCmds chmodCalls
  by_cases hn : perms.databaseMode = "" ∧ perms.directoryMode = ""
  · rw [if_pos hn, if_pos hn]
    rfl
  · rw [if_neg hn, if_neg hn]
    have hbody : invocations ((modes db perms).map fun m => chmodCmd m.1 m.2) =
        ((modes db perms).flatMap fun m => [texts ["chmod", m.1, m.2],
          texts ["echo", "error: unable to apply Litestream permissions"],
          texts ["exit", "1"]]).map (·.map some) := by
      generalize modes db perms = ms at hmodes ⊢
      induction ms with
      | nil => rfl
      | cons m ms ih =>
        have hm : arg? (plain m.1) = some (.text m.1) := arg?_digits (hmodes m List.mem_cons_self).2
        rw [List.map_cons, List.flatMap_cons, List.map_append, ← ih fun m hm =>
          hmodes m (List.mem_cons_of_mem _ hm), ← List.singleton_append, invocations_append]
        simp [invocations, chmodCmd, arg?_plain, texts, hm]
    rw [List.map_cons, ← hbody]
    simp [invocations, arg?_plain, texts]

theorem invocations_script (hv : ValidModes db perms)
    (h : db.clonePolicy = .requireEmpty → db.clone = true ∧ db.restore ≠ none ∧
      db.replicate ≠ none) :
    invocations (scriptCmds perms db) = (scriptCalls perms db).map (·.map some) := by
  have hset : invocations [setCmd] = [texts ["set", "-eu"]].map (·.map some) := rfl
  have hpre : invocations (if db.clonePolicy = .requireEmpty then preflightCmds db.name
        (configPath (cloneConfigFileName db.name "destination")) db.path else []) =
      (if db.clonePolicy = .requireEmpty then preflightCalls db.name
        (configPath (cloneConfigFileName db.name "destination")) db.path else []).map
        (·.map some) := by
    split
    · exact invocations_preflight _ _ _
    · rfl
  have hrestores : invocations ((restores db).flatMap fun p =>
        buildRestoreCmds p.1 (configPath p.2) db.path) =
      ((restores db).flatMap fun p => restoreCalls p.1 (configPath p.2) db.path).map
        (·.map some) := by
    induction restores db with
    | nil => rfl
    | cons p ps ih =>
      rw [List.flatMap_cons, List.flatMap_cons, invocations_append, List.map_append, ih,
        invocations_restore]
  rw [scriptCmds_eq h, ← List.singleton_append, invocations_append, invocations_append,
    invocations_append, hset, hpre, hrestores, invocations_chmod hv, scriptCalls]
  simp only [List.map_append, List.map_cons, List.map_nil, List.singleton_append]

end Calls

/-! ## The outline -/

section Outline

variable {perms : PermissionsSpec} {db : Database}

theorem outline_restore (p : RestorePolicy) (configFile dbPath : String) :
    outlineList (buildRestoreCmds p configFile dbPath) =
      outlineList (if p.ifDatabaseExists = .overwrite then stagedRestoreCmds [] "" ""
        else [restoreCmd [] "" ""]) := by
  unfold buildRestoreCmds
  split
  · simp [stagedRestoreCmds, outlineList, Cmd.outline]
  · simp [restoreCmd, outlineList, Cmd.outline]

theorem outline_preflight (name configFile dbPath : String) :
    outlineList (preflightCmds name configFile dbPath) = outlineList (preflightCmds "" "" "") := rfl

theorem outline_chmod :
    outlineList (chmodCmds db perms) =
      outlineList (if decide (perms.databaseMode ≠ "") = false ∧
          decide (perms.directoryMode ≠ "") = false then []
        else [.ifThen [.simple [plain "["]]
          ((if decide (perms.databaseMode ≠ "") then [chmodCmd "" ""] else []) ++
          if decide (Path.dir db.path = "/") = true ∨
            decide (perms.directoryMode ≠ "") = false then []
          else [chmodCmd "" ""])]) := by
  unfold chmodCmds modes
  by_cases hdb : perms.databaseMode = "" <;> by_cases hdir : perms.directoryMode = "" <;>
    by_cases hroot : Path.dir db.path = "/" <;>
    simp [hdb, hdir, hroot, outlineList, Cmd.outline, chmodCmd]

theorem outline_script
    (h : db.clonePolicy = .requireEmpty → db.clone = true ∧ db.restore ≠ none ∧
      db.replicate ≠ none) :
    outlineList (scriptCmds perms db) =
      scriptOutline db.clonePolicy ((restores db).map (·.1.ifDatabaseExists))
        (perms.databaseMode ≠ "") (perms.directoryMode ≠ "") (Path.dir db.path = "/") := by
  have hpre : outlineList (if db.clonePolicy = .requireEmpty then preflightCmds db.name
        (configPath (cloneConfigFileName db.name "destination")) db.path else []) =
      outlineList (if db.clonePolicy = .requireEmpty then preflightCmds "" "" "" else []) := by
    split
    · exact outline_preflight _ _ _
    · rfl
  have hrestores : outlineList ((restores db).flatMap fun p =>
        buildRestoreCmds p.1 (configPath p.2) db.path) =
      outlineList (((restores db).map (·.1.ifDatabaseExists)).flatMap fun p =>
        if p = .overwrite then stagedRestoreCmds [] "" "" else [restoreCmd [] "" ""]) := by
    induction restores db with
    | nil => rfl
    | cons p ps ih =>
      rw [List.map_cons, List.flatMap_cons, List.flatMap_cons, outlineList_append,
        outlineList_append, ih, outline_restore]
  rw [scriptCmds_eq h, scriptOutline, outlineList, outlineList]
  simp only [outlineList_append, hpre, hrestores, outline_chmod]

end Outline

/-! ## The stored scripts -/

theorem get?_writeAll_of_unique {files : List (String × String)} {k v : String}
    (h : (k, v) ∈ files) (hu : ∀ f ∈ files, f.1 = k → f.2 = v) :
    (writeAll files).get? k = some v := by
  rw [get?_writeAll]
  cases hl : files.reverse.lookup k with
  | none =>
    have hne := List.lookup_eq_none_iff.1 hl (k, v) (List.mem_reverse.2 h)
    simp at hne
  | some w =>
    obtain ⟨as, bs, he, -⟩ := List.lookup_eq_some_iff.1 hl
    have hm : (k, w) ∈ files := by
      rw [← List.mem_reverse, he]
      exact List.mem_append_right _ List.mem_cons_self
    rw [← hu (k, w) hm rfl]

/-- No two databases write one script, whatever their names are. -/
theorem Rendering.get?_script {L : Library} {input : Input} {r : RenderedConfig} {parts : List Part}
    (hp : Rendering L input r parts) (hv : ValidInput input) {db : Database}
    (hdb : db ∈ input.databases) : ∃ text, script input.injection.permissions db = .ok text ∧
      r.data.get? (restoreScriptFileName db.name) = some text := by
  obtain ⟨part, hpart, hren⟩ := forall₂_mem_left hp.parts_ok hdb
  obtain ⟨docs, text, -, htext, hfiles⟩ := hren.files
  have hmem : (restoreScriptFileName db.name, text) ∈ parts.flatMap (·.files) :=
    List.mem_flatMap.2 ⟨part, hpart, by simp [hfiles]⟩
  have huniq : ∀ f ∈ parts.flatMap (·.files), f.1 = restoreScriptFileName db.name → f.2 = text := by
    intro f hf hname
    obtain ⟨part', hpart', hf⟩ := List.mem_flatMap.1 hf
    obtain ⟨d, hd, hren'⟩ := forall₂_mem_right hp.parts_ok hpart'
    obtain ⟨docs', text', hdocs', htext', hfiles'⟩ := hren'.files
    rw [hfiles', List.mem_append, List.mem_singleton] at hf
    rcases hf with hf | rfl
    · obtain ⟨c, hc, hcf⟩ := forall₂_mem_right hdocs' hf
      have hcn : c.1 ∈ (configs L d).map (·.1) := List.mem_map_of_mem hc
      rw [configs_names L (hv.databases d hd)] at hcn
      obtain ⟨stem, -, hstem⟩ := List.mem_map.1 hcn
      exact absurd (hstem.trans (hcf.1.symm.trans hname)) (config_ne_script _ _)
    · obtain rfl : d = db := hv.eq_of_name hd hdb (restoreScriptFileName_inj hname)
      exact Except.ok.inj (htext'.symm.trans htext)
  refine ⟨text, htext, ?_⟩
  rcases hp.data with ⟨-, hdata⟩ | ⟨doc, -, -, hdata⟩
  · rw [hdata]
    exact get?_writeAll_of_unique hmem huniq
  · rw [hdata]
    refine get?_writeAll_of_unique (List.mem_append_left _ hmem) fun f hf hname => ?_
    rcases List.mem_append.1 hf with hf | hf
    · exact huniq f hf hname
    · obtain rfl := List.mem_singleton.1 hf
      exact absurd hname (hp.ne_replicate hmem).symm

theorem shellQuote_word {s : String} (h0 : Char.ofNat 0 ∉ s.toList) (hn : '\n' ∉ s.toList) :
    shellQuote s = .ok (quoted s) ∧ lex (quoted s).toList = some [.word (lit s)] := by
  constructor
  · unfold shellQuote
    rw [if_neg]
    · rfl
    · rw [List.any_eq_true]
      rintro ⟨c, hc, he⟩
      rcases Bool.or_eq_true_iff.1 he with he | he
      · exact h0 (of_decide_eq_true he ▸ hc)
      · exact hn (of_decide_eq_true he ▸ hc)
  · have hl := lexes_quoted s
    unfold Lexes at hl
    rw [lex, hl]
    rfl

/-- A quoted value is one word and no other; a stored script calls what it is meant to call, with
the values as they are, in commands that do not depend on them. -/
theorem scripts_literal :
    (∀ s : String, Char.ofNat 0 ∉ s.toList → '\n' ∉ s.toList → ∃ q w, shellQuote s = .ok q ∧
      lex q.toList = some [.word w] ∧ arg? w = some (.text s)) ∧
    (parse trapAction).map invocations =
      some [[some (.text "rm"), some (.text "-f"), some tmpArg]] ∧
    ∀ {P : Parsers} {R : Replicas} {spec : LitestreamSpec} {L : Library} {input : Input}
      {r : RenderedConfig}, resolve P R spec = .ok input → render L input = .ok r →
      ∀ db ∈ input.databases, ∃ text cmds, r.data.get? (restoreScriptFileName db.name) = some text ∧
        parse text = some cmds ∧
        outlineList cmds = scriptOutline db.clonePolicy ((restores db).map (·.1.ifDatabaseExists))
          (input.injection.permissions.databaseMode ≠ "")
          (input.injection.permissions.directoryMode ≠ "") (Path.dir db.path = "/") ∧
        invocations cmds = (scriptCalls input.injection.permissions db).map (·.map some) := by
  refine ⟨fun s h0 hn => ?_, by decide, fun hres hren db hdb => ?_⟩
  · obtain ⟨hq, hlex⟩ := shellQuote_word h0 hn
    exact ⟨_, _, hq, hlex, arg?_lit s⟩
  · obtain ⟨parts, hp⟩ := render_ok hren
    have hv := validateInput_ok hp.valid
    have hmodes := (placed_of_resolve hres hv hdb).modes
    have hclone : db.clonePolicy = .requireEmpty →
        db.clone = true ∧ db.restore ≠ none ∧ db.replicate ≠ none := fun hpol =>
      clone_of_validateInput hp.valid hdb (by simp [hpol])
    obtain ⟨text, htext, hget⟩ := hp.get?_script hv hdb
    exact ⟨text, _, hget, parse_script hmodes htext, outline_script hclone,
      invocations_script hmodes hclone⟩

/-! ## A path with a quotation mark -/

namespace Quoted

def path : String := "/data/it\x27s $x"

/-- A clone from a point in time, with modes for the database and its directory. -/
def spec : LitestreamSpec where
  databases := [{ name := "a", path := path, restore := some { replicaRef := "src", txID := "0a" },
                  replicate := some { replicaRef := "dst" } }]
  injection := { permissions := { directoryMode := "0750", databaseMode := "0640" } }

def library : Library := .listed [[fileEntry path "dst"], [fileEntry path "src"]]

def db : Database where
  name := "a"
  path := path
  clone := true
  restore := some { replica := fileReplica "src", txID := "0a" }
  replicate := some { replica := fileReplica "dst" }

def input : Input := { databases := [db], injection := spec.injection }

theorem rendered : (resolve .lenient (fileReplicas ["src", "dst"]) spec).toOption = some input ∧
    (render library input).toOption.isSome = true := by
  decide +kernel

end Quoted

/-- The script restores the destination, then the source up to the transaction, and sets the
modes. -/
theorem scripts_literal_quoted :
    (∃ q w, shellQuote "it\x27s; $x" = .ok q ∧ lex q.toList = some [.word w] ∧
      arg? w = some (.text "it\x27s; $x")) ∧
    ∃ r text cmds, render Quoted.library Quoted.input = .ok r ∧
      r.data.get? (restoreScriptFileName "a") = some text ∧ parse text = some cmds ∧
      invocations cmds = [
        texts ["set", "-eu"],
        texts ["litestream", "restore", "-if-db-not-exists", "-if-replica-exists",
          "-integrity-check", "quick", "-config", "/etc/litestream/restore-a-destination.yml",
          Quoted.path],
        texts ["litestream", "restore", "-if-db-not-exists", "-if-replica-exists",
          "-integrity-check", "quick", "-txid", "0a", "-config",
          "/etc/litestream/restore-a-source.yml", Quoted.path],
        texts ["[", "-e", Quoted.path, "]"],
        texts ["chmod", "0640", Quoted.path],
        texts ["echo", "error: unable to apply Litestream permissions"], texts ["exit", "1"],
        texts ["chmod", "2750", "/data"],
        texts ["echo", "error: unable to apply Litestream permissions"], texts ["exit", "1"]].map
          (·.map some) := by
  refine ⟨scripts_literal.1 _ (by decide) (by decide), ?_⟩
  obtain ⟨r, hr⟩ := Option.isSome_iff_exists.1 Quoted.rendered.2
  obtain ⟨text, cmds, hget, hparse, -, hcalls⟩ := scripts_literal.2.2
    (toOption_eq_some Quoted.rendered.1) (toOption_eq_some hr) Quoted.db List.mem_cons_self
  exact ⟨r, text, cmds, toOption_eq_some hr, hget, hparse, hcalls.trans (by decide +kernel)⟩

end Controller.Config
