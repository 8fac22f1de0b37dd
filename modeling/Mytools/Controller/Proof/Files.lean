import Mytools.Controller.Config.Command
import Mytools.Controller.Proof.Script
import Mytools.Controller.Proof.Valid

/-!
# The files that the restore scripts read

The files of all databases share one map, under names that are put together from the names of the
databases. A script finds its own configuration unless a database without a clone has the name of a
clone with one of the two suffixes.
-/

namespace Controller.Config

open Lib V1alpha1 Shell

/-! ## The calls of a script -/

/-- The arguments that a policy's flags stand for. -/
def RestorePolicy.args (p : RestorePolicy) : RestoreArgs where
  ifDatabaseNotExists := p.ifDatabaseExists ≠ .overwrite ∧ p.ifDatabaseExists ≠ .fail
  ifReplicaExists := p.ifReplicaMissing ≠ .fail
  force := p.ifDatabaseExists = .overwrite
  integrityCheck := if p.integrityCheck = .unset then "quick" else p.integrityCheck.text
  timestamp := p.timestamp
  txID := if p.timestamp = "" then p.txID else ""

section Flags

variable (p : RestorePolicy) (a : RestoreArgs) {args : List String}

theorem read_existing (ha : a.ifDatabaseNotExists = false ∧ a.force = false) (hne : args ≠ []) :
    a.read (existingFlags p.ifDatabaseExists ++ args) =
    { a with ifDatabaseNotExists := p.args.ifDatabaseNotExists,
             force := p.args.force : RestoreArgs }.read args := by
  have hskip : a.setSwitch "-if-db-not-exists" = some { a with ifDatabaseNotExists := true } := rfl
  have hforce : a.setSwitch "-force" = some { a with force := true } := rfl
  obtain ⟨_, _, _, _, _, _, _, _, _, _, _⟩ := a
  obtain ⟨rfl, rfl⟩ := ha
  cases h : p.ifDatabaseExists <;>
    simp [existingFlags, RestorePolicy.args, h, RestoreArgs.read_switch hskip hne,
      RestoreArgs.read_switch hforce hne]

theorem read_missing (ha : a.ifReplicaExists = false) (hne : args ≠ []) :
    a.read ((if p.ifReplicaMissing ≠ .fail then ["-if-replica-exists"] else []) ++ args) =
    { a with ifReplicaExists := p.args.ifReplicaExists : RestoreArgs }.read args := by
  have hswitch : a.setSwitch "-if-replica-exists" = some { a with ifReplicaExists := true } := rfl
  obtain ⟨_, _, _, _, _, _, _, _, _, _, _⟩ := a
  subst ha
  by_cases h : p.ifReplicaMissing = .fail
  · simp [RestorePolicy.args, h]
  · simp [RestorePolicy.args, h, RestoreArgs.read_switch hswitch hne]

theorem read_selector (ha : a.timestamp = "" ∧ a.txID = "") :
    a.read (selectorFlags p.timestamp p.txID ++ args) =
    { a with timestamp := p.args.timestamp, txID := p.args.txID : RestoreArgs }.read args := by
  have ht : a.setValue "-timestamp" p.timestamp = some { a with timestamp := p.timestamp } := rfl
  have hx : a.setValue "-txid" p.txID = some { a with txID := p.txID } := rfl
  obtain ⟨_, _, _, _, _, _, _, _, _, _, _⟩ := a
  obtain ⟨rfl, rfl⟩ := ha
  by_cases hp : p.timestamp = ""
  · by_cases hq : p.txID = ""
    · simp [selectorFlags, RestorePolicy.args, hp, hq]
    · simp [selectorFlags, RestorePolicy.args, hp, hq, RestoreArgs.read_value rfl hx]
  · simp [selectorFlags, RestorePolicy.args, hp, RestoreArgs.read_value rfl ht]

/-- The flags of a policy are read as its arguments. -/
theorem RestorePolicy.read_flags :
    RestoreArgs.read {} (p.flags ++ args) = p.args.read args := by
  have hcheck : ∀ (a : RestoreArgs) (v : String) (args : List String),
      a.read ("-integrity-check" :: v :: args) =
        { a with integrityCheck := v : RestoreArgs }.read args :=
    fun a v args => RestoreArgs.read_value rfl rfl
  simp only [RestorePolicy.flags, List.append_assoc]
  rw [read_existing p {} ⟨rfl, rfl⟩ (by simp), read_missing p _ rfl (by simp), List.cons_append,
    List.cons_append, List.nil_append, hcheck, read_selector p _ ⟨rfl, rfl⟩]
  rfl

end Flags

/-- The call of a restore step, which reads the file. -/
def Reads (dbPath fileName : String) (args : List String) : Prop :=
  ∃ a, RestoreArgs.ofCall args = some a ∧ a.config = configPath fileName ∧ a.path = dbPath

theorem text_lit (s : String) : text (lit s) = s := text_literal s

theorem map_text_lit (ss : List String) : (ss.map lit).map text = ss := by
  rw [List.map_map]
  exact (List.map_congr_left fun s _ => text_lit s).trans (List.map_id _)

theorem calls_restore (policy : RestorePolicy) (configFile dbPath : String) :
    calls "litestream" (buildRestoreCmds policy configFile dbPath) =
      ["restore" :: policy.flags ++ (["-config", configFile] ++
        (if policy.ifDatabaseExists = .overwrite then ["-o", "$restore_tmp"] else []) ++
          [dbPath])] := by
  unfold buildRestoreCmds
  by_cases ho : policy.ifDatabaseExists = .overwrite
  · have htmp : text tmpVar = "$restore_tmp" := by decide
    have hmap := map_text_lit policy.flags
    rw [List.map_map] at hmap
    rw [if_pos ho, if_pos ho]
    simp [calls, stagedRestoreCmds, text_lit, htmp, hmap]
  · have hmap := map_text_lit policy.flags
    rw [List.map_map] at hmap
    rw [if_neg ho, if_neg ho]
    simp [calls, restoreCmd, text_lit, hmap]

theorem calls_chmod (db : Database) (perms : PermissionsSpec) :
    calls "litestream" (chmodCmds db perms) = [] := by
  have hcmd : ∀ ms : List (String × String),
      simplesList (ms.map fun m => chmodCmd m.1 m.2) = ms.flatMap fun m =>
        [[plain "chmod", plain m.1, lit m.2],
          [plain "echo", lit "error: unable to apply Litestream permissions"],
          [plain "exit", plain "1"]] := by
    intro ms
    induction ms with
    | nil => rfl
    | cons m ms ih =>
      rw [List.map_cons, simplesList, ih, List.flatMap_cons]
      rfl
  unfold chmodCmds
  split
  · rfl
  · simp only [calls, simplesList, Cmd.simples, hcmd, List.append_nil, List.filterMap_append]
    rw [List.filterMap_flatMap]
    simp

theorem calls_preflight (name configFile dbPath : String) :
    calls "litestream" (preflightCmds name configFile dbPath) =
      [["restore", "-dry-run", "-json", "-if-replica-exists", "-config", configFile, dbPath]] := by
  simp [calls, preflightCmds, refuseCmds, text_lit]

/-- The steps of a database's script: the file and the replica that it is to name. -/
def steps (L : Library) (db : Database) : List (String × ReplicaYAML) :=
  match db.restore, db.replicate, db.clone with
  | some s, some d, true =>
    (if db.clonePolicy = .requireEmpty then
      [(cloneConfigFileName db.name "destination", (destinationReplica L db d).1)] else []) ++
      [(cloneConfigFileName db.name "destination", (destinationReplica L db d).1),
        (cloneConfigFileName db.name "source", (sourceReplica L db s).1)]
  | some s, _, _ => [(restoreConfigFileName db.name, (sourceReplica L db s).1)]
  | none, some d, _ => [(restoreConfigFileName db.name, (destinationReplica L db d).1)]
  | none, none, _ => []

section Calls

variable {db : Database} (hpath : hasPrefix db.path "-" = false)

include hpath

theorem read_path (a : RestoreArgs) : a.read [db.path] = some { a with path := db.path } := by
  rw [RestoreArgs.read, if_neg (by simp [hpath])]

/-- The call of a restore, with or without an output of its own. -/
theorem ofCall_restore (policy : RestorePolicy) (configFile : String) (output : Option String) :
    RestoreArgs.ofCall ("restore" :: policy.flags ++ (["-config", configFile] ++
      output.elim [] (fun o => ["-o", o]) ++ [db.path])) =
    some { policy.args with config := configFile, output := output.getD "", path := db.path } := by
  have hconfig : ∀ (a : RestoreArgs) (v : String) (args : List String),
      a.read ("-config" :: v :: args) = { a with config := v : RestoreArgs }.read args :=
    fun a v args => RestoreArgs.read_value rfl rfl
  have houtput : ∀ (a : RestoreArgs) (v : String) (args : List String),
      a.read ("-o" :: v :: args) = { a with output := v : RestoreArgs }.read args :=
    fun a v args => RestoreArgs.read_value rfl rfl
  rw [List.cons_append, RestoreArgs.ofCall, if_pos rfl, policy.read_flags]
  cases output with
  | none =>
    simp only [Option.elim, List.cons_append, List.nil_append, hconfig, read_path hpath]
    rfl
  | some o =>
    simp only [Option.elim, List.cons_append, List.nil_append, hconfig, houtput, read_path hpath]
    rfl

theorem reads_restore (policy : RestorePolicy) (fileName : String) :
    Reads db.path fileName ("restore" :: policy.flags ++ (["-config", configPath fileName] ++
      (if policy.ifDatabaseExists = .overwrite then ["-o", "$restore_tmp"] else []) ++
        [db.path])) := by
  by_cases ho : policy.ifDatabaseExists = .overwrite
  · rw [if_pos ho]
    exact ⟨_, ofCall_restore hpath policy _ (some "$restore_tmp"), rfl, rfl⟩
  · rw [if_neg ho]
    exact ⟨_, ofCall_restore hpath policy _ none, rfl, rfl⟩

theorem reads_preflight (fileName : String) :
    Reads db.path fileName ["restore", "-dry-run", "-json", "-if-replica-exists", "-config",
      configPath fileName, db.path] := by
  refine ⟨{ dryRun := true, json := true, ifReplicaExists := true, config := configPath fileName,
            path := db.path }, ?_, rfl, rfl⟩
  rw [RestoreArgs.ofCall, if_pos rfl, RestoreArgs.read_switch rfl (by simp),
    RestoreArgs.read_switch rfl (by simp), RestoreArgs.read_switch rfl (by simp),
    RestoreArgs.read_value rfl rfl, read_path hpath]

/-- Every call of a script reads the file of its step. -/
theorem script_calls (L : Library) (perms : PermissionsSpec)
    (hres : db.restore ≠ none ∨ db.replicate ≠ none) :
    List.Forall₂ (fun args st => Reads db.path st.1 args)
      (calls "litestream" (scriptCmds perms db)) (steps L db) := by
  have hset : ∀ cs, calls "litestream" (setCmd :: cs) = calls "litestream" cs := by
    intro cs
    simp [calls, setCmd]
  have hone : ∀ (policy : RestorePolicy) (fileName : String) (y : ReplicaYAML),
      List.Forall₂ (fun args st => Reads db.path st.1 args)
        (calls "litestream" (setCmd :: (buildRestoreCmds policy (configPath fileName) db.path ++
          chmodCmds db perms))) [(fileName, y)] := by
    intro policy fileName y
    rw [hset, calls_append, calls_chmod, calls_restore, List.append_nil]
    exact .cons (reads_restore hpath policy fileName) .nil
  unfold scriptCmds steps
  cases hr : db.restore with
  | none =>
    cases hd : db.replicate with
    | none => simp [hr, hd] at hres
    | some d => exact hone _ _ _
  | some s =>
    cases hd : db.replicate with
    | none => exact hone _ _ _
    | some d =>
      cases hc : db.clone with
      | false => exact hone _ _ _
      | true =>
        simp only [cloneCmds, hset, calls_append, calls_chmod, calls_restore, List.append_nil]
        rw [List.append_assoc]
        refine List.rel_append ?_ (.cons (reads_restore hpath _ _)
          (.cons (reads_restore hpath _ _) .nil))
        by_cases hp : db.clonePolicy = .requireEmpty
        · rw [if_pos hp, if_pos hp, calls_preflight]
          exact .cons (reads_preflight hpath _) .nil
        · rw [if_neg hp, if_neg hp]
          exact .nil

end Calls

/-! ## File names -/

/-- The texts between `restore-` and `.yml` in the names of a database's configuration files. -/
def stems (db : Database) : List String :=
  if db.clone then [db.name ++ "-destination", db.name ++ "-source"] else [db.name]

/-- No database without a clone has the name of one with a clone and one of its suffixes. -/
def ApartNames (dbs : List Database) : Prop :=
  ∀ d ∈ dbs, d.clone = true → ∀ d' ∈ dbs, d'.clone = false →
    d'.name ≠ d.name ++ "-source" ∧ d'.name ≠ d.name ++ "-destination"

instance (dbs : List Database) : Decidable (ApartNames dbs) :=
  inferInstanceAs (Decidable (∀ d ∈ dbs, d.clone = true → ∀ d' ∈ dbs, d'.clone = false →
    d'.name ≠ d.name ++ "-source" ∧ d'.name ≠ d.name ++ "-destination"))

theorem cloneConfigFileName_eq (n role : String) :
    cloneConfigFileName n role = restoreConfigFileName (n ++ "-" ++ role) := by
  simp [cloneConfigFileName, restoreConfigFileName, String.append_assoc]

theorem restoreConfigFileName_inj {m n : String}
    (h : restoreConfigFileName m = restoreConfigFileName n) : m = n := by
  simpa [restoreConfigFileName] using h

theorem restoreScriptFileName_inj {m n : String}
    (h : restoreScriptFileName m = restoreScriptFileName n) : m = n := by
  simpa [restoreScriptFileName] using h

theorem config_ne_script (m n : String) : restoreConfigFileName m ≠ restoreScriptFileName n := by
  intro h
  have hl := congrArg (fun s => s.toList.reverse.head?) h
  simp [restoreConfigFileName, restoreScriptFileName] at hl

theorem configs_names (L : Library) {injection : InjectionSpec} {db : Database}
    (hv : ValidDatabase injection db) :
    (configs L db).map (·.1) = (stems db).map restoreConfigFileName := by
  have hd : cloneConfigFileName db.name "destination" =
      restoreConfigFileName (db.name ++ "-destination") := by
    rw [cloneConfigFileName_eq, String.append_assoc]
    rfl
  have hs : cloneConfigFileName db.name "source" =
      restoreConfigFileName (db.name ++ "-source") := by
    rw [cloneConfigFileName_eq, String.append_assoc]
    rfl
  unfold configs stems
  cases hc : db.clone with
  | true =>
    obtain ⟨h1, h2⟩ := hv.clone hc
    obtain ⟨s, hr⟩ := Option.ne_none_iff_exists'.1 h1
    obtain ⟨d, hrep⟩ := Option.ne_none_iff_exists'.1 h2
    simp [hr, hrep, hd, hs]
  | false =>
    cases hr : db.restore with
    | some s => cases db.replicate <;> simp
    | none =>
      cases hrep : db.replicate with
      | some d => simp
      | none => exact absurd hv.restores (by simp [hr, hrep])

def keys (db : Database) : List String :=
  (stems db).map restoreConfigFileName ++ [restoreScriptFileName db.name]

theorem Renders.keys_eq {L : Library} {injection : InjectionSpec} {db : Database} {part : Part}
    (hv : ValidDatabase injection db) (h : Renders L injection.permissions db part) :
    part.files.map (·.1) = keys db := by
  obtain ⟨docs, text, hdocs, -, he⟩ := h.files
  have hnames : docs.map (·.1) = (configs L db).map (·.1) := by
    clear he
    generalize configs L db = cs at hdocs ⊢
    induction hdocs with
    | nil => rfl
    | cons hf _ ih => rw [List.map_cons, List.map_cons, ih, hf.1]
  rw [he, List.map_append, hnames, configs_names L hv]
  rfl

theorem stems_nodup (db : Database) : (stems db).Nodup := by
  unfold stems
  split
  · simp
  · simp

theorem stems_disjoint {dbs : List Database} (ha : ApartNames dbs) {d d' : Database} (hd : d ∈ dbs)
    (hd' : d' ∈ dbs) (hne : d.name ≠ d'.name) : (stems d).Disjoint (stems d') := by
  have hsuffix : ∀ m n : String, m ++ "-destination" ≠ n ++ "-source" := by
    intro m n h
    have hl := congrArg (fun s => s.toList.getLast?) h
    simp at hl
  intro x hx hx'
  unfold stems at hx hx'
  cases hc : d.clone <;> cases hc' : d'.clone <;>
    simp only [hc, hc', if_true, if_false, Bool.false_eq_true, List.mem_cons, List.not_mem_nil,
      or_false] at hx hx'
  · exact hne (hx.symm.trans hx')
  · subst hx
    rcases hx' with hx' | hx'
    · exact (ha d' hd' hc' d hd hc).2 hx'
    · exact (ha d' hd' hc' d hd hc).1 hx'
  · subst hx'
    rcases hx with hx | hx
    · exact (ha d hd hc d' hd' hc').2 hx
    · exact (ha d hd hc d' hd' hc').1 hx
  · rcases hx with rfl | rfl <;> rcases hx' with hx' | hx'
    · exact hne (by simpa using hx')
    · exact hsuffix _ _ hx'
    · exact hsuffix _ _ hx'.symm
    · exact hne (by simpa using hx')

theorem keys_nodup (db : Database) : (keys db).Nodup := by
  unfold keys
  refine List.Nodup.append ((stems_nodup db).map fun _ _ => restoreConfigFileName_inj)
    (List.nodup_singleton _) ?_
  intro x hx hx'
  obtain ⟨m, -, rfl⟩ := List.mem_map.1 hx
  exact config_ne_script _ _ (List.mem_singleton.1 hx')

theorem keys_disjoint {dbs : List Database} (ha : ApartNames dbs) {d d' : Database} (hd : d ∈ dbs)
    (hd' : d' ∈ dbs) (hne : d.name ≠ d'.name) : (keys d).Disjoint (keys d') := by
  intro x hx hx'
  simp only [keys, List.mem_append, List.mem_map, List.mem_singleton] at hx hx'
  rcases hx with ⟨m, hm, rfl⟩ | rfl <;> rcases hx' with ⟨n, hn, he⟩ | he
  · exact stems_disjoint ha hd hd' hne hm (restoreConfigFileName_inj he ▸ hn)
  · exact config_ne_script _ _ he
  · exact config_ne_script _ _ he
  · exact hne (restoreScriptFileName_inj he)

theorem all_keys_nodup {input : Input} (hv : ValidInput input) (ha : ApartNames input.databases) :
    (input.databases.flatMap keys).Nodup := by
  refine List.nodup_flatMap.2 ⟨fun d _ => keys_nodup d, ?_⟩
  have hp : input.databases.Pairwise fun d d' => d.name ≠ d'.name := List.pairwise_map.1 hv.names
  exact hp.imp_of_mem fun hd hd' hne => keys_disjoint ha hd hd' hne

/-! ## The map of files -/

theorem get?_writeAll_of_mem {files : List (String × String)} (hn : (files.map (·.1)).Nodup)
    {k v : String} (h : (k, v) ∈ files) : (writeAll files).get? k = some v := by
  have hr : (files.reverse.map (·.1)).Nodup := by
    rw [List.map_reverse]
    exact List.nodup_reverse.2 hn
  rw [get?_writeAll]
  exact (Table.get?_eq_some_iff (t := ⟨files.reverse, hr⟩)).2 (List.mem_reverse.2 h)

/-- A step of the script finds the file of the database and the replica. -/
def FindsOwn (L : Library) (r : RenderedConfig) (db : Database) (args : List String)
    (replica : ReplicaYAML) : Prop :=
  ∃ a fileName doc, RestoreArgs.ofCall args = some a ∧ a.config = configPath fileName ∧
    r.data.get? fileName = some doc ∧ L.unmarshal doc = some [⟨db.path, replica⟩]

/-- The stored script is the database's own, and each of its steps reads the file that was made for
it. -/
def OwnScript (L : Library) (perms : PermissionsSpec) (r : RenderedConfig) (db : Database) : Prop :=
  ∃ text cmds, r.data.get? (restoreScriptFileName db.name) = some text ∧
    script perms db = .ok text ∧ parse text = some cmds ∧
    List.Forall₂ (FindsOwn L r db) (calls "litestream" cmds) ((steps L db).map (·.2))

/-- Every script reads its own configuration, and `replicate.yml` has one entry for each database
that replicates, in order. -/
structure OwnFiles (L : Library) (input : Input) (r : RenderedConfig) : Prop where
  scripts : ∀ db ∈ input.databases, OwnScript L input.injection.permissions r db
  replicate : (r.data.get? replicateConfigFile).map L.unmarshal =
    if input.databases.filterMap (replicaEntry L) = [] then none
    else some (some (input.databases.filterMap (replicaEntry L)))

section Own

variable {L : Library} {input : Input} {r : RenderedConfig} {parts : List Part} {db : Database}

theorem Rendering.files_nodup (hp : Rendering L input r parts) (hv : ValidInput input)
    (ha : ApartNames input.databases) : ((parts.flatMap (·.files)).map (·.1)).Nodup := by
  have hkeys : (parts.flatMap (·.files)).map (·.1) = input.databases.flatMap keys := by
    have hparts := hp.parts_ok
    have hdbs := hv.databases
    clear hp hv ha
    generalize input.databases = dbs at hparts hdbs ⊢
    induction hparts with
    | nil => rfl
    | cons h _ ih =>
      rw [List.flatMap_cons, List.map_append, List.flatMap_cons,
        h.keys_eq (hdbs _ List.mem_cons_self), ih fun d hd => hdbs d (List.mem_cons_of_mem _ hd)]
  rw [hkeys]
  exact all_keys_nodup hv ha

/-- With names that are apart, every file is stored as it was written. -/
theorem Rendering.stored (hp : Rendering L input r parts) (hv : ValidInput input)
    (ha : ApartNames input.databases) {f : String × String} (hf : f ∈ parts.flatMap (·.files)) :
    r.data.get? f.1 = some f.2 := by
  have hn := hp.files_nodup hv ha
  rcases hp.data with ⟨-, hd⟩ | ⟨doc, -, -, hd⟩
  · rw [hd]
    exact get?_writeAll_of_mem hn hf
  · rw [hd]
    refine get?_writeAll_of_mem ?_ (List.mem_append_left _ hf)
    rw [List.map_append]
    refine hn.append (List.nodup_singleton _) fun x hx hx' => ?_
    obtain ⟨g, hg, rfl⟩ := List.mem_map.1 hx
    exact hp.ne_replicate hg (List.mem_singleton.1 hx')

/-- The steps are over the files that the database contributes. -/
theorem mem_steps (L : Library) (db : Database) (st : String × ReplicaYAML) :
    st ∈ steps L db ↔ st ∈ configs L db := by
  unfold steps configs
  cases db.restore with
  | none => cases db.replicate <;> simp
  | some s =>
    cases db.replicate with
    | none => simp
    | some d =>
      cases db.clone with
      | false => simp
      | true => by_cases hp : db.clonePolicy = .requireEmpty <;> simp [hp]

/-- What the proofs need to know of a database: its paths and modes are the ones of a valid spec. -/
structure Placed (perms : PermissionsSpec) (db : Database) : Prop where
  modes : ValidModes db perms
  path : hasPrefix db.path "-" = false
  clean : Path.clean db.path = db.path

theorem isMode_of_matches {mode : String} (h : matchesPermissionMode mode = true) :
    IsMode mode ∧ IsMode ("2" ++ String.ofList (mode.toList.drop 1)) := by
  unfold matchesPermissionMode at h
  split at h
  · rename_i cs hcs
    rw [Bool.and_eq_true] at h
    have hdigit : cs.all Char.isDigit = true := by
      refine List.all_eq_true.2 fun c hc => ?_
      have hoct := List.all_eq_true.1 h.2 c hc
      simp only [Bool.and_eq_true, decide_eq_true_eq] at hoct
      simp only [Char.isDigit, Bool.and_eq_true, decide_eq_true_eq]
      exact ⟨hoct.1, UInt32.le_trans hoct.2 (by decide)⟩
    refine ⟨⟨fun he => by simp [he] at hcs, ?_⟩, fun he => ?_, ?_⟩
    · rw [hcs, List.all_cons, hdigit]
      rfl
    · have := congrArg String.toList he
      simp at this
    · simp only [hcs, String.toList_append, List.all_append, String.toList_ofList, List.drop_one,
        List.tail_cons, hdigit, Bool.and_true]
      decide
  · cases h

theorem absolute_of_resolve {P : Parsers} {R : Replicas} {spec : LitestreamSpec}
    (h : resolve P R spec = .ok input) (hdb : db ∈ input.databases) :
    Path.isAbs db.path = true := by
  obtain ⟨hspec, -, -, hres⟩ := resolve_ok h
  obtain ⟨b, hb, hbd⟩ := forall₂_mem_right hres hdb
  rw [hbd.path]
  exact ((LitestreamSpec.validate_ok hspec).databases b hb).path.2.1

theorem placed_of_resolve {P : Parsers} {R : Replicas} {spec : LitestreamSpec}
    (h : resolve P R spec = .ok input) (hv : ValidInput input) (hdb : db ∈ input.databases) :
    Placed input.injection.permissions db := by
  obtain ⟨hspec, -, hinj, hres⟩ := resolve_ok h
  have hvs := LitestreamSpec.validate_ok hspec
  obtain ⟨b, hb, hbd⟩ := forall₂_mem_right hres hdb
  obtain ⟨-, habs, hclean⟩ := (hvs.databases b hb).path
  rw [← hbd.path] at habs hclean
  refine ⟨⟨fun hm => ?_, fun hm => ?_, fun hm => ?_⟩, ?_, hclean⟩
  · rw [hinj] at hm ⊢
    exact (isMode_of_matches (hvs.databaseMode.resolve_left hm)).1
  · unfold directoryMode
    rw [hinj] at hm ⊢
    exact (isMode_of_matches (hvs.directoryMode.resolve_left hm)).2
  · have := (hv.databases db hdb).dir hm
    rwa [hclean] at this
  · obtain ⟨cs, hcs⟩ := Path.isAbs_iff.1 habs
    rw [hasPrefix, hcs]
    rfl

/-- Names that are apart are enough. -/
theorem Rendering.ownScript (hp : Rendering L input r parts) (hL : L.Sound) (hv : ValidInput input)
    (ha : ApartNames input.databases) (hdb : db ∈ input.databases)
    (hpl : Placed input.injection.permissions db) :
    OwnScript L input.injection.permissions r db := by
  obtain ⟨part, hpart, hren⟩ := forall₂_mem_left hp.parts_ok hdb
  obtain ⟨docs, text, hdocs, htext, hfiles⟩ := hren.files
  have hstored : ∀ f ∈ part.files, r.data.get? f.1 = some f.2 := fun f hf =>
    hp.stored hv ha (List.mem_flatMap.2 ⟨part, hpart, hf⟩)
  refine ⟨text, _, hstored (restoreScriptFileName db.name, text) (by simp [hfiles]), htext,
    parse_script hpl.modes htext, ?_⟩
  have hcalls := script_calls hpl.path L input.injection.permissions (hv.databases db hdb).restores
  rw [List.forall₂_map_right_iff]
  refine forall₂_imp_mem hcalls fun args st hst hreads => ?_
  obtain ⟨a, hof, hcfg, -⟩ := hreads
  obtain ⟨f, hf, hname, hdoc⟩ := forall₂_mem_left hdocs ((mem_steps L db st).1 hst)
  refine ⟨a, st.1, f.2, hof, hcfg, ?_, hL _ _ hdoc⟩
  rw [← hname]
  exact hstored f (by simp [hfiles, hf])

/-- A script that finds its own files finds one under each of the database's names. -/
theorem OwnScript.reads {perms : PermissionsSpec} (h : OwnScript L perms r db)
    (hpl : Placed perms db) {injection : InjectionSpec} (hv : ValidDatabase injection db)
    {stem : String} (hs : stem ∈ stems db) : ∃ doc replica,
      r.data.get? (restoreConfigFileName stem) = some doc ∧
      L.unmarshal doc = some [⟨db.path, replica⟩] := by
  obtain ⟨text, cmds, -, htext, hparse, hfinds⟩ := h
  obtain rfl : cmds = scriptCmds perms db :=
    Option.some.inj (hparse.symm.trans (parse_script hpl.modes htext))
  have hcalls := script_calls hpl.path L perms hv.restores
  have hm := List.mem_map_of_mem (f := restoreConfigFileName) hs
  rw [← configs_names L hv] at hm
  obtain ⟨st, hst, hname⟩ := List.mem_map.1 hm
  rw [List.forall₂_map_right_iff] at hfinds
  obtain ⟨args, -, ⟨a, ha, hcfg, -⟩, a', file, doc, ha', hcfg', hdata, hun⟩ :=
    forall₂_mem_right (forall₂_and hcalls hfinds) ((mem_steps L db st).2 hst)
  obtain rfl : a = a' := Option.some.inj (ha.symm.trans ha')
  obtain rfl : st.1 = file := by
    have := hcfg.symm.trans hcfg'
    simpa [configPath] using this
  exact ⟨doc, st.2, hname ▸ hdata, hun⟩

/-- The scripts read their own files exactly if the names are apart. -/
theorem ownFiles_iff {P : Parsers} {R : Replicas} {spec : LitestreamSpec} (hL : L.Sound)
    (h : resolve P R spec = .ok input) (hr : render L input = .ok r) :
    OwnFiles L input r ↔ ApartNames input.databases := by
  obtain ⟨parts, hp⟩ := render_ok hr
  have hv := validateInput_ok hp.valid
  have hplaced : ∀ db ∈ input.databases, Placed input.injection.permissions db :=
    fun db hdb => placed_of_resolve h hv hdb
  constructor
  · intro hown d hd hc d' hd' hc'
    have hread : ∀ db ∈ input.databases, ∀ stem ∈ stems db, ∃ doc replica,
        r.data.get? (restoreConfigFileName stem) = some doc ∧
        L.unmarshal doc = some [⟨db.path, replica⟩] := fun db hdb stem hs =>
      (hown.scripts db hdb).reads (hplaced db hdb) (hv.databases db hdb) hs
    -- one file cannot be the own one of two databases, whose paths differ
    have hapart : ∀ stem ∈ stems d, stem ∉ stems d' := by
      intro stem hs hs'
      obtain ⟨doc, y, hdoc, hun⟩ := hread d hd stem hs
      obtain ⟨doc', y', hdoc', hun'⟩ := hread d' hd' stem hs'
      rw [hdoc, Option.some.injEq] at hdoc'
      rw [← hdoc', hun] at hun'
      have hpath : d.path = d'.path := by
        simp only [Option.some.injEq, List.cons.injEq, DbEntry.mk.injEq] at hun'
        exact hun'.1.1
      have heq : d = d' := List.inj_on_of_nodup_map hv.paths hd hd' (by simp [hpath])
      rw [heq, hc'] at hc
      cases hc
    constructor
    · intro he
      exact hapart (d.name ++ "-source") (by simp [stems, hc]) (by simp [stems, hc', he])
    · intro he
      exact hapart (d.name ++ "-destination") (by simp [stems, hc]) (by simp [stems, hc', he])
  · intro ha
    exact ⟨fun db hdb => hp.ownScript hL hv ha hdb (hplaced db hdb), hp.get?_replicate hL⟩

end Own

/-! ## A clone and a database under the name of its source -/

namespace Suffix

/-- A clone `a`, and a database of another name that replicates. -/
def spec (other : String) : LitestreamSpec where
  databases := [{ name := "a", path := "/data/a", restore := some { replicaRef := "src" },
                  replicate := some { replicaRef := "dst" } },
                { name := other, path := "/data/b", replicate := some { replicaRef := "dst" } }]

/-- The configurations of the steps and of the sidecar. -/
def docs : List (List DbEntry) := [[fileEntry "/data/a" "dst"], [fileEntry "/data/a" "src"],
  [fileEntry "/data/b" "dst"], [fileEntry "/data/a" "dst", fileEntry "/data/b" "dst"]]

def library : Library := .listed docs

theorem library_sound : library.Sound := Library.listed_sound (by decide +kernel)

def rendered (other : String) : Option RenderedConfig :=
  renderSpec .lenient (fileReplicas ["src", "dst"]) library (spec other)

/-- What is rendered for the two names. -/
theorem rendered_eq : (rendered "a-source").map (fun r =>
    (r.data.get? (restoreConfigFileName "a-source")).bind library.unmarshal) =
      some (some [fileEntry "/data/b" "dst"]) ∧
    (rendered "b").isSome = true ∧
    (resolve .lenient (fileReplicas ["src", "dst"]) (spec "b")).toOption.map
      (fun i => decide (ApartNames i.databases)) = some true := by
  decide +kernel

end Suffix

/-- The source step of the clone `a` finds the configuration of the database `a-source`. -/
theorem suffix_collides : ∃ i r,
    resolve .lenient (fileReplicas ["src", "dst"]) (Suffix.spec "a-source") = .ok i ∧
    render Suffix.library i = .ok r ∧ ¬ OwnFiles Suffix.library i r := by
  obtain ⟨r, hr, hdata⟩ := Option.map_eq_some_iff.1 Suffix.rendered_eq.1
  obtain ⟨i, hi, hri⟩ := renderSpec_eq_some hr
  refine ⟨i, r, hi, hri, fun hown => ?_⟩
  obtain ⟨parts, hp⟩ := render_ok hri
  have hv := validateInput_ok hp.valid
  obtain ⟨db, hdb, hres⟩ := forall₂_mem_left (resolve_ok hi).2.2.2
    (List.mem_cons_self : _ ∈ (Suffix.spec "a-source").databases)
  have hclone : db.clone = true := hres.clone.2 ⟨_, rfl, _, rfl, by decide⟩
  have hstem : "a-source" ∈ stems db := by
    rw [stems, if_pos hclone, hres.name]
    decide
  obtain ⟨doc, y, hdoc, hun⟩ := (hown.scripts db hdb).reads (placed_of_resolve hi hv hdb)
    (hv.databases db hdb) hstem
  rw [hdoc, Option.bind_some, hun, hres.path] at hdata
  simp [fileEntry] at hdata

theorem ownFiles_apart : ∃ i r,
    resolve .lenient (fileReplicas ["src", "dst"]) (Suffix.spec "b") = .ok i ∧
    render Suffix.library i = .ok r ∧ OwnFiles Suffix.library i r := by
  obtain ⟨r, hr⟩ := Option.isSome_iff_exists.1 Suffix.rendered_eq.2.1
  obtain ⟨i, hi, hri⟩ := renderSpec_eq_some hr
  have hapart := Suffix.rendered_eq.2.2
  rw [hi] at hapart
  exact ⟨i, r, hi, hri, (ownFiles_iff Suffix.library_sound hi hri).2
    (of_decide_eq_true (Option.some.inj hapart))⟩

end Controller.Config
