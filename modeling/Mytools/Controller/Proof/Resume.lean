import Mathlib.Algebra.Order.BigOperators.Group.List
import Mathlib.Algebra.Order.Group.Nat
import Mathlib.Algebra.Ring.Nat
import Mytools.Controller.Config.Host
import Mytools.Controller.Proof.Files

/-!
# Clones that resume

The script of a clone is run over a disk without the database and a destination that holds data. The
first restore writes the database of the destination. What the second one does to it depends on the
policy of the source: only with `overwrite` and `fail` is the result another one.
-/

namespace Controller.Config

open Lib V1alpha1 Shell

/-- The restore of a clone's destination. -/
def destinationArgs (db : Database) : RestoreArgs :=
  { defaultRestorePolicy.args with
    config := configPath (cloneConfigFileName db.name "destination"), path := db.path }

/-- The script ends well and leaves the database of the destination. -/
def Resumes (M : Mktemp) (d : Disk) (db : Database) (text : String) : Prop :=
  ∃ e, runScript (Disk.programs M) text d = some e ∧ e.status = 0 ∧
    e.world.files.get? db.path = some (.restored (destinationArgs db))

/-- The second step leaves the database alone: it does not run over an existing database, or it has
nothing to put in its place. -/
def LeavesDestination (db : Database) (source : Restore) (d : Disk) : Prop :=
  (source.ifDatabaseExists ≠ .overwrite ∧ source.ifDatabaseExists ≠ .fail) ∨
  (source.ifDatabaseExists = .overwrite ∧ source.ifReplicaMissing ≠ .fail ∧
    d.replicas (configPath (cloneConfigFileName db.name "source")) = none)

/-! ## The steps -/

/-- The shell after `set -eu`. -/
def started (d : Disk) : State Disk := { errexit := true, nounset := true, world := d }

theorem set_passes (M : Mktemp) (d : Disk) :
    Passes (Disk.programs M) false "" { world := d } [setCmd] (started d) :=
  ⟨[], rfl⟩

section Steps

variable {M : Mktemp} {s : State Disk} {db : Database} {input : String}

theorem programs_restore (hpath : hasPrefix db.path "-" = false) (policy : RestorePolicy)
    (configFile : String) (output : Option String) (d : Disk) :
    Disk.programs M ("litestream" :: ("restore" :: policy.flags ++ (["-config", configFile] ++
      output.elim [] (fun o => ["-o", o]) ++ [db.path]))) input d =
    d.restore { policy.args with
      config := configFile, output := output.getD "", path := db.path } := by
  rw [Disk.programs, ofCall_restore hpath]

theorem restore_expands (s : State Disk) (policy : RestorePolicy) (configFile dbPath : String) :
    Expands s (plain "litestream" :: plain "restore" :: policy.flags.map lit ++
        [plain "-config", lit configFile, lit dbPath])
      ("litestream" :: ("restore" :: policy.flags ++ (["-config", configFile] ++
        (none : Option String).elim [] (fun o => ["-o", o]) ++ [dbPath]))) := by
  have h1 : Expands s [plain "litestream", plain "restore"] ["litestream", "restore"] := rfl
  have h2 : Expands s [plain "-config"] ["-config"] := rfl
  have h3 := Expands.lits s [configFile, dbPath]
  exact (h1.append (Expands.lits s policy.flags)).append (h2.append h3)

theorem staged_expands {σ : Type} {s : State σ} {tmp : String}
    (htmp : s.vars.lookup "restore_tmp" = some tmp)
    (policy : RestorePolicy) (configFile dbPath : String) :
    Expands s (plain "litestream" :: plain "restore" :: policy.flags.map lit ++
        [plain "-config", lit configFile, plain "-o", tmpVar, lit dbPath])
      ("litestream" :: ("restore" :: policy.flags ++ (["-config", configFile] ++
        (some tmp).elim [] (fun o => ["-o", o]) ++ [dbPath]))) := by
  have h1 : Expands s [plain "litestream", plain "restore"] ["litestream", "restore"] := rfl
  have h2 : Expands s [plain "-config"] ["-config"] := rfl
  have h3 : Expands s [plain "-o"] ["-o"] := rfl
  exact (h1.append (Expands.lits s policy.flags)).append
    (h2.append ((Expands.lits s [configFile]).append
    (h3.append ((Expands.var htmp).append (Expands.lits s [dbPath])))))

theorem litestream_program :
    "litestream" ≠ "set" ∧ "litestream" ≠ "exit" ∧ "litestream" ≠ "trap" := by
  decide

/-- A restore to the path of the database. -/
def directArgs (policy : RestorePolicy) (configFile dbPath : String) : RestoreArgs :=
  { policy.args with config := configFile, output := "", path := dbPath }

/-- A restore to a temporary file. -/
def stagedArgs (policy : RestorePolicy) (configFile tmp dbPath : String) : RestoreArgs :=
  { policy.args with config := configFile, output := tmp, path := dbPath }

section Direct

variable (hpath : hasPrefix db.path "-" = false) {policy : RestorePolicy} {configFile : String}
  {d' : Disk}

include hpath

theorem direct_passes (h : s.world.restore (directArgs policy configFile db.path) = d'.succeed) :
    Passes (Disk.programs M) false "" s [restoreCmd policy.flags configFile db.path]
      { s with world := d' } :=
  Passes.program false (restore_expands s policy configFile db.path) litestream_program
    ((programs_restore hpath policy configFile none s.world).trans h)

theorem direct_aborts (he : s.errexit = true)
    (h : s.world.restore (directArgs policy configFile db.path) = d'.fail) :
    Aborts (Disk.programs M) false "" s [restoreCmd policy.flags configFile db.path]
      { s with world := d' } :=
  Aborts.program (restore_expands s policy configFile db.path) litestream_program he
    ((programs_restore hpath policy configFile none s.world).trans h)

end Direct

/-! ## The temporary file -/

/-- The shell once the temporary file is there: it is removed at the end. -/
def staging (tmp : String) (d : Disk) : State Disk :=
  { started d with vars := [("restore_tmp", tmp)], onExit := some "rm -f \"$restore_tmp\"" }

theorem captured_pick (template : String) (files : Table String File) :
    captured [(1, M.pick template files), (1, "\n")] = M.pick template files := by
  obtain ⟨cs, c, hcs, hc⟩ := M.ending template files
  have hne : c ≠ '\n' := by
    rintro rfl
    simp at hc
  apply String.toList_injective
  simp [captured, printed, hcs, String.join, hne]

theorem mktemp_passes (d : Disk) (template : String) :
    Passes (Disk.programs M) false "" (started d)
      [.capture "restore_tmp" [.simple [plain "mktemp", lit template]]]
      { started (d.put (M.pick template d.files) .empty) with
        vars := [("restore_tmp", M.pick template d.files)] } := by
  have hname : Expands (inSubshell (started d)) [plain "mktemp"] ["mktemp"] := rfl
  have hwords := hname.append (Expands.lits (inSubshell (started d)) [template])
  have hrun : Disk.programs M ["mktemp", template] "" d =
      { world := d.put (M.pick template d.files) .empty,
        out := [(1, M.pick template d.files), (1, "\n")] } := rfl
  have hcap := Passes.capture "restore_tmp" (evalList_program false hwords (by decide) hrun)
  rw [captured_pick] at hcap
  exact hcap

theorem trap_passes (s : State Disk) :
    Passes (Disk.programs M) false "" s [.simple [plain "trap", lit "rm -f \"$restore_tmp\"",
      plain "EXIT", plain "HUP", plain "INT", plain "TERM"]]
      { s with onExit := some "rm -f \"$restore_tmp\"" } := by
  have hname : Expands s [plain "trap"] ["trap"] := rfl
  have hsignals : Expands s [plain "EXIT", plain "HUP", plain "INT", plain "TERM"]
    ["EXIT", "HUP", "INT", "TERM"] := rfl
  exact Passes.trap (hname.append ((Expands.lits s ["rm -f \"$restore_tmp\""]).append hsignals))
    (by decide)

section Staged

variable {tmp : String} {d d' : Disk}

theorem lookup_tmp (tmp : String) (d : Disk) :
    (staging tmp d).vars.lookup "restore_tmp" = some tmp := rfl

variable (hpath : hasPrefix db.path "-" = false) {policy : RestorePolicy} {configFile : String}

include hpath in
theorem staged_passes (h : d.restore (stagedArgs policy configFile tmp db.path) = d'.succeed) :
    Passes (Disk.programs M) false "" (staging tmp d)
      [.simple (plain "litestream" :: plain "restore" :: policy.flags.map lit ++
        [plain "-config", lit configFile, plain "-o", tmpVar, lit db.path])] (staging tmp d') :=
  Passes.program false (staged_expands (lookup_tmp tmp d) policy configFile db.path)
    litestream_program
    ((programs_restore hpath policy configFile (some tmp) d).trans h)

include hpath in
theorem staged_aborts (h : d.restore (stagedArgs policy configFile tmp db.path) = d'.fail) :
    Aborts (Disk.programs M) false "" (staging tmp d)
      [.simple (plain "litestream" :: plain "restore" :: policy.flags.map lit ++
        [plain "-config", lit configFile, plain "-o", tmpVar, lit db.path])] (staging tmp d') :=
  Aborts.program (staged_expands (lookup_tmp tmp d) policy configFile db.path)
    litestream_program rfl
    ((programs_restore hpath policy configFile (some tmp) d).trans h)

/-- An empty temporary file is not moved. -/
theorem replace_skipped {body : List Cmd} (h : d.filled tmp = false) :
    Passes (Disk.programs M) false "" (staging tmp d)
      [.ifThen [.simple [plain "[", plain "-s", tmpVar, plain "]"]] body] (staging tmp d) := by
  have h1 : Expands (staging tmp d) [plain "[", plain "-s"] ["[", "-s"] := rfl
  have h2 : Expands (staging tmp d) [plain "]"] ["]"] := rfl
  have hrun : Disk.programs M ["[", "-s", tmp, "]"] "" d = { world := d, status := 0 + 1 } := by
    simp [Disk.programs, Disk.test, Disk.fail, h]
  exact Passes.ifFalse (evalList_failed (h1.append ((Expands.var (lookup_tmp tmp d)).append h2))
    (by decide) hrun)

theorem programs_rm (M : Mktemp) (paths : List String) (d : Disk) :
    Disk.programs M ("rm" :: "-f" :: paths) "" d = { world := paths.foldl Disk.remove d } := rfl

/-- A restored temporary file takes the place of the database. -/
theorem replace_passes {f : RestoreArgs} {dbPath : String}
    (h : d.files.get? tmp = some (.restored f)) :
    Passes (Disk.programs M) false "" (staging tmp d)
      [.ifThen [.simple [plain "[", plain "-s", tmpVar, plain "]"]]
        [.simple [plain "mv", tmpVar, lit dbPath],
          .simple [plain "rm", plain "-f", lit (dbPath ++ "-wal"), lit (dbPath ++ "-shm"),
            lit (dbPath ++ "-journal")]]]
      (staging tmp ([dbPath ++ "-wal", dbPath ++ "-shm", dbPath ++ "-journal"].foldl Disk.remove
        ((d.remove tmp).put dbPath (.restored f)))) := by
  have h1 : Expands (staging tmp d) [plain "[", plain "-s"] ["[", "-s"] := rfl
  have h2 : Expands (staging tmp d) [plain "]"] ["]"] := rfl
  have htest : Disk.programs M ["[", "-s", tmp, "]"] "" d = { world := d } := by
    simp [Disk.programs, Disk.test, Disk.succeed, Disk.filled, h]
  have hmv : Disk.programs M ["mv", tmp, dbPath] "" d =
      { world := (d.remove tmp).put dbPath (.restored f) } := by
    simp [Disk.programs, Disk.mv, h, Disk.succeed]
  have h3 : Expands (staging tmp d) [plain "mv"] ["mv"] := rfl
  have h4 : Expands (staging tmp ((d.remove tmp).put dbPath (.restored f)))
    [plain "rm", plain "-f"] ["rm", "-f"] := rfl
  have hcond := Passes.program true
    (h1.append ((Expands.var (lookup_tmp tmp d)).append h2)) (by decide) htest
  have hmove := Passes.program false (h3.append ((Expands.var (lookup_tmp tmp d)).append
    (Expands.lits _ [dbPath]))) (by decide) hmv
  have hrm := Passes.program false (h4.append (Expands.lits _
    [dbPath ++ "-wal", dbPath ++ "-shm", dbPath ++ "-journal"])) (by decide) (programs_rm M _ _)
  exact Passes.ifTrue hcond (hmove.append hrm)

end Staged

/-! ## The modes -/

theorem chmodCmd_passes {mode : String} (hm : IsMode mode) (path : String) (s : State Disk) :
    Passes (Disk.programs M) false "" s [chmodCmd mode path] s := by
  have hplain : '*' ∉ mode.toList ∧ '?' ∉ mode.toList := by
    constructor <;> intro hc <;> exact absurd (List.all_eq_true.1 hm.2 _ hc) (by decide)
  have hname : Expands s [plain "chmod"] ["chmod"] := rfl
  have hmode : Expands s [plain mode, lit path] [mode, path] := by
    have h := (Expands.lits s [path]).cons (expand_plain s hplain)
    rwa [String.ofList_toList] at h
  have hrun : Disk.programs M ["chmod", mode, path] "" s.world = { world := s.world } := rfl
  exact Passes.ifFalse (evalList_not (hname.append hmode) (by decide) hrun)

theorem chmodCmds_passes {perms : PermissionsSpec} (hv : ValidModes db perms) (s : State Disk) :
    Passes (Disk.programs M) false "" s (chmodCmds db perms) s := by
  have hall : ∀ ms : List (String × String), (∀ m ∈ ms, IsMode m.1) →
      Passes (Disk.programs M) false "" s (ms.map fun m => chmodCmd m.1 m.2) s := by
    intro ms hms
    induction ms with
    | nil => exact Passes.nil
    | cons m ms ih =>
      exact (chmodCmd_passes (hms m List.mem_cons_self) m.2 s).append
        (ih fun m hm => hms m (List.mem_cons_of_mem _ hm))
  unfold chmodCmds
  split
  · exact Passes.nil
  · have h1 : Expands s [plain "[", plain "-e"] ["[", "-e"] := rfl
    have h2 : Expands s [plain "]"] ["]"] := rfl
    have hwords := h1.append ((Expands.lits s [db.path]).append h2)
    cases hp : s.world.present db.path with
    | true =>
      have hrun : Disk.programs M ["[", "-e", db.path, "]"] "" s.world = { world := s.world } := by
        simp [Disk.programs, Disk.test, Disk.succeed, hp]
      exact Passes.ifTrue (Passes.program true hwords (by decide) hrun) (hall _ (isMode_modes hv))
    | false =>
      have hrun : Disk.programs M ["[", "-e", db.path, "]"] "" s.world =
          { world := s.world, status := 0 + 1 } := by
        simp [Disk.programs, Disk.test, Disk.fail, hp]
      exact Passes.ifFalse (evalList_failed hwords (by decide) hrun)

/-! ## The restores -/

theorem present_iff {d : Disk} {path : String} :
    d.present path = true ↔ d.files.get? path ≠ none := by
  rw [Disk.present, Option.isSome_iff_ne_none]

section Restore

variable {d : Disk} {a : RestoreArgs} (hdry : a.dryRun = false)

include hdry

/-- The output of a restore is not there, or is to be replaced. -/
theorem restore_fetch {output : String}
    (hout : (if a.output = "" then a.path else a.output) = output)
    (h : d.files.get? output = none ∨ (a.ifDatabaseNotExists = false ∧ a.force = true)) :
    d.restore a = d.fetch a output := by
  unfold Disk.restore
  simp only [hout]
  rcases h with h | ⟨h, h'⟩
  · simp [hdry, Disk.present, h]
  · simp [hdry, h, h']

omit hdry in
theorem fetch_none {output : String} (h : d.replicas a.config = none) :
    d.fetch a output = d.test a.ifReplicaExists := by
  rw [Disk.fetch, h]

omit hdry in
theorem fetch_some {output : String} {serves : RestoreArgs → Bool}
    (h : d.replicas a.config = some serves) :
    d.fetch a output = if serves a then (d.put output (.restored a)).succeed else d.fail := by
  rw [Disk.fetch, h]

theorem restore_skip (hout : a.output = "") (hp : d.files.get? a.path ≠ none)
    (h : a.ifDatabaseNotExists = true) : d.restore a = d.succeed := by
  simp [Disk.restore, hdry, hout, present_iff.2 hp, h]

theorem restore_refuse (hout : a.output = "") (hp : d.files.get? a.path ≠ none)
    (h : a.ifDatabaseNotExists = false) (hf : a.force = false) : d.restore a = d.fail := by
  simp [Disk.restore, hdry, hout, present_iff.2 hp, h, hf]

end Restore

/-! ## The end of the script -/

/-- A shell that ends in the state `s` leaves the disk `d`. -/
def Ends (M : Mktemp) (s : State Disk) (d : Disk) : Prop :=
  ∀ flow out, ∃ out', leave (Disk.programs M) ⟨s, flow, out⟩ = some ⟨d, flow.status, out'⟩

theorem started_ends (M : Mktemp) (d : Disk) : Ends M (started d) d :=
  fun _ out => ⟨out, leave_none rfl⟩

theorem parse_action : parse "rm -f \"$restore_tmp\"" =
    some [.simple [plain "rm", plain "-f", tmpVar]] := rfl

theorem staging_ends (M : Mktemp) (tmp : String) (d : Disk) :
    Ends M (staging tmp d) (d.remove tmp) := by
  intro flow out
  have hname : Expands { staging tmp d with onExit := none }
      [plain "rm", plain "-f"] ["rm", "-f"] := rfl
  have hwords := hname.append (Expands.var (s := { staging tmp d with onExit := none })
    (lookup_tmp tmp d))
  exact leave_action rfl parse_action
    (Passes.program false hwords (by decide) (programs_rm M [tmp] d))

theorem run_passes {text : String} {cs : List Cmd} {d d' : Disk} {s : State Disk}
    (hp : parse text = some cs) (h : Passes (Disk.programs M) false "" { world := d } cs s)
    (he : Ends M s d') : ∃ out, runScript (Disk.programs M) text d = some ⟨d', 0, out⟩ := by
  obtain ⟨out, h⟩ := h
  obtain ⟨out', he⟩ := he (.next 0) out
  exact ⟨out', by simp [runScript, hp, h, he, Flow.status]⟩

theorem run_aborts {text : String} {cs : List Cmd} {d d' : Disk} {s : State Disk}
    (hp : parse text = some cs) (h : Aborts (Disk.programs M) false "" { world := d } cs s)
    (he : Ends M s d') : ∃ k out, runScript (Disk.programs M) text d = some ⟨d', k + 1, out⟩ := by
  obtain ⟨k, out, h⟩ := h
  obtain ⟨out', he⟩ := he (.exit (k + 1)) out
  exact ⟨k, out', by simp [runScript, hp, h, he, Flow.status]⟩

end Steps

/-! ## The two steps of a clone -/

/-- The disk after the first step. -/
def resumed (db : Database) (d : Disk) : Disk := d.put db.path (.restored (destinationArgs db))

theorem resumed_get (db : Database) (d : Disk) :
    (resumed db d).files.get? db.path = some (.restored (destinationArgs db)) := by
  simp [resumed, Disk.put, Table.get?_set]

section Source

variable {M : Mktemp} {db : Database} {perms : PermissionsSpec} {d : Disk}
  (hpath : hasPrefix db.path "-" = false) {policy : RestorePolicy} {configFile : String}

include hpath

theorem destination_passes (hnone : d.files.get? db.path = none) {serves : RestoreArgs → Bool}
    (hdest : d.replicas (destinationArgs db).config = some serves)
    (hserves : serves (destinationArgs db) = true) :
    Passes (Disk.programs M) false "" (started d) (buildRestoreCmds defaultRestorePolicy
      (configPath (cloneConfigFileName db.name "destination")) db.path)
        (started (resumed db d)) := by
  rw [buildRestoreCmds, if_neg (by decide)]
  refine direct_passes hpath ?_
  have hargs : directArgs defaultRestorePolicy
      (configPath (cloneConfigFileName db.name "destination")) db.path = destinationArgs db := rfl
  rw [hargs]
  exact (restore_fetch rfl (if_pos rfl) (.inl hnone)).trans
    ((fetch_some hdest).trans (if_pos hserves))

/-- A policy that is neither `overwrite` nor `fail` leaves a database as it is. -/
theorem skip_passes (hp : d.files.get? db.path ≠ none)
    (h : policy.ifDatabaseExists ≠ .overwrite ∧ policy.ifDatabaseExists ≠ .fail) :
    Passes (Disk.programs M) false "" (started d) (buildRestoreCmds policy configFile db.path)
      (started d) := by
  rw [buildRestoreCmds, if_neg h.1]
  exact direct_passes hpath (restore_skip rfl rfl hp (decide_eq_true h))

theorem fail_aborts (hp : d.files.get? db.path ≠ none) (h : policy.ifDatabaseExists = .fail) :
    Aborts (Disk.programs M) false "" (started d) (buildRestoreCmds policy configFile db.path)
      (started d) := by
  rw [buildRestoreCmds, if_neg (by simp [h])]
  exact direct_aborts hpath rfl
    (restore_refuse rfl rfl hp (by simp [directArgs, RestorePolicy.args, h])
    (by simp [directArgs, RestorePolicy.args, h]))

end Source

/-! ## A source that overwrites -/

section Overwrite

/-- The temporary file in the directory of the database. -/
def tmpFile (M : Mktemp) (db : Database) (d : Disk) : String :=
  M.pick (restoreTemplate db.path) d.files

variable {M : Mktemp} {db : Database} {d : Disk}

theorem tmpFile_ne (M : Mktemp) (db : Database) (d : Disk) : tmpFile M db d ≠ "" := by
  obtain ⟨cs, c, hcs, -⟩ := M.ending (restoreTemplate db.path) d.files
  intro he
  have := congrArg String.toList he
  simp [tmpFile, hcs] at this

theorem tmpFile_ne_path (hp : d.files.get? db.path ≠ none) : db.path ≠ tmpFile M db d := by
  intro he
  rw [he] at hp
  exact hp (M.fresh _ _)

/-- The disk once the temporary file is there. -/
def staged (M : Mktemp) (db : Database) (d : Disk) : Disk := d.put (tmpFile M db d) .empty

theorem stage_passes (M : Mktemp) (db : Database) (d : Disk) :
    Passes (Disk.programs M) false "" (started d)
      ([.capture "restore_tmp" [.simple [plain "mktemp", lit (restoreTemplate db.path)]]] ++
        [.simple [plain "trap", lit "rm -f \"$restore_tmp\"", plain "EXIT", plain "HUP",
          plain "INT", plain "TERM"]])
      (staging (tmpFile M db d) (staged M db d)) :=
  (mktemp_passes d (restoreTemplate db.path)).append (trap_passes _)

variable {policy : RestorePolicy} {configFile : String} (ho : policy.ifDatabaseExists = .overwrite)

include ho

theorem staged_restore :
    (staged M db d).restore (stagedArgs policy configFile (tmpFile M db d) db.path) =
      (staged M db d).fetch (stagedArgs policy configFile (tmpFile M db d) db.path)
        (tmpFile M db d) :=
  restore_fetch rfl (if_neg (tmpFile_ne M db d))
    (.inr ⟨by simp [stagedArgs, RestorePolicy.args, ho],
      by simp [stagedArgs, RestorePolicy.args, ho]⟩)

variable (hpath : hasPrefix db.path "-" = false)

include hpath

/-- An empty source is passed over. -/
theorem overwrite_empty (hr : d.replicas configFile = none) (hm : policy.ifReplicaMissing ≠ .fail) :
    Passes (Disk.programs M) false "" (started d) (buildRestoreCmds policy configFile db.path)
      (staging (tmpFile M db d) (staged M db d)) := by
  have hrestore : (staged M db d).restore (stagedArgs policy configFile (tmpFile M db d) db.path) =
      (staged M db d).succeed := by
    have hm' : (stagedArgs policy configFile (tmpFile M db d) db.path).ifReplicaExists = true :=
      decide_eq_true hm
    exact (staged_restore ho).trans ((fetch_none hr).trans (if_pos hm'))
  have hempty : (staged M db d).filled (tmpFile M db d) = false := by
    simp [Disk.filled, staged, Disk.put, Table.get?_set]
  rw [buildRestoreCmds, if_pos ho]
  exact (stage_passes M db d).append
    ((staged_passes hpath hrestore).append (replace_skipped hempty))

/-- A restore that fails ends the script. -/
theorem overwrite_aborts
    (h : (staged M db d).fetch (stagedArgs policy configFile (tmpFile M db d) db.path)
      (tmpFile M db d) = (staged M db d).fail) :
    Aborts (Disk.programs M) false "" (started d) (buildRestoreCmds policy configFile db.path)
      (staging (tmpFile M db d) (staged M db d)) := by
  rw [buildRestoreCmds, if_pos ho]
  exact (stage_passes M db d).aborts
    ((staged_aborts hpath ((staged_restore ho).trans h)).append _)

/-- The disk after the source has taken the place of the database. -/
def overwritten (M : Mktemp) (policy : RestorePolicy) (configFile : String) (db : Database)
    (d : Disk) : Disk :=
  [db.path ++ "-wal", db.path ++ "-shm", db.path ++ "-journal"].foldl Disk.remove
    ((((staged M db d).put (tmpFile M db d)
      (.restored (stagedArgs policy configFile (tmpFile M db d) db.path))).remove
        (tmpFile M db d)).put db.path
          (.restored (stagedArgs policy configFile (tmpFile M db d) db.path)))

theorem overwrite_passes {serves : RestoreArgs → Bool} (hr : d.replicas configFile = some serves)
    (hs : serves (stagedArgs policy configFile (tmpFile M db d) db.path) = true) :
    Passes (Disk.programs M) false "" (started d) (buildRestoreCmds policy configFile db.path)
      (staging (tmpFile M db d) (overwritten M policy configFile db d)) := by
  have hrestore : (staged M db d).restore (stagedArgs policy configFile (tmpFile M db d) db.path) =
      ((staged M db d).put (tmpFile M db d)
        (.restored (stagedArgs policy configFile (tmpFile M db d) db.path))).succeed :=
    (staged_restore ho).trans ((fetch_some hr).trans (if_pos hs))
  have hget : ((staged M db d).put (tmpFile M db d)
      (.restored (stagedArgs policy configFile (tmpFile M db d) db.path))).files.get?
        (tmpFile M db d) =
      some (.restored (stagedArgs policy configFile (tmpFile M db d) db.path)) := by
    simp [Disk.put, Table.get?_set]
  rw [buildRestoreCmds, if_pos ho]
  exact (stage_passes M db d).append ((staged_passes hpath hrestore).append (replace_passes hget))

end Overwrite

theorem overwritten_get {M : Mktemp} {db : Database} {d : Disk} (hp : d.files.get? db.path ≠ none)
    (policy : RestorePolicy) (configFile : String) :
    ((overwritten M policy configFile db d).remove (tmpFile M db d)).files.get? db.path =
      some (.restored (stagedArgs policy configFile (tmpFile M db d) db.path)) := by
  have hne := tmpFile_ne_path (M := M) hp
  have hsuffix : ∀ suffix : String, suffix ≠ "" → db.path ≠ db.path ++ suffix := by
    intro suffix hs he
    have hl := congrArg String.length he
    rw [String.length_append] at hl
    exact hs (String.length_eq_zero_iff.1 (by omega))
  simp [overwritten, Disk.remove, Disk.put, Table.get?_erase, Table.get?_set, hne, hsuffix]

/-! ## The script of a clone -/

section Clone

variable {M : Mktemp} {db : Database} {source : Restore} {perms : PermissionsSpec} {d d' : Disk}
  {serves : RestoreArgs → Bool} {text : String} {s : State Disk}

/-- The second step of the script. -/
def sourceCmds (db : Database) (source : Restore) : List Cmd :=
  buildRestoreCmds (restorePolicyFromSpec source)
    (configPath (cloneConfigFileName db.name "source"))
    db.path

variable (hpl : Placed perms db) (hpolicy : db.clonePolicy ≠ .requireEmpty)
  (htext : buildCloneScript db source perms (cloneConfigFileName db.name "destination")
    (cloneConfigFileName db.name "source") = .ok text)
  (hnone : d.files.get? db.path = none)
  (hdest : d.replicas (destinationArgs db).config = some serves)
  (hserves : serves (destinationArgs db) = true)

include hpl hpolicy htext in
theorem parse_resume : parse text = some ([setCmd] ++ (buildRestoreCmds defaultRestorePolicy
    (configPath (cloneConfigFileName db.name "destination")) db.path ++ (sourceCmds db source ++
      chmodCmds db perms))) := by
  rw [parse_clone hpl.modes htext, cloneCmds, if_neg hpolicy, List.nil_append, List.append_assoc]
  rfl

include hpl hnone hdest hserves in
/-- The script up to the second step. -/
theorem resume_passes : Passes (Disk.programs M) false "" { world := d } ([setCmd] ++
    buildRestoreCmds defaultRestorePolicy (configPath (cloneConfigFileName db.name "destination"))
      db.path) (started (resumed db d)) :=
  (set_passes M d).append (destination_passes hpl.path hnone hdest hserves)

include hpl hpolicy htext hnone hdest hserves

theorem clone_passes (hs : Passes (Disk.programs M) false "" (started (resumed db d))
    (sourceCmds db source) s) (he : Ends M s d') :
    ∃ out, runScript (Disk.programs M) text d = some ⟨d', 0, out⟩ := by
  refine run_passes (parse_resume hpl hpolicy htext) ?_ he
  rw [← List.append_assoc]
  exact (resume_passes hpl hnone hdest hserves).append (hs.append (chmodCmds_passes hpl.modes s))

theorem clone_aborts (hs : Aborts (Disk.programs M) false "" (started (resumed db d))
    (sourceCmds db source) s) (he : Ends M s d') :
    ∃ k out, runScript (Disk.programs M) text d = some ⟨d', k + 1, out⟩ := by
  refine run_aborts (parse_resume hpl hpolicy htext) ?_ he
  rw [← List.append_assoc]
  exact (resume_passes hpl hnone hdest hserves).aborts (hs.append _)

theorem not_resumes_of_aborts (hs : Aborts (Disk.programs M) false "" (started (resumed db d))
    (sourceCmds db source) s) (he : Ends M s d') : ¬ Resumes M d db text := by
  rintro ⟨e, hrun, hstatus, -⟩
  obtain ⟨k, out, hrun'⟩ := clone_aborts hpl hpolicy htext hnone hdest hserves hs he
  rw [hrun', Option.some.injEq] at hrun
  rw [← hrun] at hstatus
  cases hstatus

/-- A source with data replaces the database, or ends the script. -/
theorem not_resumes_of_overwrite {serves' : RestoreArgs → Bool}
    (ho : source.ifDatabaseExists = .overwrite)
    (hr : d.replicas (configPath (cloneConfigFileName db.name "source")) = some serves') :
    ¬ Resumes M d db text := by
  have hp : (resumed db d).files.get? db.path ≠ none := by simp [resumed_get]
  have ho' : (restorePolicyFromSpec source).ifDatabaseExists = .overwrite := by
    simp [restorePolicyFromSpec, ho]
  have hr' : (resumed db d).replicas (configPath (cloneConfigFileName db.name "source")) =
    some serves' := hr
  by_cases hs : serves' (stagedArgs (restorePolicyFromSpec source)
      (configPath (cloneConfigFileName db.name "source"))
      (tmpFile M db (resumed db d)) db.path) = true
  · obtain ⟨out, hrun⟩ := clone_passes hpl hpolicy htext hnone hdest hserves
      (overwrite_passes ho' hpl.path hr' hs) (staging_ends M _ _)
    rintro ⟨e, hrun', -, hget⟩
    rw [hrun, Option.some.injEq] at hrun'
    rw [← hrun', overwritten_get hp] at hget
    -- the two restores differ in their output
    exact tmpFile_ne M db _
      (congrArg RestoreArgs.output (File.restored.inj (Option.some.inj hget)))
  · exact not_resumes_of_aborts hpl hpolicy htext hnone hdest hserves
      (overwrite_aborts ho' hpl.path ((fetch_some hr').trans (if_neg hs))) (staging_ends M _ _)

/-- Which sources leave the destination's database in its place. -/
theorem clone_resumes_iff : Resumes M d db text ↔ LeavesDestination db source d := by
  have hp : (resumed db d).files.get? db.path ≠ none := by simp [resumed_get]
  by_cases ho : source.ifDatabaseExists = .overwrite
  · have ho' : (restorePolicyFromSpec source).ifDatabaseExists = .overwrite := by
      simp [restorePolicyFromSpec, ho]
    have hm' : (restorePolicyFromSpec source).ifReplicaMissing = .fail ↔
        source.ifReplicaMissing = .fail := by
      unfold restorePolicyFromSpec
      by_cases hu : source.ifReplicaMissing = .unset <;> simp [hu]
    cases hr : d.replicas (configPath (cloneConfigFileName db.name "source")) with
    | some serves' =>
      refine iff_of_false
        (not_resumes_of_overwrite hpl hpolicy htext hnone hdest hserves ho hr) ?_
      simp [LeavesDestination, ho, hr]
    | none =>
      have hr' :
          (resumed db d).replicas (configPath (cloneConfigFileName db.name "source")) = none :=
        hr
      by_cases hm : source.ifReplicaMissing = .fail
      · have hmiss : (restorePolicyFromSpec source).args.ifReplicaExists ≠ true := by
          simp [RestorePolicy.args, hm'.2 hm]
        exact iff_of_false (not_resumes_of_aborts hpl hpolicy htext hnone hdest hserves
          (overwrite_aborts ho' hpl.path ((fetch_none hr').trans (if_neg hmiss)))
          (staging_ends M _ _)) (by simp [LeavesDestination, ho, hm])
      · refine iff_of_true ?_ (.inr ⟨ho, hm, hr⟩)
        obtain ⟨out, hrun⟩ := clone_passes hpl hpolicy htext hnone hdest hserves
          (overwrite_empty ho' hpl.path hr' (fun h => hm (hm'.1 h))) (staging_ends M _ _)
        refine ⟨_, hrun, rfl, ?_⟩
        have hne := tmpFile_ne_path (M := M) hp
        rw [← resumed_get db d]
        simp [Disk.remove, staged, Disk.put, Table.get?_erase, Table.get?_set, hne]
  · by_cases hf : source.ifDatabaseExists = .fail
    · refine iff_of_false (not_resumes_of_aborts hpl hpolicy htext hnone hdest hserves
        (fail_aborts hpl.path hp (by simp [restorePolicyFromSpec, hf])) (started_ends M _))
        (by simp [LeavesDestination, hf])
    · refine iff_of_true ?_ (.inl ⟨ho, hf⟩)
      have hskip : (restorePolicyFromSpec source).ifDatabaseExists ≠ .overwrite ∧
          (restorePolicyFromSpec source).ifDatabaseExists ≠ .fail := by
        unfold restorePolicyFromSpec
        by_cases hu : source.ifDatabaseExists = .unset <;> simp [hu, ho, hf]
      obtain ⟨out, hrun⟩ := clone_passes hpl hpolicy htext hnone hdest hserves
        (skip_passes hpl.path hp hskip) (started_ends M _)
      exact ⟨_, hrun, rfl, resumed_get db d⟩

end Clone

/-- A clone resumes from a destination with data exactly if its source leaves the database alone. -/
theorem resumes_iff {P : Parsers} {R : Replicas} {spec : LitestreamSpec} {input : Input}
    {db : Database} {source : Restore} {text : String} (M : Mktemp) (d : Disk)
    {serves : RestoreArgs → Bool} (h : resolve P R spec = .ok input)
    (hv : validateInput input = .ok ()) (hdb : db ∈ input.databases)
    (hpolicy : db.clonePolicy ≠ .requireEmpty)
    (htext : buildCloneScript db source input.injection.permissions
      (cloneConfigFileName db.name "destination") (cloneConfigFileName db.name "source") = .ok text)
    (hnone : d.files.get? db.path = none)
    (hdest : d.replicas (configPath (cloneConfigFileName db.name "destination")) = some serves)
    (hserves : serves (destinationArgs db) = true) :
    Resumes M d db text ↔ LeavesDestination db source d :=
  clone_resumes_iff (placed_of_resolve h (validateInput_ok hv) hdb) hpolicy htext
    hnone hdest hserves

/-! ## A clone whose source overwrites -/

namespace Overwrite

def spec (policy : IfDatabaseExistsPolicy) : LitestreamSpec where
  databases := [{ name := "a", path := "/data/a",
                  restore := some { replicaRef := "src", ifDatabaseExists := policy },
                  replicate := some { replicaRef := "dst" } }]

def source (policy : IfDatabaseExistsPolicy) : Restore where
  replica := fileReplica "src"
  ifDatabaseExists := policy

def db (policy : IfDatabaseExistsPolicy) : Database where
  name := "a"
  path := "/data/a"
  clone := true
  restore := some (source policy)
  replicate := some { replica := fileReplica "dst" }

def input (policy : IfDatabaseExistsPolicy) : Input := { databases := [db policy] }

/-- A name that is longer than all others. -/
def mktemp : Mktemp where
  pick _ files := String.ofList (List.replicate ((files.rows.map (·.1.length)).sum + 1) 'x')
  fresh _ files := by
    refine Option.eq_none_iff_forall_ne_some.2 fun f hf => ?_
    have hle := List.single_le_sum (fun _ _ => Nat.zero_le _) _ (List.mem_map_of_mem
      (f := fun r : String × File => r.1.length) (Table.get?_eq_some_iff.1 hf))
    simp at hle
  ending _ files := ⟨_, 'x', by rw [String.toList_ofList, List.replicate_succ'], by decide⟩

/-- Both replicas hold data, and there is no file. -/
def disk : Disk := ⟨Table.empty, fun _ => some fun _ => true⟩

theorem resolved : ∀ policy ∈ [IfDatabaseExistsPolicy.overwrite, .skip],
    (resolve .lenient (fileReplicas ["src", "dst"]) (spec policy)).toOption = some (input policy) ∧
    (validateInput (input policy)).toOption = some () ∧
    (buildCloneScript (db policy) (source policy) {} (cloneConfigFileName "a" "destination")
      (cloneConfigFileName "a" "source")).toOption.isSome = true := by
  decide +kernel

theorem built {p : IfDatabaseExistsPolicy} (hp : p ∈ [IfDatabaseExistsPolicy.overwrite, .skip]) :
    resolve .lenient (fileReplicas ["src", "dst"]) (spec p) = .ok (input p) ∧
    validateInput (input p) = .ok () ∧
    ∃ text, buildCloneScript (db p) (source p) {} (cloneConfigFileName "a" "destination")
      (cloneConfigFileName "a" "source") = .ok text := by
  obtain ⟨h1, h2, h3⟩ := resolved p hp
  exact ⟨toOption_eq_some h1, toOption_eq_some h2, _, toOption_eq_some (Option.some_get h3).symm⟩

end Overwrite

/-- With `overwrite` and data in both replicas the script leaves the database of the source. -/
theorem overwrite_not_resumes : ∃ text,
    resolve .lenient (fileReplicas ["src", "dst"]) (Overwrite.spec .overwrite) =
      .ok (Overwrite.input .overwrite) ∧
    buildCloneScript (Overwrite.db .overwrite) (Overwrite.source .overwrite) {}
      (cloneConfigFileName "a" "destination") (cloneConfigFileName "a" "source") = .ok text ∧
    ¬ Resumes Overwrite.mktemp Overwrite.disk (Overwrite.db .overwrite) text := by
  obtain ⟨hres, hval, text, htext⟩ := Overwrite.built (p := .overwrite) (by decide)
  have hpl := placed_of_resolve hres (validateInput_ok hval) List.mem_cons_self
  exact ⟨text, hres, htext, not_resumes_of_overwrite hpl (by decide) htext rfl rfl rfl rfl rfl⟩

theorem skip_resumes : ∃ text,
    buildCloneScript (Overwrite.db .skip) (Overwrite.source .skip) {}
      (cloneConfigFileName "a" "destination") (cloneConfigFileName "a" "source") = .ok text ∧
    Resumes Overwrite.mktemp Overwrite.disk (Overwrite.db .skip) text := by
  obtain ⟨hres, hval, text, htext⟩ := Overwrite.built (p := .skip) (by decide)
  exact ⟨text, htext, (resumes_iff Overwrite.mktemp Overwrite.disk hres hval List.mem_cons_self
    (by decide) htext rfl rfl rfl).2 (.inl ⟨by decide, by decide⟩)⟩

end Controller.Config
