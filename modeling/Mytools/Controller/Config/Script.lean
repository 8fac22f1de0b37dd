import Mytools.Controller.Config.Replica
import Mytools.Lib.Shell

/-!
# Restore scripts (`litestreamconfig/policy.go`, `renderer.go`)

The flags of a restore policy and the texts of the scripts, as the renderer concatenates them.
-/

namespace Controller.Config

open Lib V1alpha1

def configMountDir : String := "/etc/litestream"

/-! ## Policies -/

structure RestorePolicy where
  ifDatabaseExists : IfDatabaseExistsPolicy
  ifReplicaMissing : IfReplicaMissingPolicy
  integrityCheck : IntegrityCheck
  timestamp : String := ""
  txID : String := ""
  deriving DecidableEq, Repr

def defaultRestorePolicy : RestorePolicy where
  ifDatabaseExists := .skip
  ifReplicaMissing := .skip
  integrityCheck := .quick

def restorePolicyFromSpec (spec : Restore) : RestorePolicy where
  ifDatabaseExists := if spec.ifDatabaseExists = .unset then .skip else spec.ifDatabaseExists
  ifReplicaMissing := if spec.ifReplicaMissing = .unset then .skip else spec.ifReplicaMissing
  integrityCheck := if spec.integrityCheck = .unset then .quick else spec.integrityCheck
  timestamp := spec.timestamp
  txID := spec.txID

def existingFlags : IfDatabaseExistsPolicy → List String
  | .overwrite => ["-force"]
  | .fail => []
  | _ => ["-if-db-not-exists"]

/-- The flags that select a point in time; the timestamp goes before the transaction. -/
def selectorFlags (timestamp txID : String) : List String :=
  if timestamp ≠ "" then ["-timestamp", timestamp]
  else if txID ≠ "" then ["-txid", txID]
  else []

def RestorePolicy.flags (p : RestorePolicy) : List String :=
  existingFlags p.ifDatabaseExists ++
  (if p.ifReplicaMissing ≠ .fail then ["-if-replica-exists"] else []) ++
  ["-integrity-check", if p.integrityCheck = .unset then "quick" else p.integrityCheck.text] ++
  selectorFlags p.timestamp p.txID

/-! ## Lines -/

inductive RenderErr where
  | input (e : InputErr)
  | unsafeArgument (text : String)
  | marshal (message : String)
  | noOperation
  deriving DecidableEq, Repr

/-- `shellQuote` -/
def shellQuote (s : String) : Except RenderErr String :=
  if s.toList.any (fun c => c = Char.ofNat 0 || c = '\n') then .error (.unsafeArgument s)
  else .ok (String.ofList (Shell.quote s.toList))

def quoteFlags : List String → Except RenderErr (List String)
  | [] => .ok []
  | flag :: flags => do
    let quoted ← shellQuote flag
    let rest ← quoteFlags flags
    pure (quoted :: rest)

def configPath (fileName : String) : String := configMountDir ++ "/" ++ fileName

/-- The lines that apply one mode, and stop the script if they cannot. -/
def chmodLine (mode path : String) : String :=
  "  if ! chmod " ++ mode ++ " " ++ path ++ "; then\n" ++
  "    echo 'error: unable to apply Litestream permissions' >&2\n" ++
  "    exit 1\n" ++
  "  fi\n"

def chmodLines (db : Database) (perms : PermissionsSpec) : Except RenderErr String := do
  if perms.databaseMode = "" ∧ perms.directoryMode = "" then pure ""
  else
    let dbPath ← shellQuote db.path
    let lines := "if [ -e " ++ dbPath ++ " ]; then\n" ++
      (if perms.databaseMode ≠ "" then chmodLine perms.databaseMode dbPath else "")
    if Path.dir db.path = "/" ∨ perms.directoryMode = "" then pure (lines ++ "fi\n")
    else
      let dir ← shellQuote (Path.dir db.path)
      pure (lines ++ chmodLine ("2" ++ String.ofList (perms.directoryMode.toList.drop 1)) dir ++
        "fi\n")

def restoreLine (flags : List String) (configFile dbPath : String) : Except RenderErr String := do
  let quotedFlags ← quoteFlags flags
  let quotedConfigFile ← shellQuote configFile
  let quotedDBPath ← shellQuote dbPath
  pure ("litestream restore " ++ " ".intercalate quotedFlags ++ " \\\n  -config " ++
    quotedConfigFile ++ " " ++ quotedDBPath ++ "\n")

/-- A restore into a temporary file, which then takes the place of the database. -/
def stagedRestoreLine (flags : List String) (configFile dbPath : String) :
    Except RenderErr String := do
  let quotedFlags ← quoteFlags flags
  let quotedConfigFile ← shellQuote configFile
  let quotedDBPath ← shellQuote dbPath
  let temporaryTemplate ← shellQuote (Path.join (Path.dir dbPath) ".litestream-restore-XXXXXX")
  let quotedWAL ← shellQuote (dbPath ++ "-wal")
  let quotedSHM ← shellQuote (dbPath ++ "-shm")
  let quotedJournal ← shellQuote (dbPath ++ "-journal")
  pure ("restore_tmp=$(mktemp " ++ temporaryTemplate ++ ")\n" ++
    "trap 'rm -f \"$restore_tmp\"' EXIT HUP INT TERM\n" ++
    "litestream restore " ++ " ".intercalate quotedFlags ++ " \\\n  -config " ++
    quotedConfigFile ++ " -o \"$restore_tmp\" " ++ quotedDBPath ++ "\n" ++
    "if [ -s \"$restore_tmp\" ]; then\n" ++
    "  mv \"$restore_tmp\" " ++ quotedDBPath ++ "\n" ++
    "  rm -f " ++ quotedWAL ++ " " ++ quotedSHM ++ " " ++ quotedJournal ++ "\n" ++
    "fi\n")

def buildRestoreLine (policy : RestorePolicy) (configFile dbPath : String) :
    Except RenderErr String :=
  if policy.ifDatabaseExists = .overwrite then stagedRestoreLine policy.flags configFile dbPath
  else restoreLine policy.flags configFile dbPath

/-! ## Scripts -/

def buildSingleRestoreScript (db : Database) (perms : PermissionsSpec) (configFileName : String)
    (policy : RestorePolicy) : Except RenderErr String := do
  let chmod ← chmodLines db perms
  let restore ← buildRestoreLine policy (configPath configFileName) db.path
  pure ("#!/bin/sh\nset -eu\n" ++ restore ++ chmod)

/-- The lines that report a problem with the destination and stop the script. -/
def refuse (problem nameArg : String) : String :=
  "  printf 'litestream: " ++ problem ++ "; require-empty policy refuses to continue\\n' " ++
    nameArg ++ " >&2\n" ++
  "  exit 1\n" ++
  "  ;;\n"

def buildRequireEmptyPreflight (databaseName destCfg dbPath : String) :
    Except RenderErr String := do
  let nameArg ← shellQuote databaseName
  pure ("restore_plan=$(litestream restore -dry-run -json -if-replica-exists -config " ++ destCfg ++
      " " ++ dbPath ++ " 2>&1) || \x7b\n" ++
    "  case \"$restore_plan\" in\n" ++
    "  *'no matching backup files available'*|*'no matching backups found'*) " ++
      "restore_plan='\x7b\"files\":[]\x7d' ;;\n" ++
    "  *)\n" ++
    refuse "unable to inspect destination replica for database %s" nameArg ++
    "  esac\n" ++
    "\x7d\n" ++
    "compact_plan=$(printf '%s' \"$restore_plan\" | tr -d '[:space:]')\n" ++
    "case \"$compact_plan\" in\n" ++
    "  *'\"files\":[]'*) ;;\n" ++
    "  *'\"files\":['*)\n" ++
    refuse "destination replica for database %s already contains data" nameArg ++
    "  *)\n" ++
    refuse "unable to inspect destination replica for database %s" nameArg ++
    "esac\n")

/-- The preflight is part of the script under the policy `require-empty` only. -/
def preflightLines (db : Database) (destCfg dbPath : String) : Except RenderErr String :=
  if db.clonePolicy = .requireEmpty then buildRequireEmptyPreflight db.name destCfg dbPath
  else .ok ""

def buildCloneScript (db : Database) (source : Restore) (perms : PermissionsSpec)
    (destFileName srcFileName : String) : Except RenderErr String := do
  let destCfg ← shellQuote (configPath destFileName)
  let dbPath ← shellQuote db.path
  let chmod ← chmodLines db perms
  let preflight ← preflightLines db destCfg dbPath
  let destinationRestore ← buildRestoreLine defaultRestorePolicy (configPath destFileName) db.path
  let sourceRestore ← buildRestoreLine (restorePolicyFromSpec source) (configPath srcFileName)
    db.path
  pure ("#!/bin/sh\nset -eu\n" ++ preflight ++ destinationRestore ++ sourceRestore ++ chmod)

end Controller.Config
