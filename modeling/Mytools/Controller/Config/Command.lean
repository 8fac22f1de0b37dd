import Mytools.Lib.Text

/-!
# The command line of `litestream restore`

The flags that the scripts use, read as the flag package reads them: a flag with a value takes the
next argument, whatever it looks like, and the first argument that is not a flag is the path of the
database.
-/

namespace Controller.Config

open Lib

structure RestoreArgs where
  config : String := ""
  output : String := ""
  ifDatabaseNotExists : Bool := false
  ifReplicaExists : Bool := false
  force : Bool := false
  dryRun : Bool := false
  json : Bool := false
  integrityCheck : String := ""
  timestamp : String := ""
  txID : String := ""
  path : String := ""
  deriving DecidableEq, Repr

namespace RestoreArgs

/-- The flags that take no value. -/
def setSwitch (a : RestoreArgs) (flag : String) : Option RestoreArgs :=
  if flag = "-if-db-not-exists" then some { a with ifDatabaseNotExists := true }
  else if flag = "-if-replica-exists" then some { a with ifReplicaExists := true }
  else if flag = "-force" then some { a with force := true }
  else if flag = "-dry-run" then some { a with dryRun := true }
  else if flag = "-json" then some { a with json := true }
  else none

def setValue (a : RestoreArgs) (flag value : String) : Option RestoreArgs :=
  if flag = "-config" then some { a with config := value }
  else if flag = "-o" then some { a with output := value }
  else if flag = "-integrity-check" then some { a with integrityCheck := value }
  else if flag = "-timestamp" then some { a with timestamp := value }
  else if flag = "-txid" then some { a with txID := value }
  else none

/-- The arguments after `restore`; one path is expected after the flags. -/
def read (a : RestoreArgs) : List String → Option RestoreArgs
  | [] => none
  | [path] => if hasPrefix path "-" then none else some { a with path := path }
  | flag :: value :: args =>
    match a.setSwitch flag with
    | some a => read a (value :: args)
    | none => (a.setValue flag value).bind fun a => read a args

/-- A call of the program that is a restore. -/
def ofCall : List String → Option RestoreArgs
  | command :: args => if command = "restore" then read {} args else none
  | [] => none

variable {a a' : RestoreArgs} {flag value : String} {args : List String}

theorem read_switch (h : a.setSwitch flag = some a') (hne : args ≠ []) :
    read a (flag :: args) = read a' args := by
  cases args with
  | nil => exact absurd rfl hne
  | cons value args => rw [read, h]

theorem read_value (hs : a.setSwitch flag = none) (h : a.setValue flag value = some a') :
    read a (flag :: value :: args) = read a' args := by
  rw [read, hs, h]
  rfl

end RestoreArgs

end Controller.Config
