import Mytools.Controller.Config.Command
import Mytools.Lib.Exec
import Mytools.Lib.Table

/-!
# The programs that the restore scripts call

The files around the database and the replicas, as the scripts find them in an init container.
`litestream restore` first looks at its output: with `-if-db-not-exists` there is nothing to do if
it exists, with `-force` it is replaced, and without either a file in its place is an error. It then
looks at the replica: an empty one is an error, unless `-if-replica-exists` is given. The container
may change the modes of its files.

A restored database is known by the arguments of the restore that wrote it, among them the
configuration and with it the replica.
-/

namespace Controller.Config

open Lib

inductive File where
  | empty
  | restored (a : RestoreArgs)
  deriving DecidableEq, Repr

structure Disk where
  files : Table String File
  /-- By configuration: `none` for an empty replica, and otherwise the restores that it serves. -/
  replicas : String → Option (RestoreArgs → Bool)

/-- `mktemp` picks a name that is not taken; letters and digits are put for the `X`s at its end. -/
structure Mktemp where
  pick : String → Table String File → String
  fresh : ∀ (template : String) (files : Table String File),
    files.get? (pick template files) = none
  ending : ∀ (template : String) (files : Table String File),
    ∃ cs c, (pick template files).toList = cs ++ [c] ∧ c.isAlphanum

namespace Disk

abbrev Effect := Shell.Effect Disk

variable (d : Disk)

def put (path : String) (f : File) : Disk := { d with files := d.files.set path f }

def remove (path : String) : Disk := { d with files := d.files.erase path }

def present (path : String) : Bool := (d.files.get? path).isSome

/-- A file that is not of size zero. -/
def filled (path : String) : Bool :=
  match d.files.get? path with
  | some (.restored _) => true
  | _ => false

def succeed : Effect := { world := d }

def fail : Effect := { world := d, status := 1 }

/-- A test, which changes nothing. -/
def test (b : Bool) : Effect := if b then d.succeed else d.fail

/-- A restore whose output may be written. -/
def fetch (a : RestoreArgs) (output : String) : Effect :=
  match d.replicas a.config with
  | none => d.test a.ifReplicaExists
  | some serves => if serves a then (d.put output (.restored a)).succeed else d.fail

/-- A restore without `-o` goes to the path of the database. -/
def restore (a : RestoreArgs) : Effect :=
  let output := if a.output = "" then a.path else a.output
  if a.dryRun then d.succeed
  else if d.present output ∧ a.ifDatabaseNotExists then d.succeed
  else if d.present output ∧ a.force = false then d.fail
  else d.fetch a output

def mktemp (M : Mktemp) (template : String) : Effect :=
  let path := M.pick template d.files
  { world := d.put path .empty, out := [(1, path), (1, "\n")] }

def mv (path target : String) : Effect :=
  match d.files.get? path with
  | none => d.fail
  | some f => ((d.remove path).put target f).succeed

/-- The programs of the container; any other name is not found. -/
def programs (M : Mktemp) : Shell.Programs Disk
  | "litestream" :: args, _, d => match RestoreArgs.ofCall args with
    | some a => d.restore a
    | none => d.fail
  | ["mktemp", template], _, d => d.mktemp M template
  | ["[", "-e", path, "]"], _, d => d.test (d.present path)
  | ["[", "-s", path, "]"], _, d => d.test (d.filled path)
  | ["mv", path, target], _, d => d.mv path target
  | "rm" :: "-f" :: paths, _, d => (paths.foldl remove d).succeed
  | ["chmod", _, _], _, d => d.succeed
  | "echo" :: words, _, d => { world := d, out := [(1, " ".intercalate words), (1, "\n")] }
  | _, _, d => { world := d, status := 127 }

end Disk

end Controller.Config
