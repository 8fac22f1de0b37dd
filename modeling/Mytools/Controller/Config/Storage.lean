import Mathlib.Logic.Function.Basic
import Mytools.Controller.Config.Command
import Mytools.Lib.Crash
import Mytools.Lib.Path

/-!
# What the programs of a restore may leave

The files around a database while a restore script is at work, and all that the programs that it
calls may do to them: succeed, fail, or be killed at any point. A file is known by the elements of
its clean path; there are no symbolic links. A rename is atomic.

`served` and `renamed` record what no later step can tell from the files: the outputs of the
restores that have succeeded, and the targets of the renames.
-/

namespace Controller.Config

open Lib Shell

inductive Node where
  | file (bytes : List UInt8)
  /-- A directory or another thing without a content of its own. -/
  | other
  deriving DecidableEq, Repr

abbrev Entry := List (List Char)

structure Storage where
  nodes : Entry → Option Node
  served : List (List UInt8) := []
  renamed : List Entry := []

namespace Storage

variable (v : Storage)

def put (k : Entry) (n : Option Node) : Storage := { v with nodes := Function.update v.nodes k n }

def rename (source target : Entry) : Storage :=
  { v with
    nodes := Function.update (Function.update v.nodes target (v.nodes source)) source none
    renamed := target :: v.renamed }

/-- No file but those of `ks` is another one, and no rename was made. -/
structure Beside (ks : List Entry) (v v' : Storage) : Prop where
  nodes : ∀ k, k ∉ ks → v'.nodes k = v.nodes k
  renamed : v'.renamed = v.renamed

/-- `litestream restore` with an output of its own. Killed or failed, it may have left anything in
it. If it succeeds, the output is the complete database; with an empty replica there is none. -/
def restores (output : Entry) : Ending Storage → Prop
  | .killed v' => Beside [output] v v' ∧ v'.served = v.served
  | .ended e => Beside [output] v e.world ∧
    if e.status = 0 then
      (∃ bytes, bytes ≠ [] ∧ e.world.nodes output = some (.file bytes) ∧
        e.world.served = bytes :: v.served) ∨
      ((e.world.nodes output = none ∨ e.world.nodes output = some (.file [])) ∧
        e.world.served = v.served)
    else e.world.served = v.served

/-- The names that `mktemp` may draw: letters and digits for the six `X`s. -/
def Drawn (template path : String) : Prop :=
  ∃ base six, template = base ++ "XXXXXX" ∧ path = base ++ six ∧ six.toList.length = 6 ∧
    six.toList.all Char.isAlphanum = true

/-- An empty file with a name that is drawn and was not taken. -/
def Created (template path : String) (v' : Storage) : Prop :=
  Drawn template path ∧ v.nodes (Path.elements path) = none ∧
    v' = v.put (Path.elements path) (some (.file []))

def creates (template : String) : Ending Storage → Prop
  | .killed v' => v' = v ∨ ∃ path, v.Created template path v'
  | .ended e =>
    if e.status = 0 then ∃ path, v.Created template path e.world ∧ e.out = [(1, path), (1, "\n")]
    else e.world = v ∨ ∃ path, v.Created template path e.world

/-- A program that only looks; `b` is what its success says. -/
def looks (b : Prop) : Ending Storage → Prop
  | .killed v' => v' = v
  | .ended e => e.world = v ∧ (e.status = 0 → b)

def Filled (k : Entry) : Prop := v.nodes k ≠ none ∧ v.nodes k ≠ some (.file [])

/-- A rename needs a source, and another file or nothing as its target. -/
def Moved (source target : Entry) (v' : Storage) : Prop :=
  source ≠ target ∧ v.nodes source ≠ none ∧ v' = v.rename source target

def moves (source target : Entry) : Ending Storage → Prop
  | .killed v' => v' = v ∨ v.Moved source target v'
  | .ended e => v.Moved source target e.world ∨ (e.world = v ∧ e.status ≠ 0)

/-- Some of the files are removed. -/
def Removed (ks : List Entry) (v' : Storage) : Prop :=
  Beside ks v v' ∧ (∀ k ∈ ks, v'.nodes k = v.nodes k ∨ v'.nodes k = none) ∧ v'.served = v.served

def removes (ks : List Entry) : Ending Storage → Prop
  | .killed v' => v.Removed ks v'
  | .ended e => v.Removed ks e.world ∧ (e.status = 0 → ∀ k ∈ ks, e.world.nodes k = none)

/-- The programs of the container. What the scripts do not call may do anything, and so may a
restore without an output of its own and a rename to a directory. -/
def behaves : Behaviour Storage
  | "litestream" :: args, _, v => match RestoreArgs.ofCall args with
    | some a => if a.output = "" ∨ a.dryRun then fun _ => True
        else v.restores (Path.elements a.output)
    | none => fun _ => True
  | ["mktemp", template], _, v => v.creates template
  | ["[", "-s", path, "]"], _, v => v.looks (v.Filled (Path.elements path))
  | ["[", "-e", path, "]"], _, v => v.looks (v.nodes (Path.elements path) ≠ none)
  | ["mv", source, target], _, v =>
    if v.nodes (Path.elements target) = some .other then fun _ => True
    else v.moves (Path.elements source) (Path.elements target)
  | "rm" :: "-f" :: paths, _, v => v.removes (paths.map Path.elements)
  | ["chmod", _, _], _, v => v.looks True
  | "echo" :: _, _, v => v.looks True
  | _, _, _ => fun _ => True

end Storage

end Controller.Config
