import Mytools.Lib.Path

/-!
# From SARIF to Code Quality (`cmd/sarif-to-codequality`)

`convert` makes an issue of every result that has a location. The fingerprint of an issue is the
digest of the rule, the URI of the file and the message, joined by colons. `sha256` stands for the
digest of a text in hexadecimal.
-/

namespace Sarif

open Lib

/-! ## Reports -/

structure Region where
  startLine : Int
  deriving DecidableEq, Repr

/-- A location, with the URI of its artifact. -/
structure SARIFLocation where
  uri : String
  region : Region
  deriving DecidableEq, Repr

/-- A result, with the text of its message. -/
structure Result where
  ruleID : String
  message : String
  level : String := ""
  locations : List SARIFLocation := []
  deriving DecidableEq, Repr

structure SARIFRun where
  results : List Result
  deriving DecidableEq, Repr

structure Report where
  runs : List SARIFRun
  deriving DecidableEq, Repr

/-! ## Issues -/

/-- The location of an issue: a path, and the line at which it begins. -/
structure Location where
  path : String
  begin : Int
  deriving DecidableEq, Repr

structure Issue where
  checkName : String
  description : String
  fingerprint : String
  severity : String
  location : Location
  deriving DecidableEq, Repr

/-- What `GenerateFingerprint` writes into the hash. -/
def hashed (ruleID path message : String) : String := ruleID ++ ":" ++ path ++ ":" ++ message

def generateFingerprint (sha256 : String → String) (ruleID path message : String) : String :=
  sha256 (hashed ruleID path message)

/-- The elements of two paths without those that they begin with together. -/
def dropCommon : (base targ : List (List Char)) → List (List Char) × List (List Char)
  | b :: base, t :: targ => if b = t then dropCommon base targ else (b :: base, t :: targ)
  | base, targ => (base, targ)

/-- `filepath.Rel` to an absolute path. -/
def rel (basepath targpath : String) : Option String :=
  if Path.clean targpath = Path.clean basepath then some "."
  else if Path.isAbs basepath = false then none
  else
    let (base, targ) := dropCommon (Path.elements basepath) (Path.elements targpath)
    some (String.ofList (['/'].intercalate (List.replicate base.length ['.', '.'] ++ targ)))

def convertPath (path baseDir : String) : String :=
  let path := trimPrefix path "file://"
  if Path.isAbs path = false then path
  else
    match rel baseDir path with
    | none => path
    | some rel => if hasPrefix rel ".." then path else rel

def convertSeverity (level : String) : String :=
  if level = "error" then "critical"
  else if level = "warning" then "major"
  else if level = "note" then "minor"
  else "info"

/-- The issue of a result with its first location. -/
def issue (sha256 : String → String) (baseDir : String) (res : Result) (loc : SARIFLocation) :
    Issue where
  checkName := res.ruleID
  description := res.message
  fingerprint := generateFingerprint sha256 res.ruleID loc.uri res.message
  severity := convertSeverity res.level
  location := { path := convertPath loc.uri baseDir, begin := loc.region.startLine }

def convert (sha256 : String → String) (report : Report) (baseDir : String) : List Issue :=
  report.runs.flatMap fun run => run.results.filterMap fun res =>
    match res.locations with
    | [] => none
    | loc :: _ => some (issue sha256 baseDir res loc)

end Sarif
