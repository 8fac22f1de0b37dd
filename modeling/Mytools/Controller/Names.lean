import Mytools.Lib.Result
import Mytools.Lib.Text

/-!
# Names and image references

What is known of the name rules of the Kubernetes validation package, the regular expressions of
`v1alpha1/validation.go`, and the rules for image repositories. An expression is matched by the
automaton that reads it.
-/

namespace Controller

open Lib

/-- `len` of a text: its bytes. -/
def len (s : String) : Nat := s.utf8ByteSize

def isLowerAlnum (c : Char) : Bool := c.isLower || c.isDigit

/-! ## Kubernetes names -/

def LabelChar (c : Char) : Prop := isLowerAlnum c = true ∨ c = '-'

instance (c : Char) : Decidable (LabelChar c) := inferInstanceAs (Decidable (_ ∨ _))

/-- The rules of the Kubernetes validation package that the API types ask: each accepts the names
with which it reports no problem, and these have characters of the kinds below. -/
structure NameRules where
  isDNS1123Label : String → Bool
  isDNS1123Subdomain : String → Bool
  isConfigMapKey : String → Bool
  label_chars : ∀ s, isDNS1123Label s = true → ∀ c ∈ s.toList, LabelChar c
  subdomain_chars : ∀ s, isDNS1123Subdomain s = true → ∀ c ∈ s.toList, LabelChar c ∨ c = '.'
  key_chars : ∀ s, isConfigMapKey s = true →
    ∀ c ∈ s.toList, c.isAlphanum = true ∨ c ∈ ['-', '.', '_']

/-! ## Expressions -/

/-- `permissionModePattern`: `^0[0-7]{3}$` -/
def matchesPermissionMode (s : String) : Bool :=
  match s.toList with
  | '0' :: cs => cs.length == 3 && cs.all fun c => '0' ≤ c && c ≤ '7'
  | _ => false

/-- `imageDigestPattern`: `^sha256:[a-f0-9]{64}$` -/
def matchesImageDigest (s : String) : Bool :=
  hasPrefix s "sha256:" && (s.toList.drop 7).length == 64 &&
    (s.toList.drop 7).all fun c => c.isDigit || ('a' ≤ c && c ≤ 'f')

/-- `imageTagPattern`: `^[A-Za-z0-9_][A-Za-z0-9_.-]{0,127}$` -/
def matchesImageTag (s : String) : Bool :=
  match s.toList with
  | c :: cs => (c.isAlphanum || c == '_') && cs.length ≤ 127 &&
      cs.all fun c => c.isAlphanum || c == '_' || c == '.' || c == '-'
  | [] => false

/-- `imageRegistryComponentPattern`: `^[a-z0-9](?:[a-z0-9-]*[a-z0-9])?$` -/
def matchesRegistryComponent (cs : List Char) : Bool :=
  cs.all (fun c => isLowerAlnum c || c == '-') && cs.head?.any isLowerAlnum &&
    cs.getLast?.any isLowerAlnum

/-- `txIDPattern`: `^[0-9a-fA-F]+$` -/
def matchesTxID (s : String) : Bool :=
  s ≠ "" && s.toList.all fun c => c.isDigit || ('a' ≤ c && c ≤ 'f') || ('A' ≤ c && c ≤ 'F')

/-- What the last characters of a repository component were. -/
inductive ComponentState where
  | start | alnum | separator | underscore | dashes
  deriving DecidableEq, Repr

def ComponentState.next : ComponentState → Char → Option ComponentState
  | s, c =>
    if isLowerAlnum c then some .alnum
    else match s, c with
      | .alnum, '.' => some .separator
      | .alnum, '_' => some .underscore
      | .alnum, '-' => some .dashes
      | .underscore, '_' => some .separator
      | .dashes, '-' => some .dashes
      | _, _ => none

/-- `imageRepositoryComponentPattern`: `^[a-z0-9]+(?:(?:[._]|__|-+)[a-z0-9]+)*$` -/
def matchesRepositoryComponent (cs : List Char) : Bool :=
  cs.foldl (fun s c => s.bind (ComponentState.next · c)) (some ComponentState.start) =
    some ComponentState.alnum

/-! ## Image references -/

/-- `net.ParseIP` accepts the text. -/
abbrev ParseIP := String → Bool

inductive RepositoryErr where
  | tooLong
  | missingName
  | component (component : String)
  | portMissing
  | port (port : String)
  | host (host : String)
  deriving DecidableEq, Repr

/-- `strconv.ParseUint(port, 10, 16)` gives a positive number. -/
def validPort (port : String) : Bool :=
  port.toList.all Char.isDigit &&
    (let value := port.toList.foldl (fun n c => 10 * n + (c.toNat - 48)) 0
     0 < value && value < 65536)

def isImageRegistry (first : String) : Bool :=
  first = "localhost" || containsChar first '.' || containsChar first ':'

def validateImageHost (parseIP : ParseIP) (host : String) : Except RepositoryErr Unit :=
  if host = "localhost" ∨ parseIP host = true then .ok ()
  else require ((host.toList.splitOn '.').all matchesRegistryComponent = true) (.host host)

def validateImageRegistry (parseIP : ParseIP) (registry : String) : Except RepositoryErr Unit :=
  if containsChar registry ':' then do
    let port := afterLast registry ':'
    require (port ≠ "") .portMissing
    require (validPort port = true) (.port port)
    validateImageHost parseIP (beforeLast registry ':')
  else validateImageHost parseIP registry

/-- `ValidateImageRepository` -/
def validateImageRepository (parseIP : ParseIP) (repository : String) : Except RepositoryErr Unit :=
  if repository = "" then .ok ()
  else do
    require (len repository ≤ 255) .tooLong
    let parts := (repository.toList.splitOn '/').map String.ofList
    let first := parts.headD ""
    let components ←
      if 1 < parts.length ∧ isImageRegistry first = true then do
        validateImageRegistry parseIP first
        pure (parts.drop 1)
      else pure parts
    require (components ≠ []) .missingName
    components.forM fun c => require (matchesRepositoryComponent c.toList = true) (.component c)

/-- `repositoryHasTag`, `imageRepositoryHasTag` -/
def repositoryHasTag (repository : String) : Bool :=
  lastIndex repository '/' < lastIndex repository ':'

/-- `imageRepository`: the reference without its tag and digest. -/
def imageRepository (image : String) : String :=
  let image := String.ofList (image.toList.takeWhile (· ≠ '@'))
  if lastIndex image '/' < lastIndex image ':' then beforeLast image ':' else image

example : imageRepository "localhost:5000/litestream/litestream:0.5@sha256:ab" =
    "localhost:5000/litestream/litestream" := by decide

example : matchesRepositoryComponent "a__b-c.d".toList = true ∧
    matchesRepositoryComponent "a_-b".toList = false := by decide

end Controller
