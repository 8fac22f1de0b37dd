import Mytools.Controller.V1alpha1

/-!
# The resolved input of rendering (`litestreamconfig/input.go`, `input_validation.go`, `resolver`)

`resolve` looks the replicas of every binding up; `validateInput` checks what depends on the
resolved objects. An error names the database and the field that it is about.
-/

namespace Controller.Config

open Lib V1alpha1

/-! ## Values -/

structure Restore where
  replica : ReplicaSpec
  ifDatabaseExists : IfDatabaseExistsPolicy := .unset
  ifReplicaMissing : IfReplicaMissingPolicy := .unset
  integrityCheck : IntegrityCheck := .unset
  timestamp : String := ""
  txID : String := ""
  deriving DecidableEq, Repr

structure Replicate where
  replica : ReplicaSpec
  syncInterval : Int := 0
  autoRecover : Bool := false
  deriving DecidableEq, Repr

structure Database where
  name : String
  path : String
  /-- Source and destination refer to different replicas. -/
  clone : Bool := false
  clonePolicy : ClonePolicy := .unset
  restore : Option Restore := none
  replicate : Option Replicate := none
  deriving DecidableEq, Repr

structure Input where
  image : ImageSpec := {}
  injection : InjectionSpec := {}
  databases : List Database
  deriving DecidableEq, Repr

/-! ## Resolution -/

inductive ResolveErr where
  | invalidSpec (errors : List FieldError)
  | replicaNotFound (field name : String)
  | invalidReplica (field name : String) (errors : List FieldError)
  deriving DecidableEq, Repr

/-- The LitestreamReplica resources of the namespace, by name. -/
abbrev Replicas := String → Option ReplicaSpec

/-- `Resolver.replica` -/
def Replicas.replica (P : Parsers) (R : Replicas) (name field : String) :
    Except ResolveErr ReplicaSpec :=
  match R name with
  | none => .error (.replicaNotFound field name)
  | some r =>
    if r.validate P "spec.replica" = [] then .ok r
    else .error (.invalidReplica field name (r.validate P "spec.replica"))

def restore (replica : ReplicaSpec) (policy : RestoreSpec) : Restore where
  replica := replica
  ifDatabaseExists := policy.ifDatabaseExists
  ifReplicaMissing := policy.ifReplicaMissing
  integrityCheck := policy.integrityCheck
  timestamp := policy.timestamp
  txID := policy.txID

def replicate (replica : ReplicaSpec) (spec : ReplicateSpec) : Replicate where
  replica := replica
  syncInterval := spec.syncInterval
  autoRecover := spec.autoRecover

def resolveSource (P : Parsers) (R : Replicas) (field : String) :
    Option RestoreSpec → Except ResolveErr (Option Restore)
  | none => .ok none
  | some policy => do
    let r ← R.replica P policy.replicaRef (child field "restore.replicaRef")
    pure (some (restore r policy))

def resolveDestination (P : Parsers) (R : Replicas) (field : String) :
    Option ReplicateSpec → Except ResolveErr (Option Replicate)
  | none => .ok none
  | some spec => do
    let r ← R.replica P spec.replicaRef (child field "replicate.replicaRef")
    pure (some (replicate r spec))

/-- One binding, the `i`-th of the spec. -/
def resolveBinding (P : Parsers) (R : Replicas) (i : Nat) (b : DatabaseBinding) :
    Except ResolveErr Database := do
  let source ← resolveSource P R (index "spec.databases" i) b.restore
  let destination ← resolveDestination P R (index "spec.databases" i) b.replicate
  pure { name := b.name, path := b.path, clonePolicy := b.clonePolicy, restore := source,
         replicate := destination
         clone := match b.restore, b.replicate with
           | some s, some d => s.replicaRef ≠ d.replicaRef
           | _, _ => false }

def resolveBindings (P : Parsers) (R : Replicas) :
    Nat → List DatabaseBinding → Except ResolveErr (List Database)
  | _, [] => .ok []
  | i, b :: bs => do
    let d ← resolveBinding P R i b
    let ds ← resolveBindings P R (i + 1) bs
    pure (d :: ds)

/-- `Resolver.Resolve` -/
def resolve (P : Parsers) (R : Replicas) (spec : LitestreamSpec) : Except ResolveErr Input := do
  require (spec.validate P = []) (.invalidSpec (spec.validate P))
  let databases ← resolveBindings P R 0 spec.databases
  pure { image := spec.image, injection := spec.injection, databases := databases }

/-! ## Validation -/

structure InputErr where
  database : String
  field : String
  message : String
  deriving DecidableEq, Repr

def isGCSReplica (replica : Option Replicate) : Option GCSReplicaSpec :=
  replica.bind fun r => if r.replica.type = .gcs then r.replica.gcs else none

def isGCSRestore (replica : Option Restore) : Option GCSReplicaSpec :=
  replica.bind fun r => if r.replica.type = .gcs then r.replica.gcs else none

/-- `gcsCredentialIdentity`; a NUL separates the name of the Secret from its key. -/
def gcsCredentialIdentity (spec : GCSReplicaSpec) : String :=
  match spec.serviceAccountJSON with
  | none => "ambient"
  | some ref => ref.secretKeyRef.name ++ "\x00" ++ ref.secretKeyRef.key

/-- `validateGCSCredentials`, given the identity of the first replicating GCS database so far. -/
def validateGCSCredentials : Option String → List Database → Except InputErr Unit
  | _, [] => .ok ()
  | first, d :: ds => do
    checkIf (d.clone = true) (match isGCSRestore d.restore, isGCSReplica d.replicate with
      | some s, some t => require (gcsCredentialIdentity s = gcsCredentialIdentity t)
          ⟨d.name, "replicate.replica.gcs.serviceAccountJSON",
            "clone source and destination GCS replicas must use the same serviceAccountJSON " ++
            "SecretKeyRef or both use ambient credentials"⟩
      | _, _ => .ok ())
    match isGCSReplica d.replicate with
    | none => validateGCSCredentials first ds
    | some t =>
      let credential := gcsCredentialIdentity t
      require (∀ f ∈ first, credential = f)
        ⟨d.name, "replicate.replica.gcs.serviceAccountJSON",
          "all GCS replication databases must use the same serviceAccountJSON SecretKeyRef or " ++
          "all use ambient credentials"⟩
      validateGCSCredentials (some (first.getD credential)) ds

/-- The checks of one database, given the names and the clean paths before it. -/
def validateDatabase (injection : InjectionSpec) (names paths : List String) (d : Database) :
    Except InputErr Unit := do
  require (d.name ∉ names) ⟨d.name, "name", "must be unique among resolved databases"⟩
  require (Path.clean d.path ∉ paths) ⟨d.name, "path", "must be unique among resolved databases"⟩
  require (injection.permissions.directoryMode = "" ∨ Path.dir (Path.clean d.path) ≠ "/")
    ⟨d.name, "injection.permissions.directoryMode",
      "cannot be set when the database path is directly under /"⟩
  require (d.restore ≠ none ∨ d.replicate ≠ none)
    ⟨d.name, "database", "must have a restore source or replication destination"⟩
  require (d.clone = false ∨ d.restore ≠ none ∧ d.replicate ≠ none)
    ⟨d.name, "database", "clone requires both a restore source and replication destination"⟩
  require (d.clonePolicy = .unset ∨ d.clone = true)
    ⟨d.name, "clonePolicy", "requires distinct restore source and replication destination"⟩

def validateDatabases (injection : InjectionSpec) :
    List String → List String → List Database → Except InputErr Unit
  | _, _, [] => .ok ()
  | names, paths, d :: ds => do
    validateDatabase injection names paths d
    validateDatabases injection (d.name :: names) (Path.clean d.path :: paths) ds

/-- `ValidateInput` -/
def validateInput (input : Input) : Except InputErr Unit := do
  validateDatabases input.injection [] [] input.databases
  validateGCSCredentials none input.databases

end Controller.Config
