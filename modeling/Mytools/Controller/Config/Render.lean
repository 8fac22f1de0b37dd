import Mytools.Controller.Config.Script
import Mytools.Lib.Table

/-!
# Rendering (`litestreamconfig/renderer.go`)

`render` turns a resolved input into the files of the ConfigMap and the credential bindings. Each
database contributes files, bindings and, if it replicates, an entry of `replicate.yml`; the files
of all databases go into one map, in order. YAML and SHA-256 are parameters.
-/

namespace Controller.Config

open Lib V1alpha1

/-! ## Documents -/

structure DbEntry where
  path : String
  replica : ReplicaYAML
  deriving DecidableEq, Repr

/-- The libraries that rendering calls, and the reading of a document, as Litestream reads it. -/
structure Library where
  duration : DurationString
  /-- `yaml.Marshal` of a configuration with these entries. -/
  marshal : List DbEntry → Except String String
  unmarshal : String → Option (List DbEntry)
  /-- The hexadecimal SHA-256 digest. -/
  sha256 : String → String

/-- A document that was written is read back. -/
def Library.Sound (L : Library) : Prop :=
  ∀ entries doc, L.marshal entries = .ok doc → L.unmarshal doc = some entries

structure RenderedConfig where
  data : Table String String
  credentials : List CredentialBinding
  hash : String

variable (L : Library)

def marshalConfig (entries : List DbEntry) : Except RenderErr String :=
  (L.marshal entries).mapError .marshal

/-- `formatDuration` -/
def formatDuration (d : Int) : String := if d = 0 then "" else L.duration d

def backendName (t : ReplicaType) : String := toUpper t.text

/-! ## File names -/

/-- `ReplicateConfigFile` -/
def replicateConfigFile : String := "replicate.yml"

def restoreConfigFileName (databaseName : String) : String := "restore-" ++ databaseName ++ ".yml"

def cloneConfigFileName (databaseName role : String) : String :=
  "restore-" ++ databaseName ++ "-" ++ role ++ ".yml"

/-- `RestoreScriptFileName` -/
def restoreScriptFileName (databaseName : String) : String := "restore-" ++ databaseName ++ ".sh"

/-! ## Databases -/

/-- What one database contributes. -/
structure Part where
  files : List (String × String)
  credentials : List CredentialBinding
  entry : Option DbEntry := none

def sourceReplica (db : Database) (source : Restore) : ReplicaYAML × List CredentialBinding :=
  renderReplica ⟨db.name, .source, backendName source.replica.type, restoreContainerPurpose db.name⟩
    L.duration source.replica

/-- The destination, with the settings of the replication and the sidecar's bindings. -/
def destinationReplica (db : Database) (destination : Replicate) :
    ReplicaYAML × List CredentialBinding :=
  let r := renderReplica ⟨db.name, .destination, backendName destination.replica.type,
    replicateContainerPurpose⟩ L.duration destination.replica
  ({ r.1 with syncInterval := formatDuration L destination.syncInterval,
              autoRecover := destination.autoRecover }, r.2)

def renderRestoreOnly (db : Database) (source : Restore) (perms : PermissionsSpec) :
    Except RenderErr Part := do
  let replica := sourceReplica L db source
  let doc ← marshalConfig L [⟨db.path, replica.1⟩]
  let script ← buildSingleRestoreScript db perms (restoreConfigFileName db.name)
    (restorePolicyFromSpec source)
  pure { files := [(restoreConfigFileName db.name, doc), (restoreScriptFileName db.name, script)],
         credentials := replica.2 }

/-- Without a source the destination is what the database is restored from. -/
def renderReplicate (db : Database) (source : Option Restore) (destination : Replicate)
    (perms : PermissionsSpec) : Except RenderErr Part := do
  let dest := destinationReplica L db destination
  match source with
  | some source =>
    let replica := sourceReplica L db source
    let doc ← marshalConfig L [⟨db.path, replica.1⟩]
    let script ← buildSingleRestoreScript db perms (restoreConfigFileName db.name)
      (restorePolicyFromSpec source)
    pure { files := [(restoreConfigFileName db.name, doc), (restoreScriptFileName db.name, script)],
           credentials := dest.2 ++ replica.2, entry := some ⟨db.path, dest.1⟩ }
  | none =>
    let doc ← marshalConfig L [⟨db.path, dest.1⟩]
    let script ← buildSingleRestoreScript db perms (restoreConfigFileName db.name)
      defaultRestorePolicy
    pure { files := [(restoreConfigFileName db.name, doc), (restoreScriptFileName db.name, script)],
           credentials := dest.2 ++ rebind dest.2 (restoreContainerPurpose db.name),
           entry := some ⟨db.path, dest.1⟩ }

def renderClone (db : Database) (source : Restore) (destination : Replicate)
    (perms : PermissionsSpec) : Except RenderErr Part := do
  let dest := destinationReplica L db destination
  let destDoc ← marshalConfig L [⟨db.path, dest.1⟩]
  let replica := sourceReplica L db source
  let srcDoc ← marshalConfig L [⟨db.path, replica.1⟩]
  let destFileName := cloneConfigFileName db.name "destination"
  let srcFileName := cloneConfigFileName db.name "source"
  let script ← buildCloneScript db source perms destFileName srcFileName
  pure { files := [(destFileName, destDoc), (srcFileName, srcDoc),
           (restoreScriptFileName db.name, script)],
         credentials := dest.2 ++ rebind dest.2 (restoreContainerPurpose db.name) ++ replica.2,
         entry := some ⟨db.path, dest.1⟩ }

/-- The switch of `Render`; a clone without source and destination is refused before it. -/
def renderDatabase (perms : PermissionsSpec) (db : Database) : Except RenderErr Part :=
  match db.restore, db.replicate, db.clone with
  | some source, none, _ => renderRestoreOnly L db source perms
  | source, some destination, false => renderReplicate L db source destination perms
  | some source, some destination, true => renderClone L db source destination perms
  | _, _, _ => .error .noOperation

def renderDatabases (perms : PermissionsSpec) : List Database → Except RenderErr (List Part)
  | [] => .ok []
  | d :: ds => do
    let part ← renderDatabase L perms d
    let parts ← renderDatabases perms ds
    pure (part :: parts)

/-! ## The whole input -/

/-- The writes in order; a later one replaces an earlier one under its name. -/
def writeAll (files : List (String × String)) : Table String String :=
  files.foldl (fun t f => t.set f.1 f.2) .empty

/-- The bytes that are hashed; a NUL ends each field. -/
def hashInput (data : Table String String) (credentials : List CredentialBinding) : String :=
  let field (s : String) := s ++ "\x00"
  let files := data.rows.insertionSort fun a b => compare a.1 b.1 ≠ .gt
  String.join (files.map fun f => field "data" ++ field f.1 ++ field f.2) ++
  String.join (credentials.map fun c =>
    field "credential" ++ field c.containerPurpose ++ field c.envName ++
    field c.secretKeyRef.name ++ field c.secretKeyRef.key ++
    field (match c.secretKeyRef.optional with
      | none => "optional:nil"
      | some true => "optional:true"
      | some false => "optional:false") ++
    field c.fileMountPath)

/-- `hashRenderedConfig` -/
def hashRenderedConfig (data : Table String String) (credentials : List CredentialBinding) :
    String :=
  L.sha256 (hashInput data credentials)

/-- `replicate.yml`, if there is anything to replicate. -/
def replicateFile (entries : List DbEntry) : Except RenderErr (List (String × String)) :=
  if entries = [] then .ok []
  else do
    let doc ← marshalConfig L entries
    pure [(replicateConfigFile, doc)]

/-- `Render` -/
def render (input : Input) : Except RenderErr RenderedConfig := do
  (validateInput input).mapError .input
  let parts ← renderDatabases L input.injection.permissions input.databases
  let replicate ← replicateFile L (parts.filterMap (·.entry))
  let data := writeAll (parts.flatMap (·.files) ++ replicate)
  let credentials := sortCredentialBindings (parts.flatMap (·.credentials))
  pure { data := data, credentials := credentials, hash := hashRenderedConfig L data credentials }

end Controller.Config
