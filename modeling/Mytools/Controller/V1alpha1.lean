import Mytools.Controller.Core
import Mytools.Controller.Names
import Mytools.Lib.Path

/-!
# The API types and their validation (`api/litestream/v1alpha1`)

The fields that rendering, injection and admission read. A string type with named constants is an
inductive type with a constructor for the other strings. `Validate` reports every violated rule
with the path of its field; of an error's text the part that the API package writes is kept.
-/

namespace Controller.V1alpha1

open Lib

/-! ## Secrets and replicas -/

structure SecretReference where
  secretKeyRef : SecretKeySelector
  deriving DecidableEq, Repr

inductive ReplicaType where
  | s3 | gcs | azure | file | nats | oss | sftp | webdav
  | other (text : String)
  deriving DecidableEq, Repr

def ReplicaType.text : ReplicaType → String
  | .s3 => "s3"
  | .gcs => "gcs"
  | .azure => "azure"
  | .file => "file"
  | .nats => "nats"
  | .oss => "oss"
  | .sftp => "sftp"
  | .webdav => "webdav"
  | .other text => text

structure S3ReplicaSpec where
  bucket : String
  path : String
  region : String := ""
  endpoint : String := ""
  forcePathStyle : Option Bool := none
  skipVerify : Option Bool := none
  accessKeyID : Option SecretReference := none
  secretAccessKey : Option SecretReference := none
  deriving DecidableEq, Repr

structure GCSReplicaSpec where
  bucket : String
  path : String
  serviceAccountJSON : Option SecretReference := none
  deriving DecidableEq, Repr

structure AzureReplicaSpec where
  accountName : String
  container : String
  path : String
  endpoint : String := ""
  accountKey : Option SecretReference := none
  deriving DecidableEq, Repr

structure FileReplicaSpec where
  path : String
  deriving DecidableEq, Repr

/-- Durations are in nanoseconds. -/
structure NATSReplicaSpec where
  url : String
  username : Option SecretReference := none
  password : Option SecretReference := none
  jwt : Option SecretReference := none
  seed : Option SecretReference := none
  creds : Option SecretReference := none
  nkey : Option SecretReference := none
  token : Option SecretReference := none
  rootCAs : List SecretReference := []
  clientCert : Option SecretReference := none
  clientKey : Option SecretReference := none
  maxReconnects : Option Int := none
  reconnectWait : Option Int := none
  timeout : Option Int := none
  deriving DecidableEq, Repr

structure OSSReplicaSpec where
  bucket : String
  path : String
  endpoint : String := ""
  region : String := ""
  accessKeyID : Option SecretReference := none
  accessKeySecret : Option SecretReference := none
  deriving DecidableEq, Repr

structure SFTPReplicaSpec where
  host : String
  user : String
  path : String
  password : Option SecretReference := none
  privateKey : Option SecretReference := none
  concurrentWrites : Option Bool := none
  deriving DecidableEq, Repr

structure WebDAVReplicaSpec where
  url : String
  path : String := ""
  username : Option SecretReference := none
  password : Option SecretReference := none
  skipVerify : Option Bool := none
  deriving DecidableEq, Repr

/-- A tagged union: exactly one backend is to be set, the one of the type. -/
structure ReplicaSpec where
  type : ReplicaType
  s3 : Option S3ReplicaSpec := none
  gcs : Option GCSReplicaSpec := none
  azure : Option AzureReplicaSpec := none
  file : Option FileReplicaSpec := none
  nats : Option NATSReplicaSpec := none
  oss : Option OSSReplicaSpec := none
  sftp : Option SFTPReplicaSpec := none
  webdav : Option WebDAVReplicaSpec := none
  deriving DecidableEq, Repr

/-! ## The Litestream resource -/

inductive ClonePolicy where
  | unset | resumeOrCreate | requireEmpty
  | other (text : String)
  deriving DecidableEq, Repr

inductive IfDatabaseExistsPolicy where
  | unset | skip | fail | overwrite
  | other (text : String)
  deriving DecidableEq, Repr

inductive IfReplicaMissingPolicy where
  | unset | skip | fail
  | other (text : String)
  deriving DecidableEq, Repr

inductive IntegrityCheck where
  | unset | none | quick | full
  | other (text : String)
  deriving DecidableEq, Repr

def IntegrityCheck.text : IntegrityCheck → String
  | .unset => ""
  | .none => "none"
  | .quick => "quick"
  | .full => "full"
  | .other text => text

structure RestoreSpec where
  replicaRef : String
  ifDatabaseExists : IfDatabaseExistsPolicy := .unset
  ifReplicaMissing : IfReplicaMissingPolicy := .unset
  integrityCheck : IntegrityCheck := .unset
  timestamp : String := ""
  txID : String := ""
  deriving DecidableEq, Repr

structure ReplicateSpec where
  replicaRef : String
  /-- Nanoseconds. -/
  syncInterval : Int := 0
  autoRecover : Bool := false
  deriving DecidableEq, Repr

structure DatabaseBinding where
  name : String
  path : String
  clonePolicy : ClonePolicy := .unset
  restore : Option RestoreSpec := none
  replicate : Option ReplicateSpec := none
  deriving DecidableEq, Repr

structure ImageSpec where
  repository : String := ""
  tag : String := ""
  digest : String := ""
  pullPolicy : String := ""
  deriving DecidableEq, Repr

structure PermissionsSpec where
  directoryMode : String := ""
  databaseMode : String := ""
  deriving DecidableEq, Repr

structure InjectionSpec where
  targetContainer : String := ""
  volume : String := ""
  extraVolumeMounts : List VolumeMount := []
  resources : Rest := []
  podSecurityContext : Option PodSecurityContext := none
  containerSecurityContext : Option SecurityContext := none
  permissions : PermissionsSpec := {}
  deriving DecidableEq, Repr

structure LitestreamSpec where
  image : ImageSpec := {}
  injection : InjectionSpec := {}
  databases : List DatabaseBinding
  deriving DecidableEq, Repr

structure Condition where
  type : String
  status : Bool
  observedGeneration : Int := 0
  deriving DecidableEq, Repr

structure LitestreamStatus where
  configMapName : String := ""
  configHash : String := ""
  conditions : List Condition := []
  deriving DecidableEq, Repr

/-- A resource is stored under its name. -/
structure Litestream where
  uid : String := ""
  generation : Int := 0
  spec : LitestreamSpec
  status : LitestreamStatus := {}
  deriving DecidableEq, Repr

/-! ## Field errors -/

inductive ErrorType where
  | required | invalid | duplicate | forbidden
  deriving DecidableEq, Repr

structure FieldError where
  type : ErrorType
  field : String
  detail : String
  deriving DecidableEq, Repr

/-- `field.Path.Child` -/
def child (path name : String) : String := path ++ "." ++ name

/-- `field.Path.Index` -/
def index (path : String) (i : Nat) : String := path ++ "[" ++ toString i ++ "]"

/-- An error unless the rule holds. -/
def rule (p : Prop) [Decidable p] (type : ErrorType) (field detail : String) : List FieldError :=
  if p then [] else [⟨type, field, detail⟩]

@[simp] theorem rule_eq_nil {p : Prop} [Decidable p] {type : ErrorType} {field detail : String} :
    rule p type field detail = [] ↔ p := by
  unfold rule
  split <;> simp [*]

/-! ## Replicas -/

/-- What the rules ask of libraries: the name rules, and whether `time.Parse(time.RFC3339, ·)` and
`net.ParseIP` accept a text. -/
structure Parsers extends NameRules where
  rfc3339 : String → Bool
  ip : ParseIP

/-- Libraries that look at the characters of a name only. -/
def Parsers.lenient : Parsers where
  isDNS1123Label s := s.toList.all fun c => LabelChar c
  isDNS1123Subdomain s := s.toList.all fun c => LabelChar c ∨ c = '.'
  isConfigMapKey s := s.toList.all fun c => c.isAlphanum = true ∨ c ∈ ['-', '.', '_']
  label_chars _ h c hc := of_decide_eq_true (List.all_eq_true.1 h c hc)
  subdomain_chars _ h c hc := of_decide_eq_true (List.all_eq_true.1 h c hc)
  key_chars _ h c hc := of_decide_eq_true (List.all_eq_true.1 h c hc)
  rfc3339 _ := true
  ip _ := true

variable (P : Parsers)

/-- `validateSecretValue` -/
def validateSecretValue (secret : SecretReference) (path : String) : List FieldError :=
  (if secret.secretKeyRef.name = "" then
    [⟨.required, child path "secretKeyRef.name", "secret name is required"⟩]
  else rule (P.isDNS1123Subdomain secret.secretKeyRef.name = true) .invalid
    (child path "secretKeyRef.name") "") ++
  (if secret.secretKeyRef.key = "" then
    [⟨.required, child path "secretKeyRef.key", "secret key is required"⟩]
  else rule (P.isConfigMapKey secret.secretKeyRef.key = true) .invalid
    (child path "secretKeyRef.key") "")

/-- `validateSecretReference`, `validateFileSecretValue`: the two differ in their message. -/
def validateReference (backed : String) (secret : SecretReference) (path : String) :
    List FieldError :=
  validateSecretValue P secret path ++
    rule (secret.secretKeyRef.optional ≠ some true) .forbidden (child path "secretKeyRef.optional")
      ("optional " ++ backed ++
        "-backed Secret references are not supported; omit the reference instead")

def validateSecretReference (secret : Option SecretReference) (path : String) : List FieldError :=
  secret.elim [] (validateReference P "environment" · path)

def validateFileSecretValue (secret : SecretReference) (path : String) : List FieldError :=
  validateReference P "file" secret path

def validateFileSecretReference (secret : Option SecretReference) (path : String) :
    List FieldError :=
  secret.elim [] (validateFileSecretValue P · path)

def validateRequiredString (value path : String) : List FieldError :=
  rule (trimSpace value ≠ "") .required path "value is required"

def validateS3Secrets (spec : S3ReplicaSpec) (path : String) : List FieldError :=
  validateSecretReference P spec.accessKeyID (child path "credentials.accessKeyID") ++
    validateSecretReference P spec.secretAccessKey (child path "credentials.secretAccessKey")

def validateGCSSecrets (spec : GCSReplicaSpec) (path : String) : List FieldError :=
  validateFileSecretReference P spec.serviceAccountJSON (child path "serviceAccountJSON")

def validateAzureSecrets (spec : AzureReplicaSpec) (path : String) : List FieldError :=
  validateSecretReference P spec.accountKey (child path "accountKey")

/-- Two fields that are set together; the one that is missing is named. -/
def together {α β : Type} (a : Option α) (b : Option β) (path nameA nameB detail : String) :
    List FieldError :=
  rule (a.isSome = b.isSome) .required (child path (if a.isNone then nameA else nameB)) detail

/-- Every mechanism after the first that is configured is reported. -/
def exclusive (path : String) : Bool → List (String × Bool) → List FieldError
  | _, [] => []
  | seen, (name, configured) :: ms =>
    if configured then
      rule (seen = false) .invalid (child path name)
        "authentication mechanisms are mutually exclusive" ++ exclusive path true ms
    else exclusive path seen ms

def validateNATSSecrets (spec : NATSReplicaSpec) (path : String) : List FieldError :=
  validateSecretReference P spec.username (child path "username") ++
  validateSecretReference P spec.password (child path "password") ++
  validateSecretReference P spec.jwt (child path "jwt") ++
  validateSecretReference P spec.seed (child path "seed") ++
  validateSecretReference P spec.nkey (child path "nkey") ++
  validateSecretReference P spec.token (child path "token") ++
  validateFileSecretReference P spec.creds (child path "creds") ++
  validateFileSecretReference P spec.clientCert (child path "clientCert") ++
  validateFileSecretReference P spec.clientKey (child path "clientKey") ++
  (spec.rootCAs.zipIdx.flatMap fun (ca, i) =>
    validateFileSecretValue P ca (index (child path "rootCAs") i)) ++
  together spec.username spec.password path "username" "password"
    "username and password must be configured together" ++
  together spec.jwt spec.seed path "jwt" "seed" "jwt and seed must be configured together" ++
  together spec.clientCert spec.clientKey path "clientCert" "clientKey"
    "client certificate and key must be configured together" ++
  exclusive path false [("username", spec.username.isSome), ("jwt", spec.jwt.isSome),
    ("creds", spec.creds.isSome), ("nkey", spec.nkey.isSome), ("token", spec.token.isSome)] ++
  rule (∀ n ∈ spec.maxReconnects, -1 ≤ n) .invalid (child path "maxReconnects")
    "must be -1 or greater" ++
  rule (∀ d ∈ spec.reconnectWait, 0 < d) .invalid (child path "reconnectWait")
    "must be greater than zero" ++
  rule (∀ d ∈ spec.timeout, 0 < d) .invalid (child path "timeout") "must be greater than zero"

def validateOSSSecrets (spec : OSSReplicaSpec) (path : String) : List FieldError :=
  validateSecretReference P spec.accessKeyID (child path "accessKeyID") ++
    validateSecretReference P spec.accessKeySecret (child path "accessKeySecret")

def validateSFTPSecrets (spec : SFTPReplicaSpec) (path : String) : List FieldError :=
  validateSecretReference P spec.password (child path "password") ++
    validateFileSecretReference P spec.privateKey (child path "privateKey")

def validateWebDAVSecrets (spec : WebDAVReplicaSpec) (path : String) : List FieldError :=
  validateSecretReference P spec.username (child path "username") ++
    validateSecretReference P spec.password (child path "password")

namespace ReplicaSpec

def configuredBackends (r : ReplicaSpec) : Nat :=
  [r.s3.isSome, r.gcs.isSome, r.azure.isSome, r.file.isSome, r.nats.isSome, r.oss.isSome,
    r.sftp.isSome, r.webdav.isSome].count true

def hasBackendForType (r : ReplicaSpec) : Bool :=
  match r.type with
  | .s3 => r.s3.isSome
  | .gcs => r.gcs.isSome
  | .azure => r.azure.isSome
  | .file => r.file.isSome
  | .nats => r.nats.isSome
  | .oss => r.oss.isSome
  | .sftp => r.sftp.isSome
  | .webdav => r.webdav.isSome
  | .other _ => false

/-- The rules for the backend of the type. -/
def validateBackend (r : ReplicaSpec) (path : String) : List FieldError :=
  match r.type with
  | .s3 => r.s3.elim [] fun s =>
    validateRequiredString s.bucket (child path "s3.bucket") ++
      validateRequiredString s.path (child path "s3.path") ++
      validateS3Secrets P s (child path "s3")
  | .gcs => r.gcs.elim [] fun s =>
    validateRequiredString s.bucket (child path "gcs.bucket") ++
      validateRequiredString s.path (child path "gcs.path") ++
      validateGCSSecrets P s (child path "gcs")
  | .azure => r.azure.elim [] fun s =>
    validateRequiredString s.accountName (child path "azure.accountName") ++
      validateRequiredString s.container (child path "azure.container") ++
      validateRequiredString s.path (child path "azure.path") ++
      validateAzureSecrets P s (child path "azure")
  | .file => r.file.elim [] fun s => validateRequiredString s.path (child path "file.path")
  | .nats => r.nats.elim [] fun s =>
    validateRequiredString s.url (child path "nats.url") ++
      validateNATSSecrets P s (child path "nats")
  | .oss => r.oss.elim [] fun s =>
    validateRequiredString s.bucket (child path "oss.bucket") ++
      validateRequiredString s.path (child path "oss.path") ++
      validateOSSSecrets P s (child path "oss")
  | .sftp => r.sftp.elim [] fun s =>
    validateRequiredString s.host (child path "sftp.host") ++
      validateRequiredString s.user (child path "sftp.user") ++
      validateRequiredString s.path (child path "sftp.path") ++
      validateSFTPSecrets P s (child path "sftp")
  | .webdav => r.webdav.elim [] fun s =>
    validateRequiredString s.url (child path "webdav.url") ++
      validateWebDAVSecrets P s (child path "webdav")
  | .other _ => []

/-- `ReplicaSpec.Validate` -/
def validate (r : ReplicaSpec) (path : String) : List FieldError :=
  if r.configuredBackends ≠ 1 ∨ r.hasBackendForType = false then
    [⟨.invalid, path, "exactly one backend must be configured and match type"⟩]
  else r.validateBackend P path

end ReplicaSpec

/-! ## The Litestream spec -/

def validateImage (image : ImageSpec) (path : String) : List FieldError :=
  if image.repository = "" ∧ image.tag = "" ∧ image.digest = "" then []
  else
    (if image.digest = "" then
      [⟨.invalid, path, "image overrides must include an immutable sha256 digest"⟩]
    else rule (matchesImageDigest image.digest = true) .invalid (child path "digest")
      "must be a sha256 digest with 64 lowercase hexadecimal characters") ++
    (if image.tag = "" then []
    else if image.digest = "" then
      [⟨.forbidden, child path "tag", "a tag requires an immutable sha256 digest"⟩]
    else rule (matchesImageTag image.tag = true) .invalid (child path "tag")
      "must be a valid image tag") ++
    (if containsChar image.repository '@' then
      [⟨.invalid, child path "repository", "repository must not include a digest"⟩]
    else if repositoryHasTag image.repository then
      [⟨.invalid, child path "repository", "repository must not include a tag; use digest"⟩]
    else rule (validateImageRepository P.ip image.repository = .ok ()) .invalid
      (child path "repository") "must be a valid container image repository")

def validatePermissionMode (mode path : String) : List FieldError :=
  rule (mode = "" ∨ matchesPermissionMode mode = true) .invalid path
    "must be an octal permission string"

def validateLocalObjectReference (name path : String) : List FieldError :=
  if name = "" then [⟨.required, child path "name", "name is required"⟩]
  else rule (P.isDNS1123Subdomain name = true) .invalid (child path "name") ""

def maxDatabaseNameLength : Nat := 44

namespace DatabaseBinding

def validateName (d : DatabaseBinding) (path : String) (names : List String) : List FieldError :=
  if d.name = "" then [⟨.required, child path "name", "name is required"⟩]
  else
    rule (len d.name ≤ maxDatabaseNameLength) .invalid (child path "name")
      "must be at most 44 characters because it forms an init container name" ++
    rule (P.isDNS1123Label d.name = true) .invalid (child path "name")
      "must be a lowercase DNS label: " ++
    rule (d.name ∉ names) .duplicate (child path "name") ""

/-- The path is non-empty, absolute and clean. -/
def pathOk (d : DatabaseBinding) : Prop :=
  d.path ≠ "" ∧ Path.isAbs d.path = true ∧ Path.clean d.path = d.path

instance (d : DatabaseBinding) : Decidable d.pathOk := inferInstanceAs (Decidable (_ ∧ _ ∧ _))

def validatePath (d : DatabaseBinding) (path : String) (paths : List String) : List FieldError :=
  if d.pathOk then rule (d.path ∉ paths) .duplicate (child path "path") ""
  else [⟨.invalid, child path "path", "must be a non-empty absolute clean path"⟩]

def validateRestore (r : RestoreSpec) (path : String) : List FieldError :=
  validateLocalObjectReference P r.replicaRef (child path "replicaRef") ++
  rule (r.timestamp = "" ∨ r.txID = "") .forbidden path
    "timestamp and txid are mutually exclusive" ++
  rule (r.timestamp = "" ∨ P.rfc3339 r.timestamp = true) .invalid (child path "timestamp")
    "must be an RFC3339 timestamp" ++
  rule (r.txID = "" ∨ matchesTxID r.txID = true) .invalid (child path "txid")
    "must contain only hexadecimal characters"

def validateReplicate (r : ReplicateSpec) (path : String) : List FieldError :=
  rule (0 ≤ r.syncInterval) .invalid (child path "syncInterval") "must be non-negative" ++
    validateLocalObjectReference P r.replicaRef (child path "replicaRef")

/-- `DatabaseBinding.validate`, given the names and paths of the bindings before this one. -/
def validate (d : DatabaseBinding) (path : String) (names paths : List String) :
    List FieldError :=
  d.validateName P path names ++ d.validatePath path paths ++
  rule (d.restore ≠ none ∨ d.replicate ≠ none) .required path "restore or replicate is required" ++
  rule (d.clonePolicy = .unset ∨ d.restore ≠ none ∧ d.replicate ≠ none) .required
    (child path "restore") "restore and replicate are required when clonePolicy is set" ++
  rule (∀ s ∈ d.restore, ∀ t ∈ d.replicate, s.replicaRef = t.replicaRef → d.clonePolicy = .unset)
    .forbidden (child path "clonePolicy")
    "must be empty when restore and replicate reference the same replica" ++
  d.restore.elim [] (validateRestore P · (child path "restore")) ++
  d.replicate.elim [] (validateReplicate P · (child path "replicate"))

end DatabaseBinding

namespace LitestreamSpec

/-- The bindings in order, each with the names and the clean paths that were seen before it. -/
def validateDatabases : Nat → List String → List String → List DatabaseBinding → List FieldError
  | _, _, _, [] => []
  | i, names, paths, d :: ds =>
    d.validate P (index "spec.databases" i) names paths ++
      validateDatabases (i + 1) (if d.name = "" then names else d.name :: names)
        (if d.pathOk then d.path :: paths else paths) ds

/-- `LitestreamSpec.Validate` -/
def validate (s : LitestreamSpec) : List FieldError :=
  rule (s.databases ≠ []) .required "spec.databases" "at least one database is required" ++
  validateImage P s.image "spec.image" ++
  validateDatabases P 0 [] [] s.databases ++
  validatePermissionMode s.injection.permissions.directoryMode
    "spec.injection.permissions.directoryMode" ++
  validatePermissionMode s.injection.permissions.databaseMode
    "spec.injection.permissions.databaseMode"

end LitestreamSpec

end Controller.V1alpha1
