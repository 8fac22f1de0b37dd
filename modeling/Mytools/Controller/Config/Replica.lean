import Mathlib.Data.List.Sort
import Mytools.Controller.Config.Input

/-!
# Credentials and replica sections (`litestreamconfig/credentials.go`, `replicas.go`)

A replica is rendered for one database in one role. Each field that a Secret backs leaves a binding
and a placeholder: a builder function returns the text for the YAML document and the bindings it
adds. Database names are lower-case labels, so `ToUpper` changes ASCII letters only.
-/

namespace Controller.Config

open Lib V1alpha1

/-! ## Bindings -/

structure CredentialBinding where
  containerPurpose : String
  envName : String := ""
  secretKeyRef : SecretKeySelector
  fileMountPath : String := ""
  deriving DecidableEq, Repr

def secretMountDir : String := "/etc/litestream-secrets"

/-- `ReplicateContainerPurpose` -/
def replicateContainerPurpose : String := "replicate"

/-- `RestoreContainerPurpose` -/
def restoreContainerPurpose (databaseName : String) : String := "restore-" ++ databaseName

inductive Role where
  | source | destination
  deriving DecidableEq, Repr

def Role.text : Role → String
  | .source => "SRC"
  | .destination => "DEST"

def toUpper (s : String) : String := String.ofList (s.toList.map Char.toUpper)

def toLower (s : String) : String := String.ofList (s.toList.map Char.toLower)

/-- Upper-case letters and digits are kept, every other character becomes an underscore. -/
def sanitizeChar (c : Char) : Char := if c.isUpper || c.isDigit then c else '_'

def sanitizeIdentifier (s : String) : String :=
  String.ofList (s.toList.map fun c => sanitizeChar c.toUpper)

def envName (databaseName : String) (role : Role) (backend field : String) : String :=
  "LS_" ++ sanitizeIdentifier databaseName ++ "_" ++ role.text ++ "_" ++ backend ++ "_" ++ field

def fileMountPath (databaseName : String) (role : Role) (backend filename : String) : String :=
  secretMountDir ++ "/" ++
    (toLower (sanitizeIdentifier databaseName) ++ "-" ++ toLower role.text) ++ "/" ++
    toLower backend ++ "-" ++ filename

/-- What all bindings of one replica section have in common. -/
structure CredentialBuilder where
  databaseName : String
  role : Role
  backend : String
  purpose : String

namespace CredentialBuilder

variable (b : CredentialBuilder)

/-- `credentialBuilder.env` -/
def env (field : String) : Option SecretReference → String × List CredentialBinding
  | none => ("", [])
  | some ref =>
    let name := envName b.databaseName b.role b.backend field
    ("$\x7b" ++ name ++ "\x7d", [{ containerPurpose := b.purpose, envName := name,
                                   secretKeyRef := ref.secretKeyRef }])

/-- `credentialBuilder.file` -/
def file (filename : String) : Option SecretReference → String × List CredentialBinding
  | none => ("", [])
  | some ref =>
    let path := fileMountPath b.databaseName b.role b.backend filename
    (path, [{ containerPurpose := b.purpose, secretKeyRef := ref.secretKeyRef,
              fileMountPath := path }])

/-- `credentialBuilder.fileWithEnv` -/
def fileWithEnv (envVar filename : String) :
    Option SecretReference → String × List CredentialBinding
  | none => ("", [])
  | some ref =>
    let path := fileMountPath b.databaseName b.role b.backend filename
    (path, [{ containerPurpose := b.purpose, envName := envVar, secretKeyRef := ref.secretKeyRef,
              fileMountPath := path }])

/-- `credentialBuilder.fileList` -/
def fileList (filenamePrefix : String) (refs : List SecretReference) :
    List String × List CredentialBinding :=
  let files := refs.zipIdx.map fun (ref, i) =>
    b.file (filenamePrefix ++ "-" ++ toString i) (some ref)
  (files.map (·.1), files.flatMap (·.2))

end CredentialBuilder

/-- `credentialBuilder.rebind` -/
def rebind (bindings : List CredentialBinding) (purpose : String) : List CredentialBinding :=
  bindings.map fun b => { b with containerPurpose := purpose }

def optionalSortValue : Option Bool → Nat
  | none => 0
  | some false => 1
  | some true => 2

/-- The comparison of `sortCredentialBindings`. -/
def compareBindings (a b : CredentialBinding) : Ordering :=
  (compare a.containerPurpose b.containerPurpose).then <|
  (compare a.envName b.envName).then <|
  (compare a.fileMountPath b.fileMountPath).then <|
  (compare a.secretKeyRef.name b.secretKeyRef.name).then <|
  (compare a.secretKeyRef.key b.secretKeyRef.key).then <|
  compare (optionalSortValue a.secretKeyRef.optional) (optionalSortValue b.secretKeyRef.optional)

def sortCredentialBindings (bindings : List CredentialBinding) : List CredentialBinding :=
  bindings.insertionSort fun a b => compareBindings a b ≠ .gt

/-! ## Replica sections -/

/-- A replica section of the YAML document; a field without a value is left out of the text. -/
structure ReplicaYAML where
  type : String
  bucket : String := ""
  path : String := ""
  region : String := ""
  endpoint : String := ""
  forcePathStyle : Option Bool := none
  skipVerify : Option Bool := none
  accessKeyID : String := ""
  secretAccessKey : String := ""
  accountName : String := ""
  accountKey : String := ""
  host : String := ""
  user : String := ""
  password : String := ""
  keyPath : String := ""
  concurrentWrites : Option Bool := none
  webDAVURL : String := ""
  webDAVUsername : String := ""
  webDAVPassword : String := ""
  url : String := ""
  username : String := ""
  jwt : String := ""
  seed : String := ""
  creds : String := ""
  nkey : String := ""
  token : String := ""
  rootCAs : List String := []
  clientCert : String := ""
  clientKey : String := ""
  maxReconnects : Option Int := none
  reconnectWait : String := ""
  timeout : String := ""
  syncInterval : String := ""
  autoRecover : Bool := false
  deriving DecidableEq, Repr

/-- `time.Duration.String` -/
abbrev DurationString := Int → String

variable (b : CredentialBuilder)

def renderS3 (spec : S3ReplicaSpec) : ReplicaYAML × List CredentialBinding :=
  let id := b.env "ACCESS_KEY_ID" spec.accessKeyID
  let key := b.env "SECRET_ACCESS_KEY" spec.secretAccessKey
  ({ type := "s3", bucket := spec.bucket, path := spec.path, region := spec.region,
     endpoint := spec.endpoint, forcePathStyle := spec.forcePathStyle,
     skipVerify := spec.skipVerify, accessKeyID := id.1, secretAccessKey := key.1 },
    id.2 ++ key.2)

/-- The account file is no field of the section: it is found through the environment. -/
def renderGCS (spec : GCSReplicaSpec) : ReplicaYAML × List CredentialBinding :=
  let account := b.fileWithEnv "GOOGLE_APPLICATION_CREDENTIALS" "service-account.json"
    spec.serviceAccountJSON
  ({ type := "gs", bucket := spec.bucket, path := spec.path }, account.2)

def renderAzure (spec : AzureReplicaSpec) : ReplicaYAML × List CredentialBinding :=
  let key := b.env "ACCOUNT_KEY" spec.accountKey
  ({ type := "abs", accountName := spec.accountName, bucket := spec.container, path := spec.path,
     endpoint := spec.endpoint, accountKey := key.1 }, key.2)

def renderFile (spec : FileReplicaSpec) : ReplicaYAML × List CredentialBinding :=
  ({ type := "file", path := spec.path }, [])

def renderNATS (duration : DurationString) (spec : NATSReplicaSpec) :
    ReplicaYAML × List CredentialBinding :=
  let username := b.env "USERNAME" spec.username
  let password := b.env "PASSWORD" spec.password
  let jwt := b.env "JWT" spec.jwt
  let seed := b.env "SEED" spec.seed
  let nkey := b.env "NKEY" spec.nkey
  let token := b.env "TOKEN" spec.token
  let creds := b.file "creds" spec.creds
  let clientCert := b.file "client-cert" spec.clientCert
  let clientKey := b.file "client-key" spec.clientKey
  let rootCAs := b.fileList "root-ca" spec.rootCAs
  ({ type := "nats", url := spec.url, username := username.1, password := password.1,
     jwt := jwt.1, seed := seed.1, nkey := nkey.1, token := token.1, creds := creds.1,
     clientCert := clientCert.1, clientKey := clientKey.1, rootCAs := rootCAs.1,
     maxReconnects := spec.maxReconnects,
     reconnectWait := spec.reconnectWait.elim "" duration,
     timeout := spec.timeout.elim "" duration },
    username.2 ++ password.2 ++ jwt.2 ++ seed.2 ++ nkey.2 ++ token.2 ++ creds.2 ++ clientCert.2 ++
      clientKey.2 ++ rootCAs.2)

/-- The secret goes into the same field as for S3. -/
def renderOSS (spec : OSSReplicaSpec) : ReplicaYAML × List CredentialBinding :=
  let id := b.env "ACCESS_KEY_ID" spec.accessKeyID
  let key := b.env "ACCESS_KEY_SECRET" spec.accessKeySecret
  ({ type := "oss", bucket := spec.bucket, path := spec.path, endpoint := spec.endpoint,
     region := spec.region, accessKeyID := id.1, secretAccessKey := key.1 }, id.2 ++ key.2)

def renderSFTP (spec : SFTPReplicaSpec) : ReplicaYAML × List CredentialBinding :=
  let password := b.env "PASSWORD" spec.password
  let key := b.file "private-key" spec.privateKey
  ({ type := "sftp", host := spec.host, user := spec.user, path := spec.path,
     password := password.1, keyPath := key.1, concurrentWrites := spec.concurrentWrites },
    password.2 ++ key.2)

def renderWebDAV (spec : WebDAVReplicaSpec) : ReplicaYAML × List CredentialBinding :=
  let username := b.env "USERNAME" spec.username
  let password := b.env "PASSWORD" spec.password
  ({ type := "webdav", webDAVURL := spec.url, path := spec.path, webDAVUsername := username.1,
     webDAVPassword := password.1, skipVerify := spec.skipVerify }, username.2 ++ password.2)

/-- `renderReplica`: the backend of the type, which validation has made sure is set. -/
def renderReplica (duration : DurationString) (replica : ReplicaSpec) :
    ReplicaYAML × List CredentialBinding :=
  let fallback : ReplicaYAML × List CredentialBinding := ({ type := replica.type.text }, [])
  match replica.type with
  | .s3 => replica.s3.elim fallback (renderS3 b)
  | .gcs => replica.gcs.elim fallback (renderGCS b)
  | .azure => replica.azure.elim fallback (renderAzure b)
  | .file => replica.file.elim fallback renderFile
  | .nats => replica.nats.elim fallback (renderNATS b duration)
  | .oss => replica.oss.elim fallback (renderOSS b)
  | .sftp => replica.sftp.elim fallback (renderSFTP b)
  | .webdav => replica.webdav.elim fallback (renderWebDAV b)
  | .other _ => fallback

end Controller.Config
