import Mytools.Controller.Config.Render
import Mytools.Controller.Webhook.Target
import Mytools.Lib.Distinct

/-!
# Injection (`webhook/inject.go`)

`buildInjection` makes the fragments for one Pod from the rendered configuration; `applyInjection`
adds them. Semantic equality of objects is a parameter: a reflexive relation.
-/

namespace Controller.Webhook

open Lib Config V1alpha1

/-! ## Errors -/

inductive ImageErr where
  | noDefault
  | noDigest (image : String)
  | manyDigests (image : String)
  | tag (text : String)
  | overrideWithoutDigest
  | digest (digest : String)
  | repositoryWithTag (repository : String)
  | repository (repository : String) (e : RepositoryErr)
  deriving DecidableEq, Repr

inductive InjectErr where
  | image (e : ImageErr)
  | containerGone (container : String)
  | subPathExpr (volume : String)
  | mountGone (container volume mountPath : String)
  | extraSubPathExpr (volume : String)
  | extraGenerated (volume : String)
  | extraUndeclared (volume : String)
  | extraDuplicate (mountPath : String)
  | extraOverlapsExtra (volume mountPath other otherPath : String)
  | extraOverlapsGenerated (volume mountPath other otherPath : String)
  | ignoredFields (names : List String)
  | policyWithoutGroup
  | rootUser
  | restoreName (database container : String)
  | volumeConflict (volume : String)
  | containerConflict (container : String)
  | initContainerConflict (container : String)
  | fsGroup (current configured : Int)
  | fsGroupChangePolicy (current configured : String)
  deriving DecidableEq, Repr

/-! ## Images -/

variable (P : Parsers)

def checkRepository (repository : String) : Except ImageErr Unit :=
  (validateImageRepository P.ip repository).mapError (.repository repository)

/-- `ValidateImageReference` -/
def validateImageReference (image : String) : Except ImageErr Unit := do
  require (0 < lastIndex image '@' ∧ matchesImageDigest (afterLast image '@') = true)
    (.noDigest image)
  let repository := beforeLast image '@'
  require (containsChar repository '@' = false) (.manyDigests image)
  require (repositoryHasTag repository = true → matchesImageTag (afterLast repository ':') = true)
    (.tag image)
  checkRepository P (imageRepository repository)

def validateDefaultImage (image : String) : Except ImageErr Unit := do
  require (trimSpace image ≠ "") .noDefault
  validateImageReference P image

/-- The repository of an override, by default the one of the default image. -/
def overrideRepository (image : ImageSpec) (defaultImage : String) : Except ImageErr String :=
  if image.repository = "" then do
    validateDefaultImage P defaultImage
    pure (imageRepository defaultImage)
  else .ok image.repository

def resolveImage (image : ImageSpec) (defaultImage : String) : Except ImageErr String :=
  if image.repository = "" ∧ image.tag = "" ∧ image.digest = "" then do
    validateDefaultImage P defaultImage
    pure defaultImage
  else do
    require (image.digest ≠ "") .overrideWithoutDigest
    require (matchesImageDigest image.digest = true) (.digest image.digest)
    require (image.tag ≠ "" → matchesImageTag image.tag = true) (.tag image.tag)
    let repository ← overrideRepository P image defaultImage
    require (repository ≠ "" ∧ containsChar repository '@' = false ∧
      repositoryHasTag repository = false) (.repositoryWithTag repository)
    checkRepository P repository
    let tagged := if image.tag ≠ "" then repository ++ ":" ++ image.tag else repository
    pure (tagged ++ "@" ++ image.digest)

/-! ## Credentials -/

/-- A binding that also names a file carries the path of the file. -/
def credentialVar (binding : CredentialBinding) : EnvVar :=
  if binding.fileMountPath ≠ "" then { name := binding.envName, value := binding.fileMountPath }
  else { name := binding.envName, secretKeyRef := some binding.secretKeyRef }

def credentialEnv (bindings : List CredentialBinding) (purpose : String) : List EnvVar :=
  (distinctBy (·.envName) []
    (bindings.filter fun b => b.containerPurpose = purpose ∧ b.envName ≠ "")).map credentialVar

/-- The lines that stop a container whose variable was not set. -/
def startupCheck (envName : String) : String :=
  "if [ -z \"$\x7b" ++ envName ++ ":-\x7d\" ]; then\n" ++
  "  echo 'error: required Litestream credential " ++ envName ++ " is missing' >&2\n" ++
  "  exit 1\nfi\n"

def credentialStartupCheckCommand (command : List String) (bindings : List CredentialBinding)
    (purpose : String) : List String :=
  let envNames := (distinctBy (·.envName) [] (bindings.filter fun b =>
    b.containerPurpose = purpose ∧ b.envName ≠ "" ∧ b.fileMountPath = "")).map (·.envName)
  if envNames = [] then command
  else ["/bin/sh", "-c",
    "set -eu\n" ++ String.join (envNames.map startupCheck) ++ "exec \"$@\"\n",
    "litestream-credential-check"] ++ command

/-- The path of a binding's file in the projected volume. -/
def relativePath (binding : CredentialBinding) : String :=
  trimPrefix binding.fileMountPath (secretMountDir ++ "/")

def optionalText : Option Bool → String
  | none => ""
  | some true => "true"
  | some false => "false"

/-- What two projections that are the same have in common; a NUL separates the parts. -/
def projectionIdentity (binding : CredentialBinding) : String :=
  binding.secretKeyRef.name ++ "\x00" ++ binding.secretKeyRef.key ++ "\x00" ++
    relativePath binding ++ "\x00" ++ optionalText binding.secretKeyRef.optional

def projection (binding : CredentialBinding) : SecretProjection where
  name := binding.secretKeyRef.name
  optional := binding.secretKeyRef.optional
  items := [⟨binding.secretKeyRef.key, relativePath binding⟩]

def firstItem (p : SecretProjection) : KeyToPath := p.items.headD ⟨"", ""⟩

def compareProjections (a b : SecretProjection) : Ordering :=
  (compare a.name b.name).then <|
  (compare (firstItem a).path (firstItem b).path).then <|
  compare (firstItem a).key (firstItem b).key

/-- The bindings that are projected for a purpose, each identity once. -/
def projectedBindings (bindings : List CredentialBinding) (purpose : String) :
    List CredentialBinding :=
  distinctBy projectionIdentity []
    (bindings.filter fun b => b.containerPurpose = purpose ∧ b.fileMountPath ≠ "")

def secretProjections (bindings : List CredentialBinding) (purpose : String) :
    List SecretProjection :=
  ((projectedBindings bindings purpose).map projection).insertionSort
    fun a b => compareProjections a b ≠ .gt

/-! ## Volumes -/

/-- `ConfigVolumeName` -/
def configVolumeName : String := "litestream-config"

/-- `SecretVolumeNamePrefix` -/
def secretVolumeNamePrefix : String := "litestream-secret-"

def injectedFileMode : Nat := 0o444

def volumeNameHashLength : Nat := 16

variable (L : Library)

/-- The name is a digest of the projections; a NUL ends each part. -/
def secretVolumeName (sources : List SecretProjection) : String :=
  let field (s : String) := s ++ "\x00"
  let text := String.join (sources.map fun s =>
    field s.name ++ String.join (s.items.map fun i => field i.key ++ field i.path) ++
      field (optionalText s.optional))
  secretVolumeNamePrefix ++ String.ofList ((L.sha256 text).toList.take volumeNameHashLength)

def configVolume (configMapName : String) : Volume :=
  ⟨configVolumeName, .configMap configMapName injectedFileMode⟩

def configMount : VolumeMount :=
  { name := configVolumeName, mountPath := configMountDir, readOnly := true }

/-- The generated volumes so far, and the secret mount of each purpose. -/
structure Generated where
  volumes : List Volume
  secretMounts : List (String × VolumeMount) := []

def Generated.addSecretMount (credentials : List CredentialBinding) (g : Generated)
    (purpose : String) : Generated :=
  let sources := secretProjections credentials purpose
  if sources = [] then g
  else
    let name := secretVolumeName L sources
    { volumes := match findVolume g.volumes name with
        | none => g.volumes ++ [⟨name, .projected sources injectedFileMode⟩]
        | some _ => g.volumes
      secretMounts := g.secretMounts ++
        [(purpose, { name := name, mountPath := secretMountDir, readOnly := true })] }

def replicates (rendered : RenderedConfig) : Bool :=
  (rendered.data.get? replicateConfigFile).isSome

/-- The purposes of the containers, in order. -/
def purposes (input : Input) (rendered : RenderedConfig) : List String :=
  input.databases.map (fun d => restoreContainerPurpose d.name) ++
    if replicates rendered then [replicateContainerPurpose] else []

def generatedVolumes (input : Input) (rendered : RenderedConfig) (configMapName : String) :
    Generated :=
  (purposes input rendered).foldl (Generated.addSecretMount L rendered.credentials)
    { volumes := [configVolume configMapName] }

/-- `databaseVolumeMount`: the target's mount as the application has it, but writable. -/
def databaseVolumeMount (pod : Pod) (target : ResolvedTarget) : Except InjectErr VolumeMount :=
  match pod.containers[target.containerIndex]? with
  | none => .error (.containerGone target.containerName)
  | some c =>
    match c.volumeMounts.find? fun m =>
        m.name = target.volumeName ∧ Path.clean m.mountPath = target.mountPath with
    | none => .error (.mountGone target.containerName target.volumeName target.mountPath)
    | some m =>
      if m.subPathExpr ≠ "" then .error (.subPathExpr m.name)
      else .ok { m with mountPath := target.mountPath, readOnly := false,
                        recursiveReadOnly := none }

def mountPathsOverlap (left right : String) : Bool :=
  let left := Path.clean left
  let right := Path.clean right
  left = right || hasPrefix left (right ++ "/") || hasPrefix right (left ++ "/")

/-- No mount of the list overlaps the extra mount. -/
def checkOverlap (err : String → String → InjectErr) (extra : VolumeMount)
    (mounts : List VolumeMount) : Except InjectErr Unit :=
  mounts.forM fun m => require (mountPathsOverlap (Path.clean extra.mountPath) m.mountPath = false)
    (err m.name m.mountPath)

/-- `checkExtraVolumeMounts`, given the extra mounts that were checked before. -/
def checkExtraVolumeMounts (pod : Pod) (injected : List Volume) (generated : List VolumeMount) :
    List VolumeMount → List VolumeMount → Except InjectErr Unit
  | _, [] => .ok ()
  | seen, m :: ms => do
    require (m.subPathExpr = "") (.extraSubPathExpr m.name)
    require ((findVolume injected m.name).isNone = true) (.extraGenerated m.name)
    require ((findVolume pod.volumes m.name).isSome = true) (.extraUndeclared m.name)
    require (∀ s ∈ seen, Path.clean s.mountPath ≠ Path.clean m.mountPath)
      (.extraDuplicate m.mountPath)
    checkOverlap (.extraOverlapsExtra m.name m.mountPath) m seen
    checkOverlap (.extraOverlapsGenerated m.name m.mountPath) m generated
    checkExtraVolumeMounts pod injected generated (seen ++ [m]) ms

/-! ## Security -/

/-- Only `fsGroup` and its policy can be applied; what else is set is reported by its name. -/
def ignoredPodSecurityContextFields (configured : Option PodSecurityContext) : List String :=
  configured.elim [] fun c => c.rest.map (·.1)

def checkPodSecurityContext (configured : Option PodSecurityContext) : Except InjectErr Unit := do
  require (ignoredPodSecurityContextFields configured = [])
    (.ignoredFields (ignoredPodSecurityContextFields configured))
  require (∀ c ∈ configured, c.fsGroupChangePolicy ≠ none → c.fsGroup ≠ none) .policyWithoutGroup

def validateContainerSecurityContext (configured : Option SecurityContext) :
    Except InjectErr Unit :=
  require (∀ c ∈ configured, c.runAsUser = some 0 → c.runAsNonRoot = some false) .rootUser

def defaultLitestreamUID : Int := 65532

def defaultLitestreamGID : Int := 65532

/-- Settings that the resource does not configure get hardened values. -/
def buildContainerSecurityContext (configured : Option SecurityContext) : SecurityContext :=
  let c := configured.getD {}
  { c with runAsUser := c.runAsUser.or (some defaultLitestreamUID)
           runAsGroup := c.runAsGroup.or (some defaultLitestreamGID)
           runAsNonRoot := c.runAsNonRoot.or (some true)
           readOnlyRootFilesystem := c.readOnlyRootFilesystem.or (some true)
           allowPrivilegeEscalation := c.allowPrivilegeEscalation.or (some false)
           capabilities := c.capabilities.or (some { drop := ["ALL"] }) }

/-! ## Containers -/

/-- `RestoreContainerNamePrefix` -/
def restoreContainerNamePrefix : String := "litestream-restore-"

/-- `ReplicateContainerName` -/
def replicateContainerName : String := "litestream"

def injectedContainer (name : String) (input : Input) (image : String) (command : List String)
    (env : List EnvVar) (mounts : List VolumeMount) (restartPolicy : Option RestartPolicy) :
    Container where
  name := name
  image := image
  imagePullPolicy := input.image.pullPolicy
  command := command
  env := env
  volumeMounts := mounts
  resources := input.injection.resources
  securityContext := some (buildContainerSecurityContext input.injection.containerSecurityContext)
  restartPolicy := restartPolicy

/-- The mounts of the container of a purpose. -/
def containerMounts (input : Input) (databaseMount : VolumeMount) (g : Generated)
    (purpose : String) : List VolumeMount :=
  [configMount, databaseMount] ++ input.injection.extraVolumeMounts ++
    (g.secretMounts.lookup purpose).toList

def restoreContainerName (database : Database) : String :=
  restoreContainerNamePrefix ++ database.name

def restoreContainer (input : Input) (rendered : RenderedConfig) (image : String)
    (databaseMount : VolumeMount) (g : Generated) (database : Database) : Container :=
  let purpose := restoreContainerPurpose database.name
  injectedContainer (restoreContainerName database) input image
    (credentialStartupCheckCommand
      ["/bin/sh", Path.join configMountDir (restoreScriptFileName database.name)]
      rendered.credentials purpose)
    (credentialEnv rendered.credentials purpose) (containerMounts input databaseMount g purpose)
    none

def replicateContainer (input : Input) (rendered : RenderedConfig) (image : String)
    (databaseMount : VolumeMount) (g : Generated) : Container :=
  injectedContainer replicateContainerName input image
    (credentialStartupCheckCommand
      ["litestream", "replicate", "-config", Path.join configMountDir replicateConfigFile]
      rendered.credentials replicateContainerPurpose)
    (credentialEnv rendered.credentials replicateContainerPurpose)
    (containerMounts input databaseMount g replicateContainerPurpose) (some .always)

structure PodInjection where
  volumes : List Volume
  initContainers : List Container
  podSecurityContext : Option PodSecurityContext

def buildInjection (pod : Pod) (input : Input) (rendered : RenderedConfig)
    (target : ResolvedTarget) (configMapName defaultImage : String) :
    Except InjectErr PodInjection := do
  let image ← (resolveImage P input.image defaultImage).mapError .image
  let databaseMount ← databaseVolumeMount pod target
  let g := generatedVolumes L input rendered configMapName
  checkExtraVolumeMounts pod g.volumes ([configMount, databaseMount] ++ g.secretMounts.map (·.2)) []
    input.injection.extraVolumeMounts
  checkPodSecurityContext input.injection.podSecurityContext
  validateContainerSecurityContext input.injection.containerSecurityContext
  input.databases.forM fun d => require (P.isDNS1123Label (restoreContainerName d) = true)
    (.restoreName d.name (restoreContainerName d))
  pure {
    volumes := g.volumes
    initContainers :=
      input.databases.map (restoreContainer input rendered image databaseMount g) ++
        if replicates rendered then [replicateContainer input rendered image databaseMount g]
        else []
    podSecurityContext := input.injection.podSecurityContext }

/-! ## Application -/

/-- `equality.Semantic.DeepEqual` of the objects that are compared. -/
structure Semantic where
  volume : Volume → Volume → Bool
  container : Container → Container → Bool
  volume_refl : ∀ v, volume v v = true
  container_refl : ∀ c, container c c = true

variable (E : Semantic)

def mergeVolumes : List Volume → List Volume → Except InjectErr (List Volume)
  | volumes, [] => .ok volumes
  | volumes, v :: vs =>
    match findVolume volumes v.name with
    | none => mergeVolumes (volumes ++ [v]) vs
    | some existing => do
      require (E.volume existing v = true) (.volumeConflict v.name)
      mergeVolumes volumes vs

def checkInitContainer (pod : Pod) (injected : Container) : Except InjectErr Unit := do
  require ((findContainer pod.containers injected.name).isNone = true)
    (.containerConflict injected.name)
  require (∀ existing ∈ findContainer pod.initContainers injected.name,
    E.container existing injected = true) (.initContainerConflict injected.name)

/-- The injected containers come first; one that is there already is kept. -/
def mergeInitContainers (existing injected : List Container) : List Container :=
  injected.map (fun c => (findContainer existing c.name).getD c) ++
    existing.filter fun c => (findContainer injected c.name).isNone

def applyPodSecurityContext (current : Option PodSecurityContext) :
    Option PodSecurityContext → Except InjectErr (Option PodSecurityContext)
  | none => .ok current
  | some configured =>
    match configured.fsGroup with
    | none => .ok current
    | some fsGroup => do
      let c := current.getD {}
      require (∀ g ∈ c.fsGroup, g = fsGroup) (.fsGroup (c.fsGroup.getD 0) fsGroup)
      require (∀ p ∈ c.fsGroupChangePolicy, ∀ q ∈ configured.fsGroupChangePolicy, p = q)
        (.fsGroupChangePolicy (c.fsGroupChangePolicy.getD "")
          (configured.fsGroupChangePolicy.getD ""))
      pure (some { c with fsGroup := c.fsGroup.or (some fsGroup)
                          fsGroupChangePolicy :=
                            c.fsGroupChangePolicy.or configured.fsGroupChangePolicy })

def applyInjection (pod : Pod) (injection : PodInjection) : Except InjectErr Pod := do
  let volumes ← mergeVolumes E pod.volumes injection.volumes
  injection.initContainers.forM (checkInitContainer E pod)
  let securityContext ← applyPodSecurityContext pod.securityContext injection.podSecurityContext
  pure { pod with volumes := volumes
                  initContainers := mergeInitContainers pod.initContainers injection.initContainers
                  securityContext := securityContext }

end Controller.Webhook
