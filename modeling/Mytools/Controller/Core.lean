/-!
# Kubernetes objects (`k8s.io/api/core/v1`)

The fields of Pods, containers and volumes that injection reads or writes. What an object carries
beside them is kept as `rest`, so that two objects that differ only there are still different.
-/

namespace Controller

/-- The other fields of an object that are set: their JSON names and values. -/
abbrev Rest := List (String × String)

/-- `map[string]string`; a missing key reads as the empty text. -/
abbrev StringMap := List (String × String)

def StringMap.get (m : StringMap) (key : String) : String := (m.lookup key).getD ""

structure SecretKeySelector where
  name : String
  key : String
  optional : Option Bool := none
  deriving DecidableEq, Repr

structure VolumeMount where
  name : String
  mountPath : String
  readOnly : Bool := false
  recursiveReadOnly : Option String := none
  subPath : String := ""
  mountPropagation : Option String := none
  subPathExpr : String := ""
  deriving DecidableEq, Repr

/-- A variable with a value, or with the Secret key that gives it. -/
structure EnvVar where
  name : String
  value : String := ""
  secretKeyRef : Option SecretKeySelector := none
  deriving DecidableEq, Repr

structure Capabilities where
  add : List String := []
  drop : List String := []
  deriving DecidableEq, Repr

structure SecurityContext where
  runAsUser : Option Int := none
  runAsGroup : Option Int := none
  runAsNonRoot : Option Bool := none
  readOnlyRootFilesystem : Option Bool := none
  allowPrivilegeEscalation : Option Bool := none
  capabilities : Option Capabilities := none
  rest : Rest := []
  deriving DecidableEq, Repr

inductive RestartPolicy where
  | always
  | other (text : String)
  deriving DecidableEq, Repr

structure Container where
  name : String
  image : String := ""
  imagePullPolicy : String := ""
  command : List String := []
  env : List EnvVar := []
  volumeMounts : List VolumeMount := []
  resources : Rest := []
  securityContext : Option SecurityContext := none
  restartPolicy : Option RestartPolicy := none
  rest : Rest := []
  deriving DecidableEq, Repr

structure KeyToPath where
  key : String
  path : String
  deriving DecidableEq, Repr

structure SecretProjection where
  name : String
  optional : Option Bool
  items : List KeyToPath
  deriving DecidableEq, Repr

inductive VolumeSource where
  | configMap (name : String) (defaultMode : Nat)
  | projected (sources : List SecretProjection) (defaultMode : Nat)
  | other (rest : Rest)
  deriving DecidableEq, Repr

structure Volume where
  name : String
  source : VolumeSource
  deriving DecidableEq, Repr

structure PodSecurityContext where
  fsGroup : Option Int := none
  fsGroupChangePolicy : Option String := none
  rest : Rest := []
  deriving DecidableEq, Repr

inductive PodPhase where
  | unset | pending | running | succeeded | failed | unknown
  deriving DecidableEq, Repr

structure Pod where
  name : String
  «namespace» : String
  annotations : StringMap := []
  os : Option String := none
  containers : List Container
  initContainers : List Container := []
  volumes : List Volume := []
  securityContext : Option PodSecurityContext := none
  phase : PodPhase := .unset
  rest : Rest := []
  deriving DecidableEq, Repr

/-- `findVolume` -/
def findVolume (volumes : List Volume) (name : String) : Option Volume :=
  volumes.find? (·.name = name)

/-- `findContainer` -/
def findContainer (containers : List Container) (name : String) : Option Container :=
  containers.find? (·.name = name)

end Controller
