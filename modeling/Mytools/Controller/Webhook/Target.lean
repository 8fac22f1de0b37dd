import Mytools.Controller.Config.Input
import Mytools.Controller.Webhook.Workload

/-!
# Target resolution (`webhook/resolve.go`)

The application container and the mounted volume that hold every database. Annotations of the Pod
come before the defaults of the resource, and these before the search through all containers.
-/

namespace Controller.Webhook

open Lib Config V1alpha1

/-- `TargetContainerAnnotation` -/
def targetContainerAnnotation : String := "litestream.mytools.nakatanakatana.app/target-container"

/-- `VolumeAnnotation` -/
def volumeAnnotation : String := "litestream.mytools.nakatanakatana.app/volume"

structure ResolvedTarget where
  containerIndex : Nat
  containerName : String
  volumeName : String
  mountPath : String
  deriving DecidableEq, Repr

inductive TargetErr where
  | relativePath (path : String)
  | noContainer (name : String)
  | noMount (paths : List String)
  | ambiguous (candidates : List ResolvedTarget)
  deriving DecidableEq, Repr

def cleanDatabasePaths : List Database → Except TargetErr (List String)
  | [] => .ok []
  | d :: ds => do
    require (Path.isAbs d.path = true) (.relativePath d.path)
    let paths ← cleanDatabasePaths ds
    pure (Path.clean d.path :: paths)

def pathContains (parent child : String) : Bool :=
  parent = "/" || child = parent || hasPrefix child (parent ++ "/")

def containsAll (mountPath : String) (databasePaths : List String) : Bool :=
  databasePaths.all (pathContains mountPath)

/-- A setting of the Pod's annotation, or else the default if there is one. -/
def configured (annotations : StringMap) (key default : String) : Option String :=
  (annotations.lookup key).or (if default = "" then none else some default)

/-- The candidates among the mounts of one container. -/
def containerCandidates (volumeName : Option String) (databasePaths : List String) (i : Nat)
    (container : Container) : List ResolvedTarget :=
  container.volumeMounts.filterMap fun m =>
    if (∀ v ∈ volumeName, m.name = v) ∧ Path.isAbs (Path.clean m.mountPath) = true ∧
        containsAll (Path.clean m.mountPath) databasePaths = true then
      some ⟨i, container.name, m.name, Path.clean m.mountPath⟩
    else none

def candidates (containerName volumeName : Option String) (databasePaths : List String)
    (containers : List Container) : List ResolvedTarget :=
  containers.zipIdx.flatMap fun (c, i) =>
    if ∀ n ∈ containerName, c.name = n then containerCandidates volumeName databasePaths i c
    else []

def mostSpecific (candidates : List ResolvedTarget) : List ResolvedTarget :=
  let longestPath := candidates.foldl (fun n c => max n (len c.mountPath)) 0
  candidates.filter fun c => len c.mountPath = longestPath

/-- `ResolveTarget` -/
def resolveTarget (pod : Pod) (input : Input) : Except TargetErr ResolvedTarget := do
  let databasePaths ← cleanDatabasePaths input.databases
  let containerName := configured pod.annotations targetContainerAnnotation
    input.injection.targetContainer
  let volumeName := configured pod.annotations volumeAnnotation input.injection.volume
  let found := candidates containerName volumeName databasePaths pod.containers
  require (∀ n ∈ containerName, (findContainer pod.containers n).isSome)
    (.noContainer (containerName.getD ""))
  require (found ≠ []) (.noMount databasePaths)
  match mostSpecific found with
  | [target] => pure target
  | specific => .error (.ambiguous specific)

end Controller.Webhook
