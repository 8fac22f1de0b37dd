import Mytools.Controller.Webhook.Inject

/-!
# Pod admission (`webhook/pod_mutator.go`)

`PodMutator.mutate` injects the Litestream resource that a Pod's annotation names. The checks run on
a copy, which takes the Pod's place at the end. The reader never fails other than by not finding an
object.
-/

namespace Controller.Webhook

open Lib Config V1alpha1

/-! ## The objects of a namespace -/

structure OwnerReference where
  uid : String
  controller : Bool := false
  deriving DecidableEq, Repr

structure ConfigMap where
  ownerReferences : List OwnerReference := []
  data : Table String String

structure Objects where
  litestreams : Table String Litestream
  replicas : Replicas
  configMaps : Table String ConfigMap
  pods : List Pod

inductive MutateErr where
  | namespaceUnknown (pod : String)
  | windows
  | notFound (litestream : String)
  | resolve (e : ResolveErr)
  | notReady (litestream : String)
  | staleCondition (litestream : String) (observed generation : Int)
  | render (e : RenderErr)
  | emptyHash (litestream : String)
  | otherHash (litestream published rendered : String)
  | configMapUnavailable (configMap : String)
  | configMapNotControlled (configMap litestream : String)
  | configMapDiffers (configMap : String)
  | sameLitestream (pod litestream : String)
  | sameDestination (pod : String)
  | target (e : TargetErr)
  | inject (e : InjectErr)
  deriving DecidableEq, Repr

/-! ## The published configuration -/

/-- `controller.ReadyConditionType` -/
def readyConditionType : String := "Ready"

/-- `renderReadyResource` -/
def renderReadyResource (L : Library) (name : String) (resource : Litestream) (input : Input) :
    Except MutateErr RenderedConfig := do
  let ready := resource.status.conditions.find? (·.type = readyConditionType)
  require (∃ c ∈ ready, c.status = true) (.notReady name)
  let observed := (ready.map (·.observedGeneration)).getD 0
  require (observed = 0 ∨ observed = resource.generation)
    (.staleCondition name observed resource.generation)
  let rendered ← (render L input).mapError .render
  require (resource.status.configHash ≠ "") (.emptyHash name)
  require (resource.status.configHash = rendered.hash)
    (.otherHash name resource.status.configHash rendered.hash)
  pure rendered

/-- `validation.DNS1123SubdomainMaxLength` -/
def maxNameLength : Nat := 253

/-- `controller.ConfigMapName`; names and UIDs are ASCII, so that a byte is a character. -/
def controllerConfigMapName (name : String) (resource : Litestream) : String :=
  let uid := String.ofList (resource.uid.toList.take 8)
  let maxResourceNameLength := maxNameLength - len "litestream-" - len ("-" ++ uid)
  let resourceName :=
    if maxResourceNameLength < len name then
      String.ofList ((((name.toList.take maxResourceNameLength).reverse).dropWhile
        (· = '.')).reverse)
    else name
  "litestream-" ++ resourceName ++ "-" ++ uid

/-- `configMapName`: the name that the controller has reported comes first. -/
def configMapName (name : String) (resource : Litestream) : String :=
  if resource.status.configMapName ≠ "" then resource.status.configMapName
  else controllerConfigMapName name resource

/-- Semantic equality of two maps of texts. -/
def sameData (a b : Table String String) : Bool :=
  a.rows.all (fun r => b.get? r.1 = some r.2) && b.rows.all (fun r => a.get? r.1 = some r.2)

/-- `verifyConfigMap`; `isControlledBy` is `metav1.IsControlledBy`. -/
def verifyConfigMap (isControlledBy : ConfigMap → Litestream → Bool) (objects : Objects)
    (name : String) (resource : Litestream) (rendered : RenderedConfig) : Except MutateErr Unit :=
  match objects.configMaps.get? (configMapName name resource) with
  | none => .error (.configMapUnavailable (configMapName name resource))
  | some configMap => do
    require (isControlledBy configMap resource = true)
      (.configMapNotControlled (configMapName name resource) name)
    require (sameData configMap.data rendered.data = true)
      (.configMapDiffers (configMapName name resource))

/-! ## Other Pods -/

def podMayWrite (pod : Pod) : Bool := pod.phase ≠ .succeeded && pod.phase ≠ .failed

/-- The Litestream resource that a Pod asks for; empty if none. -/
def podLitestream (pod : Pod) : String := trimSpace (pod.annotations.get injectAnnotation)

/-- What one Pod of the namespace has against the injection. -/
def checkPod (objects : Objects) (pod : Pod) (name : String) (resource : Litestream)
    (existing : Pod) : Except MutateErr Unit :=
  if existing.name = pod.name ∨ podMayWrite existing = false then .ok ()
  else if podLitestream existing = "" then .ok ()
  else if podLitestream existing = name then .error (.sameLitestream existing.name name)
  else match objects.litestreams.get? (podLitestream existing) with
    | none => .ok ()
    | some existingResource =>
      require (¬ (litestreamReplicates existingResource.spec = true ∧
        shareReplicationDestination resource.spec existingResource.spec = true))
        (.sameDestination existing.name)

def validateReplicationConflict (objects : Objects) (pod : Pod) (name : String)
    (resource : Litestream) : Except MutateErr Unit :=
  if litestreamReplicates resource.spec then
    objects.pods.forM (checkPod objects pod name resource)
  else .ok ()

/-! ## Mutation -/

/-- The mutator, and the libraries it calls. -/
structure PodMutator where
  parsers : Parsers
  library : Library
  semantic : Semantic
  isControlledBy : ConfigMap → Litestream → Bool
  defaultImage : String

namespace PodMutator

variable (m : PodMutator)

def getLitestream (objects : Objects) (name : String) : Except MutateErr Litestream :=
  match objects.litestreams.get? name with
  | some resource => .ok resource
  | none => .error (.notFound name)

/-- The checked copy of a Pod that asks for the resource. -/
def injected (objects : Objects) (pod : Pod) (name : String) : Except MutateErr Pod := do
  require (pod.namespace ≠ "") (.namespaceUnknown pod.name)
  require (pod.os ≠ some "windows") .windows
  let resource ← getLitestream objects name
  let input ← (resolve m.parsers objects.replicas resource.spec).mapError .resolve
  let rendered ← renderReadyResource m.library name resource input
  verifyConfigMap m.isControlledBy objects name resource rendered
  validateReplicationConflict objects pod name resource
  let target ← (resolveTarget pod input).mapError .target
  let injection ← (buildInjection m.parsers m.library pod input rendered target
    (configMapName name resource) m.defaultImage).mapError .inject
  (applyInjection m.semantic pod injection).mapError .inject

/-- `Mutate`: the answer, and the Pod as it is left. -/
def mutate (cluster : String → Objects) (pod : Pod) : Except MutateErr Unit × Pod :=
  if podLitestream pod = "" then (.ok (), pod)
  else match m.injected (cluster pod.namespace) pod (podLitestream pod) with
    | .error e => (.error e, pod)
    | .ok copy => (.ok (), copy)

end PodMutator

end Controller.Webhook
