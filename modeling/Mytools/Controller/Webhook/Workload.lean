import Mytools.Controller.V1alpha1
import Mytools.Lib.Table

/-!
# Admission of workloads and Litestream resources

`destination.go`, `workload_validator.go` and `litestream_validator.go`. The handlers are functions
of the namespace they read; a reader never fails other than by not finding an object. An answer
carries what its text is built from.
-/

namespace Controller.Webhook

open Lib V1alpha1

/-- `InjectAnnotation` -/
def injectAnnotation : String := "litestream.mytools.nakatanakatana.app/inject"

/-! ## Destinations -/

structure ReplicationDestination where
  replicaRef : String
  path : String
  deriving DecidableEq, Repr

def replicationDestinations (resource : LitestreamSpec) : List ReplicationDestination :=
  resource.databases.filterMap fun d => d.replicate.map fun r => ⟨r.replicaRef, d.path⟩

def shareReplicationDestination (first second : LitestreamSpec) : Bool :=
  (replicationDestinations second).any (· ∈ replicationDestinations first)

def litestreamReplicates (resource : LitestreamSpec) : Bool :=
  resource.databases.any (·.replicate.isSome)

/-! ## Workloads -/

/-- Of a Pod template only the annotations are read. -/
structure PodTemplate where
  annotations : StringMap := []
  deriving DecidableEq, Repr

/-- The Litestream resource that the template's Pods are injected with; empty if none. -/
def PodTemplate.litestream (t : PodTemplate) : String :=
  trimSpace (t.annotations.get injectAnnotation)

inductive IntOrString where
  | int (value : Int)
  | str (value : String)
  deriving DecidableEq, Repr

inductive StrategyType where
  | unset | recreate | rollingUpdate
  deriving DecidableEq, Repr

structure RollingUpdate where
  maxSurge : Option IntOrString := none
  deriving DecidableEq, Repr

structure Deployment where
  replicas : Option Int := none
  template : PodTemplate
  strategyType : StrategyType := .unset
  rollingUpdate : Option RollingUpdate := none
  deriving DecidableEq, Repr

structure StatefulSet where
  replicas : Option Int := none
  template : PodTemplate
  deriving DecidableEq, Repr

structure DaemonSet where
  template : PodTemplate
  deriving DecidableEq, Repr

inductive WorkloadKind where
  | deployment | statefulSet | daemonSet
  deriving DecidableEq, Repr

structure WorkloadInfo where
  kind : WorkloadKind
  name : String
  template : PodTemplate
  hasActivePods : Bool
  multiplePods : Bool
  unsafeDeploymentRollout : Bool := false
  deriving DecidableEq, Repr

def effectiveReplicas (replicas : Option Int) : Int := replicas.getD 1

def deploymentMayCreateConcurrentPods (resource : Deployment) : Bool :=
  if resource.strategyType = .recreate then false
  else match resource.rollingUpdate.bind (·.maxSurge) with
    | none => true
    | some (.int value) => 0 < value
    | some (.str value) => trimSpace value ≠ "0%" && trimSpace value ≠ "0"

def deploymentWorkloadInfo (name : String) (resource : Deployment) (replicas : Int) :
    WorkloadInfo where
  kind := .deployment
  name := name
  template := resource.template
  hasActivePods := 0 < replicas
  multiplePods := 1 < replicas
  unsafeDeploymentRollout := deploymentMayCreateConcurrentPods resource

/-- A scale request does not look at the rollout strategy. -/
def deploymentScaleWorkloadInfo (name : String) (resource : Deployment) (replicas : Int) :
    WorkloadInfo where
  kind := .deployment
  name := name
  template := resource.template
  hasActivePods := 0 < replicas
  multiplePods := 1 < replicas

def statefulSetWorkloadInfo (name : String) (resource : StatefulSet) (replicas : Int) :
    WorkloadInfo where
  kind := .statefulSet
  name := name
  template := resource.template
  hasActivePods := 0 < replicas
  multiplePods := 1 < replicas

def daemonSetWorkloadInfo (name : String) (resource : DaemonSet) : WorkloadInfo where
  kind := .daemonSet
  name := name
  template := resource.template
  hasActivePods := true
  multiplePods := true

/-! ## The namespace -/

/-- The objects of one namespace that the workload and Litestream handlers read, by name. -/
structure Namespace where
  deployments : Table String Deployment
  statefulSets : Table String StatefulSet
  daemonSets : Table String DaemonSet
  litestreams : Table String Litestream

def Namespace.empty : Namespace := ⟨.empty, .empty, .empty, .empty⟩

def listWorkloads (ns : Namespace) : List WorkloadInfo :=
  (ns.deployments.rows.map fun (name, d) =>
    deploymentWorkloadInfo name d (effectiveReplicas d.replicas)) ++
  (ns.statefulSets.rows.map fun (name, s) =>
    statefulSetWorkloadInfo name s (effectiveReplicas s.replicas)) ++
  (ns.daemonSets.rows.map fun (name, d) => daemonSetWorkloadInfo name d)

/-! ## Requests and answers -/

inductive Operation where
  | create | update | delete | connect
  deriving DecidableEq, Repr

/-- The object of a workload request: a whole object of its kind, or a scale subresource. -/
inductive WorkloadObject where
  | deployment (name : String) (resource : Deployment)
  | statefulSet (name : String) (resource : StatefulSet)
  | daemonSet (name : String) (resource : DaemonSet)
  | other (kind : String)
  | scaleDeployment (replicas : Int)
  | scaleStatefulSet (replicas : Int)
  | scaleOther (resource : String)
  deriving DecidableEq, Repr

/-- The name that a whole object carries. -/
def WorkloadObject.name? : WorkloadObject → Option String
  | .deployment name _ | .statefulSet name _ | .daemonSet name _ => some name
  | _ => none

/-- A request names its object, or, while the object's name is being generated, nothing. -/
structure WorkloadRequest where
  operation : Operation
  name : String
  object : WorkloadObject
  named : ∀ n ∈ object.name?, name = n ∨ name = ""

structure LitestreamRequest where
  operation : Operation
  name : String
  resource : Litestream
  deriving DecidableEq, Repr

inductive Conflict where
  | multiplePods (litestream : String) (kind : WorkloadKind) (workload : String)
  | unsafeRollout (litestream deployment : String)
  | sameDestination (litestream : String) (kind : WorkloadKind) (workload : String)
  | multipleWorkloads (litestream : String) (first second : WorkloadKind × String)
  deriving DecidableEq, Repr

inductive Allowed where
  | notChecked | notInjected | noActivePods | notCreatedYet | singleWriter | validSpec
  | noReplication (litestream : String)
  deriving DecidableEq, Repr

inductive Denied where
  | notCreated (litestream : String)
  | unsafeRollout (litestream : String)
  | multiplePods (litestream : String) (kind : WorkloadKind)
  | conflict (conflict : Conflict)
  | invalidSpec (errors : List FieldError)
  deriving DecidableEq, Repr

inductive Failed where
  | unsupportedKind (kind : String)
  | unsupportedScale (resource : String)
  | notFound (kind : WorkloadKind) (name : String)
  deriving DecidableEq, Repr

inductive Response where
  | allowed (reason : Allowed)
  | denied (reason : Denied)
  | errored (code : Nat) (reason : Failed)
  deriving DecidableEq, Repr

def Response.ok : Response → Bool
  | .allowed _ => true
  | _ => false

/-- A reader that fails is the server's error, an object that cannot be decoded the client's. -/
def Failed.code : Failed → Nat
  | .notFound _ _ => 500
  | _ => 400

/-! ## The workload validator -/

def workloadSafetyConflict (workload : WorkloadInfo) (litestreamName : String) : Option Conflict :=
  if workload.template.litestream ≠ litestreamName then none
  else if workload.multiplePods then
    some (.multiplePods litestreamName workload.kind workload.name)
  else if workload.hasActivePods && workload.unsafeDeploymentRollout then
    some (.unsafeRollout litestreamName workload.name)
  else none

namespace WorkloadValidator

/-- `decodeWorkload`, `decodeScaleWorkload` -/
def decodeWorkload (ns : Namespace) (req : WorkloadRequest) : Except Failed WorkloadInfo :=
  match req.object with
  | .deployment name d => .ok (deploymentWorkloadInfo name d (effectiveReplicas d.replicas))
  | .statefulSet name s => .ok (statefulSetWorkloadInfo name s (effectiveReplicas s.replicas))
  | .daemonSet name d => .ok (daemonSetWorkloadInfo name d)
  | .other kind => .error (.unsupportedKind kind)
  | .scaleDeployment replicas =>
    match ns.deployments.get? req.name with
    | some d => .ok (deploymentScaleWorkloadInfo req.name d replicas)
    | none => .error (.notFound .deployment req.name)
  | .scaleStatefulSet replicas =>
    match ns.statefulSets.get? req.name with
    | some s => .ok (statefulSetWorkloadInfo req.name s replicas)
    | none => .error (.notFound .statefulSet req.name)
  | .scaleOther resource => .error (.unsupportedScale resource)

/-- What one workload of the list has against the current one. -/
def conflictWith (ns : Namespace) (name : String) (litestream : Litestream) (kind : WorkloadKind)
    (currentName : String) (workload : WorkloadInfo) : Option Conflict :=
  if workload.kind = kind ∧ workload.name = currentName then none
  else match workloadSafetyConflict workload name with
    | some c => some c
    | none =>
      let existingName := workload.template.litestream
      if workload.hasActivePods = false ∨ existingName = "" then none
      else match ns.litestreams.get? existingName with
        | none => none
        | some existing =>
          if litestreamReplicates existing.spec ∧
              shareReplicationDestination litestream.spec existing.spec then
            some (.sameDestination name workload.kind workload.name)
          else none

/-- `WorkloadValidator.existingWorkloadConflict` -/
def existingWorkloadConflict (ns : Namespace) (name : String) (litestream : Litestream)
    (kind : WorkloadKind) (currentName : String) : Option Conflict :=
  (listWorkloads ns).findSome? (conflictWith ns name litestream kind currentName)

/-- The checks of a workload whose Litestream resource replicates. -/
def checkWriter (ns : Namespace) (req : WorkloadRequest) (workload : WorkloadInfo) (name : String)
    (litestream : Litestream) : Response :=
  if workload.unsafeDeploymentRollout && workload.hasActivePods && !workload.multiplePods then
    .denied (.unsafeRollout name)
  else if workload.multiplePods then .denied (.multiplePods name workload.kind)
  else if workload.hasActivePods then
    let currentName := if req.name = "" then workload.name else req.name
    match existingWorkloadConflict ns name litestream workload.kind currentName with
    | some c => .denied (.conflict c)
    | none => .allowed .singleWriter
  else .allowed .singleWriter

/-- The checks of a decoded workload. -/
def checkWorkload (ns : Namespace) (req : WorkloadRequest) (workload : WorkloadInfo) : Response :=
  let name := workload.template.litestream
  if name = "" then .allowed .notInjected
  else if !workload.hasActivePods && !workload.multiplePods then .allowed .noActivePods
  else match ns.litestreams.get? name with
    | none =>
      if !workload.multiplePods && !workload.unsafeDeploymentRollout then .allowed .notCreatedYet
      else .denied (.notCreated name)
    | some litestream =>
      if litestreamReplicates litestream.spec then checkWriter ns req workload name litestream
      else .allowed (.noReplication name)

/-- `WorkloadValidator.Handle` -/
def handle (ns : Namespace) (req : WorkloadRequest) : Response :=
  if req.operation ≠ .create ∧ req.operation ≠ .update then .allowed .notChecked
  else match decodeWorkload ns req with
    | .error e => .errored e.code e
    | .ok workload => checkWorkload ns req workload

end WorkloadValidator

/-! ## The Litestream validator -/

namespace LitestreamValidator

/-- The workloads from here on, those that use the resource collected so far in `matching`. -/
def scan (ns : Namespace) (name : String) (resource : Litestream) :
    List WorkloadInfo → List WorkloadInfo → Option Conflict
  | first :: second :: _, [] =>
    some (.multipleWorkloads name (first.kind, first.name) (second.kind, second.name))
  | _, [] => none
  | matching, workload :: workloads =>
    match workloadSafetyConflict workload name with
    | some c => some c
    | none =>
      let existingName := workload.template.litestream
      if workload.hasActivePods = false ∨ existingName = "" then
        scan ns name resource matching workloads
      else if existingName = name then scan ns name resource (matching ++ [workload]) workloads
      else match ns.litestreams.get? existingName with
        | none => scan ns name resource matching workloads
        | some existing =>
          if litestreamReplicates existing.spec ∧
              shareReplicationDestination resource.spec existing.spec then
            some (.sameDestination name workload.kind workload.name)
          else scan ns name resource matching workloads

/-- `LitestreamValidator.existingWorkloadConflict` -/
def existingWorkloadConflict (ns : Namespace) (name : String) (resource : Litestream) :
    Option Conflict :=
  scan ns name resource [] (listWorkloads ns)

/-- `LitestreamValidator.Handle` -/
def handle (P : Parsers) (ns : Namespace) (req : LitestreamRequest) : Response :=
  if req.operation ≠ .create ∧ req.operation ≠ .update then .allowed .notChecked
  else if req.resource.spec.validate P ≠ [] then
    .denied (.invalidSpec (req.resource.spec.validate P))
  else if litestreamReplicates req.resource.spec then
    match existingWorkloadConflict ns req.name req.resource with
    | some c => .denied (.conflict c)
    | none => .allowed .validSpec
  else .allowed .validSpec

end LitestreamValidator

/-! ## Serial requests -/

inductive Request where
  | workload (req : WorkloadRequest)
  | litestream (req : LitestreamRequest)
  | deleteWorkload (kind : WorkloadKind) (name : String)
  | deleteLitestream (name : String)

namespace Namespace

/-- The namespace with the object of a create or update request stored. -/
def putWorkload (ns : Namespace) (req : WorkloadRequest) : Namespace :=
  match req.object with
  | .deployment name d => { ns with deployments := ns.deployments.set name d }
  | .statefulSet name s => { ns with statefulSets := ns.statefulSets.set name s }
  | .daemonSet name d => { ns with daemonSets := ns.daemonSets.set name d }
  | .scaleDeployment replicas =>
    match ns.deployments.get? req.name with
    | some d =>
      { ns with deployments := ns.deployments.set req.name { d with replicas := some replicas } }
    | none => ns
  | .scaleStatefulSet replicas =>
    match ns.statefulSets.get? req.name with
    | some s =>
      { ns with statefulSets := ns.statefulSets.set req.name { s with replicas := some replicas } }
    | none => ns
  | .other _ | .scaleOther _ => ns

def putLitestream (ns : Namespace) (req : LitestreamRequest) : Namespace :=
  { ns with litestreams := ns.litestreams.set req.name req.resource }

def deleteWorkload (ns : Namespace) (kind : WorkloadKind) (name : String) : Namespace :=
  match kind with
  | .deployment => { ns with deployments := ns.deployments.erase name }
  | .statefulSet => { ns with statefulSets := ns.statefulSets.erase name }
  | .daemonSet => { ns with daemonSets := ns.daemonSets.erase name }

def deleteLitestream (ns : Namespace) (name : String) : Namespace :=
  { ns with litestreams := ns.litestreams.erase name }

/-- A create or update is stored if its validator allows it; deletions are not validated. -/
def serve (P : Parsers) (ns : Namespace) : Request → Namespace
  | .workload req =>
    if (req.operation = .create ∨ req.operation = .update) ∧
        (WorkloadValidator.handle ns req).ok then ns.putWorkload req
    else ns
  | .litestream req =>
    if (req.operation = .create ∨ req.operation = .update) ∧
        (LitestreamValidator.handle P ns req).ok then ns.putLitestream req
    else ns
  | .deleteWorkload kind name => ns.deleteWorkload kind name
  | .deleteLitestream name => ns.deleteLitestream name

/-- The namespace after serial requests, from an empty one. -/
def after (P : Parsers) (reqs : List Request) : Namespace := reqs.foldl (serve P) empty

end Namespace

end Controller.Webhook
