import Mytools.Controller.Webhook.Workload

/-!
# A replication destination has at most one active workload

The purpose of the two validators is stated over the objects of the namespace (`Workload`,
`Writer`). `Inv` is the same over the list that the handlers read. A request that is allowed keeps
it: the workload validator compares the new workload with all others (`Admits`), the Litestream
validator compares the new resource with all workloads (`Fits`), and a deletion leaves fewer of
both.
-/

namespace Controller.Webhook

open Lib V1alpha1

/-! ## The purpose -/

/-- The Pods that a workload is to run: a number of replicas, or one on every node. -/
inductive PodCount where
  | replicas (n : Int)
  | everyNode

def PodCount.Active : PodCount → Prop
  | .replicas n => 1 ≤ n
  | .everyNode => True

def PodCount.Many : PodCount → Prop
  | .replicas n => 2 ≤ n
  | .everyNode => True

inductive Workload (ns : Namespace) : WorkloadKind → String → PodTemplate → PodCount → Prop
  | deployment {n : String} {d : Deployment} (h : ns.deployments.get? n = some d) :
      Workload ns .deployment n d.template (.replicas (effectiveReplicas d.replicas))
  | statefulSet {n : String} {d : StatefulSet} (h : ns.statefulSets.get? n = some d) :
      Workload ns .statefulSet n d.template (.replicas (effectiveReplicas d.replicas))
  | daemonSet {n : String} {d : DaemonSet} (h : ns.daemonSets.get? n = some d) :
      Workload ns .daemonSet n d.template .everyNode

/-- An active workload is annotated with an existing resource that replicates. -/
structure Writer (ns : Namespace) (k : WorkloadKind) (n : String) (pods : PodCount)
    (litestream : String) (resource : Litestream) : Prop where
  workload : ∃ template, Workload ns k n template pods ∧ template.litestream = litestream
  active : pods.Active
  annotated : litestream ≠ ""
  stored : ns.litestreams.get? litestream = some resource
  replicates : litestreamReplicates resource.spec = true

/-- Two writers have neither a resource nor a destination in common, and a writer runs one Pod. -/
structure SingleWriter (ns : Namespace) : Prop where
  apart : ∀ k n p l r k' n' p' l' r', Writer ns k n p l r → Writer ns k' n' p' l' r' →
    (k, n) ≠ (k', n') →
      l ≠ l' ∧ ∀ d ∈ replicationDestinations r.spec, d ∉ replicationDestinations r'.spec
  one : ∀ k n p l r, Writer ns k n p l r → ¬p.Many

/-! ## Destinations -/

theorem share_iff {s t : LitestreamSpec} : shareReplicationDestination s t = true ↔
    ∃ d ∈ replicationDestinations s, d ∈ replicationDestinations t := by
  simp only [shareReplicationDestination, List.any_eq_true, decide_eq_true_eq]
  constructor
  · intro h
    obtain ⟨d, ht, hs⟩ := h
    exact ⟨d, hs, ht⟩
  · intro h
    obtain ⟨d, hs, ht⟩ := h
    exact ⟨d, ht, hs⟩

theorem share_comm {s t : LitestreamSpec} :
    shareReplicationDestination s t = shareReplicationDestination t s := by
  rw [Bool.eq_iff_iff, share_iff, share_iff]
  exact ⟨fun ⟨d, hs, ht⟩ => ⟨d, ht, hs⟩, fun ⟨d, ht, hs⟩ => ⟨d, hs, ht⟩⟩

/-- A resource that replicates has a destination, so it shares one with itself. -/
theorem share_self {s : LitestreamSpec} (h : litestreamReplicates s = true) :
    shareReplicationDestination s s = true := by
  obtain ⟨d, hd, hr⟩ := List.any_eq_true.1 h
  obtain ⟨r, hr⟩ := Option.isSome_iff_exists.1 hr
  have hm : (⟨r.replicaRef, d.path⟩ : ReplicationDestination) ∈ replicationDestinations s :=
    List.mem_filterMap.2 ⟨d, hd, by rw [hr]; rfl⟩
  exact share_iff.2 ⟨_, hm, hm⟩

/-! ## The list of workloads -/

variable {ns : Namespace} {w w' : WorkloadInfo} {s t : LitestreamSpec}

def WorkloadInfo.key (w : WorkloadInfo) : WorkloadKind × String := (w.kind, w.name)

/-- The workload of the list with this kind and name. -/
def Namespace.workload? (ns : Namespace) : WorkloadKind → String → Option WorkloadInfo
  | .deployment, n => (ns.deployments.get? n).map fun d =>
      deploymentWorkloadInfo n d (effectiveReplicas d.replicas)
  | .statefulSet, n => (ns.statefulSets.get? n).map fun d =>
      statefulSetWorkloadInfo n d (effectiveReplicas d.replicas)
  | .daemonSet, n => (ns.daemonSets.get? n).map (daemonSetWorkloadInfo n)

theorem mem_listWorkloads : w ∈ listWorkloads ns ↔ ns.workload? w.kind w.name = some w := by
  simp only [listWorkloads, List.mem_append, List.mem_map, Prod.exists, ← Table.get?_eq_some_iff]
  constructor
  · rintro ((⟨n, d, hg, rfl⟩ | ⟨n, d, hg, rfl⟩) | ⟨n, d, hg, rfl⟩) <;>
      exact Option.map_eq_some_iff.2 ⟨d, hg, rfl⟩
  · intro h
    cases hk : w.kind <;> rw [hk] at h <;> obtain ⟨d, hg, hw⟩ := Option.map_eq_some_iff.1 h
    · exact .inl (.inl ⟨_, d, hg, hw⟩)
    · exact .inl (.inr ⟨_, d, hg, hw⟩)
    · exact .inr ⟨_, d, hg, hw⟩

/-- The workload is active, and its template names an existing resource that replicates. -/
def Uses (ns : Namespace) (w : WorkloadInfo) (s : LitestreamSpec) : Prop :=
  w.hasActivePods = true ∧ w.template.litestream ≠ "" ∧ litestreamReplicates s = true ∧
    ∃ l, ns.litestreams.get? w.template.litestream = some l ∧ l.spec = s

structure Inv (ns : Namespace) : Prop where
  apart : ∀ w ∈ listWorkloads ns, ∀ w' ∈ listWorkloads ns, w.key ≠ w'.key →
    ∀ s t, Uses ns w s → Uses ns w' t → shareReplicationDestination s t = false
  single : ∀ w ∈ listWorkloads ns, ∀ s, Uses ns w s → w.multiplePods = false

theorem inv_empty : Inv Namespace.empty :=
  ⟨fun _ h => (nomatch h), fun _ h => (nomatch h)⟩

/-- Fewer workloads and fewer resources. -/
theorem Inv.of_less {ns' : Namespace} (hi : Inv ns)
    (hw : ∀ w ∈ listWorkloads ns', w ∈ listWorkloads ns)
    (hl : ∀ n l, ns'.litestreams.get? n = some l → ns.litestreams.get? n = some l) : Inv ns' := by
  have hu : ∀ {w s}, Uses ns' w s → Uses ns w s := by
    intro w s h
    obtain ⟨ha, hn, hr, l, hg, hs⟩ := h
    exact ⟨ha, hn, hr, l, hl _ _ hg, hs⟩
  exact ⟨fun w hm w' hm' hk s t h h' => hi.apart w (hw w hm) w' (hw w' hm') hk s t (hu h) (hu h'),
    fun w hm s h => hi.single w (hw w hm) s (hu h)⟩

/-! ## The workload validator -/

/-- What the workload validator makes sure of before it allows an active workload. -/
def Admits (ns : Namespace) (i : WorkloadInfo) : Prop :=
  ∀ s, Uses ns i s → i.multiplePods = false ∧
    ∀ w ∈ listWorkloads ns, w.key ≠ i.key → ∀ t, Uses ns w t →
      shareReplicationDestination s t = false

namespace WorkloadValidator

theorem conflictWith_eq_none {name : String} {l : Litestream} {kind : WorkloadKind} {n : String}
    (h : conflictWith ns name l kind n w = none) (hk : w.key ≠ (kind, n)) (hu : Uses ns w t) :
    shareReplicationDestination l.spec t = false := by
  obtain ⟨ha, hn, hr, e, hg, rfl⟩ := hu
  unfold conflictWith at h
  rw [if_neg (fun hc => hk (Prod.ext hc.1 hc.2))] at h
  split at h
  · cases h
  · simpa [ha, hn, hg, hr] using h

/-- The name that is left out of the comparison is the workload's own. -/
theorem decodeWorkload_name {req : WorkloadRequest} {i : WorkloadInfo}
    (h : decodeWorkload ns req = .ok i) : req.name = i.name ∨ req.name = "" := by
  have hn := req.named
  unfold decodeWorkload at h
  split at h
  case h_1 name d ho => cases h; exact hn name (by rw [ho]; rfl)
  case h_2 name d ho => cases h; exact hn name (by rw [ho]; rfl)
  case h_3 name d ho => cases h; exact hn name (by rw [ho]; rfl)
  case h_4 => cases h
  case h_5 => split at h <;> cases h; exact .inl rfl
  case h_6 => split at h <;> cases h; exact .inl rfl
  case h_7 => cases h

theorem checkWriter_ok {req : WorkloadRequest} {i : WorkloadInfo} {name : String} {l : Litestream}
    (hn : req.name = i.name ∨ req.name = "") (h : (checkWriter ns req i name l).ok = true)
    (ha : i.hasActivePods = true) : i.multiplePods = false ∧
      ∀ w ∈ listWorkloads ns, w.key ≠ i.key → ∀ t, Uses ns w t →
        shareReplicationDestination l.spec t = false := by
  have hcur : (if req.name = "" then i.name else req.name) = i.name := by
    split
    · rfl
    · exact hn.resolve_right ‹_›
  unfold checkWriter at h
  by_cases hu : (i.unsafeDeploymentRollout && i.hasActivePods && !i.multiplePods) = true
  · rw [if_pos hu] at h
    cases h
  by_cases hm : i.multiplePods = true
  · rw [if_neg hu, if_pos hm] at h
    cases h
  rw [if_neg hu, if_neg hm, if_pos ha] at h
  simp only [hcur] at h
  cases hc : existingWorkloadConflict ns name l i.kind i.name with
  | some c => simp [hc, Response.ok] at h
  | none =>
  refine ⟨by simpa using hm, fun w hw hk t hu => ?_⟩
  exact conflictWith_eq_none (List.findSome?_eq_none_iff.1 hc w hw) hk hu

theorem handle_ok {req : WorkloadRequest} {i : WorkloadInfo}
    (hop : req.operation = .create ∨ req.operation = .update)
    (hd : decodeWorkload ns req = .ok i) (h : (handle ns req).ok = true) : Admits ns i := by
  intro s hu
  obtain ⟨ha, hn, hr, l, hg, rfl⟩ := hu
  have hop' : ¬(req.operation ≠ .create ∧ req.operation ≠ .update) := by
    rcases hop with h | h <;> simp [h]
  rw [handle, if_neg hop', hd] at h
  simp only [checkWorkload, if_neg hn, ha, hg, hr, Bool.not_true, Bool.false_and,
    Bool.false_eq_true, if_false, if_true] at h
  exact checkWriter_ok (decodeWorkload_name hd) h ha

/-- The same workload; a scale request does not know the rollout. -/
def Same (w i : WorkloadInfo) : Prop :=
  w.key = i.key ∧ w.template = i.template ∧ w.hasActivePods = i.hasActivePods ∧
    w.multiplePods = i.multiplePods

theorem workload?_setDeployment {k : WorkloadKind} {n m : String} {d : Deployment} :
    Namespace.workload? { ns with deployments := ns.deployments.set m d } k n =
      if (k, n) = (.deployment, m) then
        some (deploymentWorkloadInfo m d (effectiveReplicas d.replicas))
      else ns.workload? k n := by
  by_cases hn : n = m <;> cases k <;> simp [Namespace.workload?, Table.get?_set, hn]

theorem workload?_setStatefulSet {k : WorkloadKind} {n m : String} {d : StatefulSet} :
    Namespace.workload? { ns with statefulSets := ns.statefulSets.set m d } k n =
      if (k, n) = (.statefulSet, m) then
        some (statefulSetWorkloadInfo m d (effectiveReplicas d.replicas))
      else ns.workload? k n := by
  by_cases hn : n = m <;> cases k <;> simp [Namespace.workload?, Table.get?_set, hn]

theorem workload?_setDaemonSet {k : WorkloadKind} {n m : String} {d : DaemonSet} :
    Namespace.workload? { ns with daemonSets := ns.daemonSets.set m d } k n =
      if (k, n) = (.daemonSet, m) then some (daemonSetWorkloadInfo m d)
      else ns.workload? k n := by
  by_cases hn : n = m <;> cases k <;> simp [Namespace.workload?, Table.get?_set, hn]

/-- A put replaces the workload with the decoded one's kind and name, and no other. -/
theorem workload?_putWorkload {req : WorkloadRequest} {i : WorkloadInfo}
    (hd : decodeWorkload ns req = .ok i) : ∃ i', Same i' i ∧ ∀ k n,
      (ns.putWorkload req).workload? k n =
        if (k, n) = i.key then some i' else ns.workload? k n := by
  unfold decodeWorkload at hd
  unfold Namespace.putWorkload
  cases ho : req.object with
  | deployment n d =>
    simp only [ho, Except.ok.injEq] at hd ⊢
    rw [← hd]
    exact ⟨_, ⟨rfl, rfl, rfl, rfl⟩, fun _ _ => workload?_setDeployment⟩
  | statefulSet n d =>
    simp only [ho, Except.ok.injEq] at hd ⊢
    rw [← hd]
    exact ⟨_, ⟨rfl, rfl, rfl, rfl⟩, fun _ _ => workload?_setStatefulSet⟩
  | daemonSet n d =>
    simp only [ho, Except.ok.injEq] at hd ⊢
    rw [← hd]
    exact ⟨_, ⟨rfl, rfl, rfl, rfl⟩, fun _ _ => workload?_setDaemonSet⟩
  | scaleDeployment k =>
    cases hg : ns.deployments.get? req.name with
    | none => simp [ho, hg] at hd
    | some d =>
      simp only [ho, hg, Except.ok.injEq] at hd ⊢
      rw [← hd]
      exact ⟨deploymentWorkloadInfo req.name { d with replicas := some k } k,
        ⟨rfl, rfl, rfl, rfl⟩, fun _ _ => workload?_setDeployment⟩
  | scaleStatefulSet k =>
    cases hg : ns.statefulSets.get? req.name with
    | none => simp [ho, hg] at hd
    | some d =>
      simp only [ho, hg, Except.ok.injEq] at hd ⊢
      rw [← hd]
      exact ⟨_, ⟨rfl, rfl, rfl, rfl⟩, fun _ _ => workload?_setStatefulSet⟩
  | other kind => simp [ho] at hd
  | scaleOther resource => simp [ho] at hd

theorem putWorkload_litestreams (req : WorkloadRequest) :
    (ns.putWorkload req).litestreams = ns.litestreams := by
  unfold Namespace.putWorkload
  split <;> first | rfl | split <;> rfl

end WorkloadValidator

/-! ## The Litestream validator -/

/-- What the Litestream validator makes sure of before it allows a resource that replicates. -/
structure Fits (ns : Namespace) (name : String) (s : LitestreamSpec) : Prop where
  single : ∀ w ∈ listWorkloads ns, w.template.litestream = name → w.multiplePods = false
  apart : ∀ w ∈ listWorkloads ns, w.template.litestream ≠ name → ∀ t, Uses ns w t →
    shareReplicationDestination s t = false
  unique : ∀ w ∈ listWorkloads ns, ∀ w' ∈ listWorkloads ns, w.hasActivePods = true →
    w'.hasActivePods = true → w.template.litestream = name → w'.template.litestream = name →
    name ≠ "" → w = w'

namespace LitestreamValidator

/-- The workloads that the scan collects. -/
def matching (name : String) (ws : List WorkloadInfo) : List WorkloadInfo :=
  ws.filter fun w => w.hasActivePods && w.template.litestream = name && name ≠ ""

theorem workloadSafetyConflict_eq_none {name : String}
    (h : workloadSafetyConflict w name = none) (hn : w.template.litestream = name) :
    w.multiplePods = false := by
  unfold workloadSafetyConflict at h
  rw [if_neg (not_not.2 hn)] at h
  by_contra hm
  rw [if_pos (by simpa using hm)] at h
  cases h

theorem scan_eq_none {name : String} {l : Litestream} :
    ∀ {ws ms : List WorkloadInfo}, scan ns name l ms ws = none →
      (∀ w ∈ ws, w.template.litestream = name → w.multiplePods = false) ∧
      (∀ w ∈ ws, w.template.litestream ≠ name → ∀ t, Uses ns w t →
        shareReplicationDestination l.spec t = false) ∧
      (ms ++ matching name ws).length ≤ 1
  | [], [], _ => by simp [matching]
  | [], [_], _ => by simp [matching]
  | [], _ :: _ :: _, h => by simp [scan] at h
  | w :: ws, ms, h => by
    rw [scan] at h
    cases hc : workloadSafetyConflict w name with
    | some c => simp [hc] at h
    | none =>
      simp only [hc] at h
      have hs := workloadSafetyConflict_eq_none hc
      by_cases hno : w.hasActivePods = false ∨ w.template.litestream = ""
      · rw [if_pos hno] at h
        obtain ⟨h₁, h₂, h₃⟩ := scan_eq_none h
        refine ⟨List.forall_mem_cons.2 ⟨hs, h₁⟩, List.forall_mem_cons.2 ⟨?_, h₂⟩, ?_⟩
        · intro _ t hu
          rcases hno with hno | hno
          · exact absurd hu.1 (by simp [hno])
          · exact absurd hno hu.2.1
        · have hf : matching name (w :: ws) = matching name ws := by
            refine List.filter_cons_of_neg ?_
            simp only [Bool.and_eq_true, decide_eq_true_eq, not_and]
            rintro ⟨ha, rfl⟩
            simpa [ha] using hno
          rwa [hf]
      · rw [if_neg hno] at h
        simp only [not_or, Bool.not_eq_false] at hno
        by_cases hn : w.template.litestream = name
        · rw [if_pos hn] at h
          obtain ⟨h₁, h₂, h₃⟩ := scan_eq_none h
          refine ⟨List.forall_mem_cons.2 ⟨hs, h₁⟩,
            List.forall_mem_cons.2 ⟨fun hne => absurd hn hne, h₂⟩, ?_⟩
          have hf : matching name (w :: ws) = w :: matching name ws := by
            refine List.filter_cons_of_pos ?_
            rw [← hn]
            simp [hno.1, hno.2]
          rw [hf]
          simpa using h₃
        · rw [if_neg hn] at h
          have hf : matching name (w :: ws) = matching name ws :=
            List.filter_cons_of_neg (by simp [hn])
          have hrest : scan ns name l ms ws = none ∧
              ∀ t, Uses ns w t → shareReplicationDestination l.spec t = false := by
            cases hg : ns.litestreams.get? w.template.litestream with
            | none =>
              simp only [hg] at h
              refine ⟨h, fun t hu => ?_⟩
              obtain ⟨-, -, -, e, he, -⟩ := hu
              rw [hg] at he
              cases he
            | some e =>
              simp only [hg] at h
              split at h
              · cases h
              rename_i hsh
              refine ⟨h, fun t hu => ?_⟩
              obtain ⟨-, -, hr, e', he, rfl⟩ := hu
              rw [hg] at he
              cases he
              simpa [hr] using hsh
          obtain ⟨h₁, h₂, h₃⟩ := scan_eq_none hrest.1
          rw [hf]
          exact ⟨List.forall_mem_cons.2 ⟨hs, h₁⟩,
            List.forall_mem_cons.2 ⟨fun _ => hrest.2, h₂⟩, h₃⟩

theorem handle_ok {P : Parsers} {req : LitestreamRequest}
    (hop : req.operation = .create ∨ req.operation = .update) (h : (handle P ns req).ok = true)
    (hr : litestreamReplicates req.resource.spec = true) :
    Fits ns req.name req.resource.spec := by
  have hop' : ¬(req.operation ≠ .create ∧ req.operation ≠ .update) := by
    rcases hop with h | h <;> simp [h]
  rw [handle, if_neg hop'] at h
  by_cases hv : req.resource.spec.validate P ≠ []
  · rw [if_pos hv] at h
    cases h
  rw [if_neg hv, if_pos hr] at h
  cases hc : existingWorkloadConflict ns req.name req.resource with
  | some c => simp [hc, Response.ok] at h
  | none =>
    obtain ⟨h₁, h₂, h₃⟩ := scan_eq_none hc
    refine ⟨h₁, h₂, fun w hw w' hw' ha ha' hn hn' hne => ?_⟩
    have hm : w ∈ matching req.name (listWorkloads ns) :=
      List.mem_filter.2 ⟨hw, by simp [ha, hn, hne]⟩
    have hm' : w' ∈ matching req.name (listWorkloads ns) :=
      List.mem_filter.2 ⟨hw', by simp [ha', hn', hne]⟩
    rw [List.nil_append] at h₃
    match matching req.name (listWorkloads ns), hm, hm', h₃ with
    | [x], hm, hm', _ => rw [List.mem_singleton.1 hm, List.mem_singleton.1 hm']

end LitestreamValidator

/-! ## Requests -/

/-- An allowed workload keeps the invariant: it is compared with all others. -/
theorem Inv.putWorkload {req : WorkloadRequest} {i : WorkloadInfo} (hi : Inv ns)
    (hd : WorkloadValidator.decodeWorkload ns req = .ok i) (ha : Admits ns i) :
    Inv (ns.putWorkload req) := by
  obtain ⟨i', hsame, hput⟩ := WorkloadValidator.workload?_putWorkload hd
  obtain ⟨hkey, htemp, hact, hmul⟩ := hsame
  have huses : ∀ {w s}, Uses (ns.putWorkload req) w s ↔ Uses ns w s := by
    intro w s
    rw [Uses, Uses, WorkloadValidator.putWorkload_litestreams]
  have hnew : ∀ {s}, Uses (ns.putWorkload req) i' s → Uses ns i s := by
    intro s h
    rw [huses, Uses, hact, htemp] at h
    exact h
  have hcases : ∀ w ∈ listWorkloads (ns.putWorkload req), w = i' ∨
      w ∈ listWorkloads ns ∧ w.key ≠ i.key := by
    intro w hw
    rw [mem_listWorkloads, hput] at hw
    split at hw
    · cases hw
      exact .inl rfl
    · exact .inr ⟨mem_listWorkloads.2 hw, ‹_›⟩
  constructor
  · intro w hw w' hw' hk s t hs ht
    rcases hcases w hw with rfl | ⟨hm, hne⟩ <;> rcases hcases w' hw' with rfl | ⟨hm', hne'⟩
    · exact absurd rfl hk
    · exact (ha s (hnew hs)).2 w' hm' hne' t (huses.1 ht)
    · rw [share_comm]
      exact (ha t (hnew ht)).2 w hm hne s (huses.1 hs)
    · exact hi.apart w hm w' hm' hk s t (huses.1 hs) (huses.1 ht)
  · intro w hw s hs
    rcases hcases w hw with rfl | ⟨hm, -⟩
    · rw [hmul]
      exact (ha s (hnew hs)).1
    · exact hi.single w hm s (huses.1 hs)

/-- An allowed resource keeps the invariant: it is compared with all workloads. -/
theorem Inv.putLitestream {req : LitestreamRequest} (hi : Inv ns)
    (hf : litestreamReplicates req.resource.spec = true → Fits ns req.name req.resource.spec) :
    Inv (ns.putLitestream req) := by
  -- a workload uses the new resource, or uses another one as before
  have huses : ∀ {w s}, Uses (ns.putLitestream req) w s →
      (w.template.litestream = req.name ∧ w.hasActivePods = true ∧ req.name ≠ "" ∧
        litestreamReplicates req.resource.spec = true ∧ s = req.resource.spec) ∨
      (w.template.litestream ≠ req.name ∧ Uses ns w s) := by
    intro w s h
    obtain ⟨ha, hn, hr, l, hg, rfl⟩ := h
    rcases Table.get?_set_eq_some.1 hg with ⟨hk, rfl⟩ | ⟨hk, hg⟩
    · exact .inl ⟨hk, ha, hk ▸ hn, hr, rfl⟩
    · exact .inr ⟨hk, ha, hn, hr, l, hg, rfl⟩
  constructor
  · intro w hw w' hw' hk s t hs ht
    rcases huses hs with ⟨hn, ha, hne, hr, rfl⟩ | ⟨hn, hs⟩ <;>
      rcases huses ht with ⟨hn', ha', -, hr', rfl⟩ | ⟨hn', ht⟩
    · exact absurd (congrArg _ ((hf hr).unique w hw w' hw' ha ha' hn hn' hne)) hk
    · exact (hf hr).apart w' hw' hn' t ht
    · rw [share_comm]
      exact (hf hr').apart w hw hn s hs
    · exact hi.apart w hw w' hw' hk s t hs ht
  · intro w hw s hs
    rcases huses hs with ⟨hn, -, -, hr, -⟩ | ⟨-, hs⟩
    · exact (hf hr).single w hw hn
    · exact hi.single w hw s hs

theorem mem_deleteWorkload {k : WorkloadKind} {n : String}
    (hw : w ∈ listWorkloads (ns.deleteWorkload k n)) : w ∈ listWorkloads ns := by
  rw [mem_listWorkloads] at hw ⊢
  revert hw
  cases k <;> cases w.kind <;> intro hw <;>
    obtain ⟨d, hg, hw⟩ := Option.map_eq_some_iff.1 hw <;>
    exact Option.map_eq_some_iff.2 ⟨d, by first | exact hg | exact Table.get?_of_erase hg, hw⟩

theorem Inv.serve {P : Parsers} (hi : Inv ns) (req : Request) : Inv (ns.serve P req) := by
  cases req with
  | workload req =>
    rw [Namespace.serve]
    split
    · rename_i h
      cases hd : WorkloadValidator.decodeWorkload ns req with
      | ok i => exact hi.putWorkload hd (WorkloadValidator.handle_ok h.1 hd h.2)
      | error e =>
        have hop : ¬(req.operation ≠ .create ∧ req.operation ≠ .update) := by
          rcases h.1 with h | h <;> simp [h]
        rw [WorkloadValidator.handle, if_neg hop, hd] at h
        exact absurd h.2 (by simp [Response.ok])
    · exact hi
  | litestream req =>
    rw [Namespace.serve]
    split
    · rename_i h
      exact hi.putLitestream (LitestreamValidator.handle_ok h.1 h.2)
    · exact hi
  | deleteWorkload k n =>
    refine hi.of_less (fun w => mem_deleteWorkload) (fun m l h => ?_)
    cases k <;> exact h
  | deleteLitestream n => exact hi.of_less (fun w h => h) (fun m l h => Table.get?_of_erase h)

theorem inv_after (P : Parsers) (reqs : List Request) : Inv (Namespace.after P reqs) := by
  induction reqs using List.reverseRecOn with
  | nil => exact inv_empty
  | append_singleton reqs req ih =>
    rw [Namespace.after, List.foldl_append]
    exact ih.serve req

/-! ## Every reachable namespace -/

theorem Writer.uses {k : WorkloadKind} {n l : String} {p : PodCount} {r : Litestream}
    (h : Writer ns k n p l r) : ∃ w ∈ listWorkloads ns, w.key = (k, n) ∧
      w.template.litestream = l ∧ (p.Many ↔ w.multiplePods = true) ∧ Uses ns w r.spec := by
  obtain ⟨⟨t, hw, rfl⟩, ha, hn, hg, hr⟩ := h
  have huses : ∀ {w : WorkloadInfo}, w.template = t → w.hasActivePods = true →
      Uses ns w r.spec := by
    intro w ht hact
    exact ⟨hact, ht ▸ hn, hr, r, ht ▸ hg, rfl⟩
  cases hw with
  | @deployment n d h =>
    refine ⟨deploymentWorkloadInfo n d (effectiveReplicas d.replicas),
      mem_listWorkloads.2 (by simp [Namespace.workload?, deploymentWorkloadInfo, h]), rfl, rfl, ?_,
      huses rfl (decide_eq_true ha)⟩
    exact (decide_eq_true_iff (p := (1 : Int) < effectiveReplicas d.replicas)).symm
  | @statefulSet n d h =>
    refine ⟨statefulSetWorkloadInfo n d (effectiveReplicas d.replicas),
      mem_listWorkloads.2 (by simp [Namespace.workload?, statefulSetWorkloadInfo, h]), rfl, rfl, ?_,
      huses rfl (decide_eq_true ha)⟩
    exact (decide_eq_true_iff (p := (1 : Int) < effectiveReplicas d.replicas)).symm
  | @daemonSet n d h =>
    exact ⟨daemonSetWorkloadInfo n d,
      mem_listWorkloads.2 (by simp [Namespace.workload?, daemonSetWorkloadInfo, h]), rfl, rfl,
      by simp [PodCount.Many, daemonSetWorkloadInfo], huses rfl rfl⟩

theorem Inv.singleWriter (hi : Inv ns) : SingleWriter ns := by
  constructor
  · intro k n p l r k' n' p' l' r' h h' hk
    obtain ⟨w, hw, hkey, hl, -, hu⟩ := h.uses
    obtain ⟨w', hw', hkey', hl', -, hu'⟩ := h'.uses
    have hno := hi.apart w hw w' hw' (by rw [hkey, hkey']; exact hk) _ _ hu hu'
    refine ⟨?_, fun d hd hd' => ?_⟩
    · rintro rfl
      have heq : r = r' := Option.some.inj (h.stored.symm.trans h'.stored)
      rw [← heq, share_self h.replicates] at hno
      cases hno
    · rw [share_iff.2 ⟨d, hd, hd'⟩] at hno
      cases hno
  · intro k n p l r h hmany
    obtain ⟨w, hw, -, -, hm, hu⟩ := h.uses
    rw [hi.single w hw _ hu] at hm
    exact absurd (hm.1 hmany) (by simp)

/-- Serial requests never lead to two writers of one destination. -/
theorem after_singleWriter (P : Parsers) (reqs : List Request) :
    SingleWriter (Namespace.after P reqs) :=
  (inv_after P reqs).singleWriter

/-- A resource, a workload that uses it, and a second one that is refused. -/
example :
    let template : PodTemplate := ⟨[( injectAnnotation, " app ")]⟩
    let database : DatabaseBinding :=
      { name := "app", path := "/data/app.db", replicate := some { replicaRef := "backup" } }
    let resource : Litestream := { spec := { databases := [database] } }
    let ns := Namespace.after .lenient [.litestream ⟨.create, "app", resource⟩,
      .workload ⟨.create, "web",
        .deployment "web" { template := template, strategyType := .recreate },
        fun _ h => .inl (Option.some.inj h)⟩,
      .workload ⟨.create, "", .statefulSet "db" { template := template }, fun _ _ => .inr rfl⟩]
    (ns.deployments.get? "web").isSome = true ∧ ns.statefulSets.get? "db" = none := by decide

end Controller.Webhook
