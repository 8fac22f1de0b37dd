import Mytools.Controller.Proof.Mounts
import Mytools.Controller.Proof.Valid
import Mytools.Controller.Webhook.Mutator

/-!
# Pod mutation

The fragments are built from a Pod and merged into it by name. Merging them again finds each of them
in its place, so that a second mutation changes nothing. What the Pod had before is kept.
-/

namespace Controller.Webhook

open Lib Config V1alpha1

/-! ## Volumes -/

section Volumes

variable {E : Semantic} {volumes merged : List Volume} {vs : List Volume}

theorem findVolume_append_of_some {name : String} {v : Volume}
    (h : findVolume volumes name = some v)
    (ws : List Volume) : findVolume (volumes ++ ws) name = some v := by
  unfold findVolume at h ⊢
  rw [List.find?_append, h]
  rfl

/-- The volumes that are there stay, in order; each of the others is there or a copy of it is. -/
theorem mergeVolumes_ok (h : mergeVolumes E volumes vs = .ok merged) :
    volumes <+: merged ∧
      ∀ v ∈ vs, ∃ e, findVolume merged v.name = some e ∧ E.volume e v = true := by
  induction vs generalizing volumes with
  | nil =>
    cases h
    exact ⟨List.prefix_refl _, by simp⟩
  | cons v vs ih =>
    cases hf : findVolume volumes v.name with
    | none =>
      simp only [mergeVolumes, hf] at h
      obtain ⟨⟨ws, hws⟩, hall⟩ := ih h
      refine ⟨⟨v :: ws, by simpa using hws⟩, fun w hw => ?_⟩
      rcases List.mem_cons.1 hw with rfl | hw
      · have hfound : findVolume (volumes ++ [w]) w.name = some w := by
          unfold findVolume at hf ⊢
          rw [List.find?_append, hf]
          simp
        exact ⟨w, hws ▸ findVolume_append_of_some hfound ws, E.volume_refl w⟩
      · exact hall w hw
    | some e =>
      simp only [mergeVolumes, hf, bind_ok_iff, require_eq_ok] at h
      obtain ⟨-, he, h⟩ := h
      obtain ⟨⟨ws, hws⟩, hall⟩ := ih h
      refine ⟨⟨ws, hws⟩, fun w hw => ?_⟩
      rcases List.mem_cons.1 hw with rfl | hw
      · exact ⟨e, hws ▸ findVolume_append_of_some hf ws, he⟩
      · exact hall w hw

/-- Volumes that are all there are merged without a change. -/
theorem mergeVolumes_found
    (h : ∀ v ∈ vs, ∃ e, findVolume volumes v.name = some e ∧ E.volume e v = true) :
    mergeVolumes E volumes vs = .ok volumes := by
  induction vs with
  | nil => rfl
  | cons v vs ih =>
    obtain ⟨e, hf, he⟩ := h v List.mem_cons_self
    simp only [mergeVolumes, hf, require, he, if_true]
    exact ih fun w hw => h w (List.mem_cons_of_mem _ hw)

end Volumes

/-! ## Init containers -/

section Containers

variable {existing injected : List Container}

theorem findContainer_eq_none {cs : List Container} {name : String} :
    findContainer cs name = none ↔ ∀ c ∈ cs, c.name ≠ name := by
  simp [findContainer]

theorem name_of_findContainer {cs : List Container} {name : String} {c : Container}
    (h : findContainer cs name = some c) : c.name = name := by
  simpa using List.find?_some h

/-- The container that takes the place of an injected one. -/
def placed (existing : List Container) (c : Container) : Container :=
  (findContainer existing c.name).getD c

theorem placed_name (existing : List Container) (c : Container) :
    (placed existing c).name = c.name := by
  unfold placed
  cases h : findContainer existing c.name with
  | none => rfl
  | some e => exact name_of_findContainer h

theorem mergeInitContainers_eq : mergeInitContainers existing injected =
    injected.map (placed existing) ++
      existing.filter fun c => (findContainer injected c.name).isNone := rfl

/-- With distinct names every injected container is found where it was put. -/
theorem findContainer_merged (hn : (injected.map (·.name)).Nodup) {c : Container}
    (hc : c ∈ injected) :
    findContainer (mergeInitContainers existing injected) c.name = some (placed existing c) := by
  have hfirst : ∀ cs : List Container, (cs.map (·.name)).Nodup → c ∈ cs →
      findContainer (cs.map (placed existing)) c.name = some (placed existing c) := by
    intro cs
    induction cs with
    | nil => exact fun _ h => absurd h List.not_mem_nil
    | cons d ds ih =>
      intro hnd hm
      rw [List.map_cons, List.nodup_cons] at hnd
      unfold findContainer
      rw [List.map_cons, List.find?_cons, placed_name]
      rcases List.mem_cons.1 hm with rfl | hm
      · simp
      · have hne : d.name ≠ c.name := fun he => hnd.1 (he ▸ List.mem_map_of_mem hm)
        simp only [hne, decide_false]
        exact ih hnd.2 hm
  unfold findContainer
  rw [mergeInitContainers_eq, List.find?_append, show List.find? _ _ = _ from hfirst injected hn hc]
  rfl

/-- Merging a second time finds everything in its place. -/
theorem mergeInitContainers_merged (hn : (injected.map (·.name)).Nodup) :
    mergeInitContainers (mergeInitContainers existing injected) injected =
      mergeInitContainers existing injected := by
  have hmap : injected.map (placed (mergeInitContainers existing injected)) =
      injected.map (placed existing) := by
    refine List.map_congr_left fun c hc => ?_
    rw [placed, findContainer_merged hn hc]
    rfl
  have hfilter : (mergeInitContainers existing injected).filter
        (fun c => (findContainer injected c.name).isNone) =
      existing.filter fun c => (findContainer injected c.name).isNone := by
    rw [mergeInitContainers_eq, List.filter_append, List.filter_filter]
    have hnil : (injected.map (placed existing)).filter
        (fun c => (findContainer injected c.name).isNone) = [] := by
      refine List.filter_eq_nil_iff.2 fun x hx hnone => ?_
      obtain ⟨c, hc, rfl⟩ := List.mem_map.1 hx
      rw [placed_name, Option.isNone_iff_eq_none, findContainer_eq_none] at hnone
      exact hnone c hc rfl
    rw [hnil, List.nil_append]
    simp
  calc mergeInitContainers (mergeInitContainers existing injected) injected
      = injected.map (placed (mergeInitContainers existing injected)) ++
          (mergeInitContainers existing injected).filter
            (fun c => (findContainer injected c.name).isNone) := rfl
    _ = mergeInitContainers existing injected := by rw [hmap, hfilter, mergeInitContainers_eq]

end Containers

/-! ## Security -/

/-- The settings of the Pod are kept. -/
def KeepsSecurity (current result : Option PodSecurityContext) : Prop :=
  ∀ c, current = some c → ∃ c', result = some c' ∧ (∀ g, c.fsGroup = some g → c'.fsGroup = some g) ∧
    (∀ q, c.fsGroupChangePolicy = some q → c'.fsGroupChangePolicy = some q) ∧ c'.rest = c.rest

theorem KeepsSecurity.refl (current : Option PodSecurityContext) : KeepsSecurity current current :=
  fun c hc => ⟨c, hc, fun _ h => h, fun _ h => h, rfl⟩

/-- Settings that are set are kept, and a second application finds the others set. -/
theorem applyPodSecurityContext_ok {current configured result : Option PodSecurityContext}
    (h : applyPodSecurityContext current configured = .ok result) :
    KeepsSecurity current result ∧ applyPodSecurityContext result configured = .ok result := by
  cases configured with
  | none =>
    cases h
    exact ⟨.refl _, rfl⟩
  | some conf =>
    cases hg : conf.fsGroup with
    | none =>
      simp only [applyPodSecurityContext, hg, Except.ok.injEq] at h ⊢
      exact ⟨h ▸ .refl current, trivial⟩
    | some g =>
      simp only [applyPodSecurityContext, hg, bind_ok_iff, require_eq_ok] at h ⊢
      obtain ⟨-, hgroup, -, hpolicy, h⟩ := h
      obtain rfl := pure_ok_iff.1 h
      constructor
      · rintro c rfl
        refine ⟨_, rfl, fun g' hg' => ?_, fun q hq => ?_, rfl⟩
        · simp [hg']
        · simp [hq]
      · refine ⟨(), fun g' hg' => ?_, (), fun p hp q hq => ?_, pure_ok_iff.2 ?_⟩
        · cases hf : (current.getD {}).fsGroup with
          | none => simpa [hf] using hg'.symm
          | some x =>
            have hx := hgroup x hf
            simp only [Option.getD_some, hf, Option.some_or, Option.mem_def,
              Option.some.injEq] at hg'
            exact hg' ▸ hx
        · cases hf : (current.getD {}).fsGroupChangePolicy with
          | none =>
            simp only [Option.getD_some, hf, Option.none_or, Option.mem_def] at hp
            exact Option.some.inj (hp.symm.trans hq)
          | some x =>
            have hx := hpolicy x hf q hq
            simp only [Option.getD_some, hf, Option.some_or, Option.mem_def,
              Option.some.injEq] at hp
            exact hp ▸ hx
        · cases hf : (current.getD {}).fsGroupChangePolicy <;> simp

/-! ## Application -/

section Apply

variable {E : Semantic} {pod pod' : Pod} {injection : PodInjection}

/-- What applying an injection has checked and made. -/
structure Applied (E : Semantic) (pod pod' : Pod) (injection : PodInjection) : Prop where
  volumes : mergeVolumes E pod.volumes injection.volumes = .ok pod'.volumes
  free : ∀ c ∈ injection.initContainers, findContainer pod.containers c.name = none
  same : ∀ c ∈ injection.initContainers, ∀ e ∈ findContainer pod.initContainers c.name,
    E.container e c = true
  initContainers : pod'.initContainers =
    mergeInitContainers pod.initContainers injection.initContainers
  security : applyPodSecurityContext pod.securityContext injection.podSecurityContext =
    .ok pod'.securityContext
  rest : pod' = { pod with volumes := pod'.volumes, initContainers := pod'.initContainers,
                           securityContext := pod'.securityContext }

theorem checkInitContainer_ok {c : Container} : checkInitContainer E pod c = .ok () ↔
    findContainer pod.containers c.name = none ∧
      ∀ e ∈ findContainer pod.initContainers c.name, E.container e c = true := by
  simp only [checkInitContainer, check_ok_iff, require_eq_ok, Option.isNone_iff_eq_none]

theorem applyInjection_ok_iff : applyInjection E pod injection = .ok pod' ↔
    Applied E pod pod' injection := by
  simp only [applyInjection, bind_ok_iff]
  constructor
  · rintro ⟨volumes, hv, u, hc, sec, hs, he⟩
    obtain rfl := pure_ok_iff.1 he
    have hall := forM_ok_iff.1 hc
    exact ⟨hv, fun c h => (checkInitContainer_ok.1 (hall c h)).1,
      fun c h => (checkInitContainer_ok.1 (hall c h)).2, rfl, hs, rfl⟩
  · intro h
    refine ⟨_, h.volumes, (), forM_ok_iff.2 fun c hc => checkInitContainer_ok.2
      ⟨h.free c hc, h.same c hc⟩, _, h.security, pure_ok_iff.2 ?_⟩
    rw [← h.initContainers]
    exact h.rest.symm

/-- Applying an injection to a Pod that has it changes nothing. -/
theorem Applied.again (h : Applied E pod pod' injection)
    (hn : (injection.initContainers.map (·.name)).Nodup) : Applied E pod' pod' injection := by
  have hcontainers : pod'.containers = pod.containers := by rw [h.rest]
  refine ⟨mergeVolumes_found (mergeVolumes_ok h.volumes).2, ?_, ?_, ?_,
    (applyPodSecurityContext_ok h.security).2, rfl⟩
  · rw [hcontainers]
    exact h.free
  · intro c hc e he
    rw [h.initContainers, findContainer_merged hn hc] at he
    cases he
    unfold placed
    cases hf : findContainer pod.initContainers c.name with
    | none => exact E.container_refl c
    | some e => exact h.same c hc e hf
  · rw [h.initContainers, mergeInitContainers_merged hn]

/-- The application containers and the annotations stay, so the target is the same. -/
theorem Applied.resolveTarget (h : Applied E pod pod' injection) (input : Input) :
    resolveTarget pod' input = Webhook.resolveTarget pod input := by
  rw [h.rest]
  rfl

theorem checkExtraVolumeMounts_mono
    (hv : ∀ name, (findVolume pod.volumes name).isSome = true →
      (findVolume pod'.volumes name).isSome = true) {volumes : List Volume}
    {generated : List VolumeMount} : ∀ {ms seen : List VolumeMount},
    checkExtraVolumeMounts pod volumes generated seen ms = .ok () →
    checkExtraVolumeMounts pod' volumes generated seen ms = .ok ()
  | [], _, _ => rfl
  | m :: ms, seen, h => by
    simp only [checkExtraVolumeMounts, check_ok_iff, require_eq_ok] at h ⊢
    obtain ⟨h1, h2, h3, h4, h5, h6, h7⟩ := h
    exact ⟨h1, h2, hv _ h3, h4, h5, h6, checkExtraVolumeMounts_mono hv h7⟩

variable {P : Parsers} {L : Library} {input : Input} {rendered : RenderedConfig}
  {target : ResolvedTarget} {configMapName defaultImage : String}

/-- The fragments are the same ones. -/
theorem Applied.buildInjection (h : Applied E pod pod' injection)
    (hb : buildInjection P L pod input rendered target configMapName defaultImage = .ok injection) :
    buildInjection P L pod' input rendered target configMapName defaultImage = .ok injection := by
  have hmount : databaseVolumeMount pod' target = databaseVolumeMount pod target := by
    rw [h.rest]
    rfl
  have hv : ∀ name, (findVolume pod.volumes name).isSome = true →
      (findVolume pod'.volumes name).isSome = true := by
    intro name hs
    obtain ⟨v, hv⟩ := Option.isSome_iff_exists.1 hs
    obtain ⟨ws, hws⟩ := (mergeVolumes_ok h.volumes).1
    rw [← hws, findVolume_append_of_some hv ws]
    rfl
  simp only [Webhook.buildInjection, bind_ok_iff, hmount] at hb ⊢
  obtain ⟨image, himage, mount, hm, u, hextra, hrest⟩ := hb
  exact ⟨image, himage, mount, hm, u, checkExtraVolumeMounts_mono hv hextra, hrest⟩

end Apply

/-! ## The injected containers -/

section Fragments

variable {P : Parsers} {L : Library} {pod : Pod} {input : Input} {rendered : RenderedConfig}
  {target : ResolvedTarget} {configMapName defaultImage : String} {injection : PodInjection}

theorem buildInjection_containers
    (h : buildInjection P L pod input rendered target configMapName defaultImage = .ok injection) :
    ∃ image mount g, injection.initContainers =
      input.databases.map (restoreContainer input rendered image mount g) ++
        if replicates rendered then [replicateContainer input rendered image mount g] else [] := by
  simp only [buildInjection, bind_ok_iff] at h
  obtain ⟨image, -, mount, -, -, -, -, -, -, -, -, -, h⟩ := h
  obtain rfl := pure_ok_iff.1 h
  exact ⟨image, mount, _, rfl⟩

/-- A sidecar is made if a database replicates. -/
theorem replicates_of_render {L : Library} (h : render L input = .ok rendered) :
    replicates rendered = input.databases.any (·.replicate.isSome) := by
  obtain ⟨parts, hp⟩ := render_ok h
  have hentries : input.databases.filterMap (replicaEntry L) = [] ↔
      input.databases.any (·.replicate.isSome) = false := by
    simp [replicaEntry, List.filterMap_eq_nil_iff]
  rcases hp.data with ⟨hnil, hd⟩ | ⟨doc, -, hne, hd⟩
  · have hlookup : (parts.flatMap (·.files)).reverse.lookup replicateConfigFile = none :=
      List.lookup_eq_none_iff.2 fun f hf => bne_iff_ne.2 fun he =>
        hp.ne_replicate (List.mem_reverse.1 hf) he.symm
    rw [replicates, hd, get?_writeAll, hlookup, hentries.1 hnil]
    rfl
  · have hany : input.databases.any (·.replicate.isSome) = true := by
      cases hb : input.databases.any (·.replicate.isSome) with
      | true => rfl
      | false => exact absurd (hentries.2 hb) hne
    rw [replicates, hd, get?_writeAll, hany]
    simp

/-- The names of the injected containers, in order. -/
def injectedNames (input : Input) : List String :=
  input.databases.map restoreContainerName ++
    if input.databases.any (·.replicate.isSome) then [replicateContainerName] else []

theorem injectedNames_nodup (hv : ValidInput input) : (injectedNames input).Nodup := by
  have hinj : ∀ d d' : Database, restoreContainerName d = restoreContainerName d' →
      d.name = d'.name := fun d d' h => by simpa [restoreContainerName] using h
  have hrestore : (input.databases.map restoreContainerName).Nodup := by
    have hp : input.databases.Pairwise fun d d' => d.name ≠ d'.name := List.pairwise_map.1 hv.names
    exact List.pairwise_map.2 (hp.imp fun hne he => hne (hinj _ _ he))
  have hne : ∀ d : Database, restoreContainerName d ≠ replicateContainerName := by
    intro d he
    have hp : restoreContainerNamePrefix.length = 19 := by decide
    have hr : replicateContainerName.length = 10 := by decide
    have hl := congrArg String.length he
    rw [restoreContainerName, String.length_append] at hl
    omega
  unfold injectedNames
  split
  · refine hrestore.append (List.nodup_singleton _) fun x hx hx' => ?_
    obtain ⟨d, -, rfl⟩ := List.mem_map.1 hx
    exact hne d (List.mem_singleton.1 hx')
  · simpa using hrestore

theorem buildInjection_names (hr : render L input = .ok rendered)
    (h : buildInjection P L pod input rendered target configMapName defaultImage = .ok injection) :
    injection.initContainers.map (·.name) = injectedNames input := by
  obtain ⟨image, mount, g, he⟩ := buildInjection_containers h
  rw [he, injectedNames, ← replicates_of_render hr, List.map_append, List.map_map]
  congr 1
  split <;> rfl

end Fragments

/-! ## Mutation -/

/-- What a mutation leaves of the Pod, and what it adds for the databases of the input. -/
structure Preserves (E : Semantic) (input : Input) (rendered : RenderedConfig) (pod pod' : Pod) :
    Prop where
  containers : pod'.containers = pod.containers
  volumes : pod.volumes <+: pod'.volumes
  initContainers : ∃ image mount g restores sidecars,
    pod'.initContainers = restores ++ sidecars ++
      pod.initContainers.filter (fun c => c.name ∉ injectedNames input) ∧
    List.Forall₂ (fun d c => c.name = restoreContainerName d ∧
      E.container c (restoreContainer input rendered image mount g d) = true) input.databases
      restores ∧
    List.Forall₂ (fun s c => c.name = replicateContainerName ∧ E.container c s = true)
      (if input.databases.any (·.replicate.isSome) then
        [replicateContainer input rendered image mount g] else []) sidecars
  security : KeepsSecurity pod.securityContext pod'.securityContext
  rest : pod' = { pod with volumes := pod'.volumes, initContainers := pod'.initContainers,
                           securityContext := pod'.securityContext }

section Mutate

variable {m : PodMutator} {objects : Objects} {pod pod' : Pod} {name : String}

/-- The steps of an injection that succeeds. -/
structure Steps (m : PodMutator) (objects : Objects) (pod : Pod) (name : String) (pod' : Pod)
    (resource : Litestream) (input : Input) (rendered : RenderedConfig) (target : ResolvedTarget)
    (injection : PodInjection) : Prop where
  «namespace» : pod.namespace ≠ ""
  os : pod.os ≠ some "windows"
  found : objects.litestreams.get? name = some resource
  resolved : resolve m.parsers objects.replicas resource.spec = .ok input
  ready : renderReadyResource m.library name resource input = .ok rendered
  published : verifyConfigMap m.isControlledBy objects name resource rendered = .ok ()
  free : validateReplicationConflict objects pod name resource = .ok ()
  targeted : resolveTarget pod input = .ok target
  built : buildInjection m.parsers m.library pod input rendered target
    (configMapName name resource) m.defaultImage = .ok injection
  applied : Applied m.semantic pod pod' injection

theorem getLitestream_ok {resource : Litestream} :
    PodMutator.getLitestream objects name = .ok resource ↔
      objects.litestreams.get? name = some resource := by
  unfold PodMutator.getLitestream
  cases objects.litestreams.get? name <;> simp

theorem injected_ok_iff : m.injected objects pod name = .ok pod' ↔
    ∃ resource input rendered target injection,
      Steps m objects pod name pod' resource input rendered target injection := by
  simp only [PodMutator.injected, bind_ok_iff, require_eq_ok, mapError_ok_iff, getLitestream_ok,
    applyInjection_ok_iff]
  constructor
  · rintro ⟨-, h1, -, h2, resource, h3, input, h4, rendered, h5, ⟨⟩, h6, ⟨⟩, h7, target, h8,
      injection, h9, h10⟩
    exact ⟨resource, input, rendered, target, injection, h1, h2, h3, h4, h5, h6, h7, h8, h9, h10⟩
  · rintro ⟨resource, input, rendered, target, injection, h⟩
    exact ⟨(), h.namespace, (), h.os, resource, h.found, input, h.resolved, rendered, h.ready, (),
      h.published, (), h.free, target, h.targeted, injection, h.built, h.applied⟩

theorem render_of_ready {L : Library} {resource : Litestream} {input : Input}
    {rendered : RenderedConfig} (h : renderReadyResource L name resource input = .ok rendered) :
    render L input = .ok rendered := by
  simp only [renderReadyResource, bind_ok_iff, mapError_ok_iff] at h
  obtain ⟨-, -, -, -, r, hr, -, -, -, -, he⟩ := h
  rwa [← pure_ok_iff.1 he]

variable {resource : Litestream} {input : Input} {rendered : RenderedConfig}
  {target : ResolvedTarget} {injection : PodInjection}

theorem Steps.names (h : Steps m objects pod name pod' resource input rendered target injection) :
    injection.initContainers.map (·.name) = injectedNames input :=
  buildInjection_names (render_of_ready h.ready) h.built

theorem Steps.names_nodup
    (h : Steps m objects pod name pod' resource input rendered target injection) :
    (injection.initContainers.map (·.name)).Nodup := by
  obtain ⟨parts, hp⟩ := render_ok (render_of_ready h.ready)
  rw [h.names]
  exact injectedNames_nodup (validateInput_ok hp.valid)

/-- The same steps succeed on the mutated Pod, which they leave as it is. -/
theorem Steps.again (h : Steps m objects pod name pod' resource input rendered target injection) :
    Steps m objects pod' name pod' resource input rendered target injection where
  «namespace» := by
    rw [h.applied.rest]
    exact h.namespace
  os := by
    rw [h.applied.rest]
    exact h.os
  found := h.found
  resolved := h.resolved
  ready := h.ready
  published := h.published
  free := by
    rw [h.applied.rest]
    exact h.free
  targeted := (h.applied.resolveTarget input).trans h.targeted
  built := h.applied.buildInjection h.built
  applied := h.applied.again h.names_nodup

theorem Steps.preserves
    (h : Steps m objects pod name pod' resource input rendered target injection) :
    Preserves m.semantic input rendered pod pod' := by
  refine ⟨by rw [h.applied.rest], (mergeVolumes_ok h.applied.volumes).1, ?_,
    (applyPodSecurityContext_ok h.applied.security).1, h.applied.rest⟩
  obtain ⟨image, mount, g, he⟩ := buildInjection_containers h.built
  have hsame : ∀ c ∈ injection.initContainers,
      m.semantic.container (placed pod.initContainers c) c = true := by
    intro c hc
    unfold placed
    cases hf : findContainer pod.initContainers c.name with
    | none => exact m.semantic.container_refl c
    | some e => exact h.applied.same c hc e hf
  have hfilter : ∀ c : Container, (findContainer injection.initContainers c.name).isNone =
      decide (c.name ∉ injectedNames input) := by
    intro c
    rw [← h.names, Bool.eq_iff_iff, Option.isNone_iff_eq_none, findContainer_eq_none,
      decide_eq_true_eq]
    simp
  refine ⟨image, mount, g,
    (input.databases.map (restoreContainer input rendered image mount g)).map
      (placed pod.initContainers),
    (if replicates rendered then [replicateContainer input rendered image mount g] else []).map
      (placed pod.initContainers), ?_, ?_, ?_⟩
  · rw [h.applied.initContainers, mergeInitContainers_eq, ← List.map_append, ← he]
    simp only [hfilter]
  · rw [List.map_map, List.forall₂_map_right_iff, List.forall₂_same]
    refine fun d hd => ⟨placed_name _ _, hsame _ ?_⟩
    rw [he]
    exact List.mem_append_left _ (List.mem_map_of_mem hd)
  · rw [← replicates_of_render (render_of_ready h.ready), List.forall₂_map_right_iff,
      List.forall₂_same]
    intro s hs
    refine ⟨(placed_name _ _).trans ?_, hsame _ ?_⟩
    · split at hs
      · obtain rfl := List.mem_singleton.1 hs
        rfl
      · cases hs
    · rw [he]
      exact List.mem_append_right _ hs

end Mutate

/-- What `Mutate` does to a Pod: nothing without an annotation, and otherwise the injection of the
resource that the annotation names. -/
def Mutated (m : PodMutator) (objects : Objects) (pod pod' : Pod) : Prop :=
  (podLitestream pod = "" ∧ pod' = pod) ∨
  ∃ resource input rendered, objects.litestreams.get? (podLitestream pod) = some resource ∧
    resolve m.parsers objects.replicas resource.spec = .ok input ∧
    render m.library input = .ok rendered ∧ Preserves m.semantic input rendered pod pod'

/-- Mutation keeps what the Pod had, a second mutation changes nothing, and a Pod that is refused is
left as it was. -/
theorem mutate_idempotent (m : PodMutator) (cluster : String → Objects) (pod : Pod) :
    ((m.mutate cluster pod).1 = .ok () →
      m.mutate cluster (m.mutate cluster pod).2 = (.ok (), (m.mutate cluster pod).2) ∧
      Mutated m (cluster pod.namespace) pod (m.mutate cluster pod).2) ∧
    ∀ e, (m.mutate cluster pod).1 = .error e → (m.mutate cluster pod).2 = pod := by
  by_cases hname : podLitestream pod = ""
  · have hm : m.mutate cluster pod = (.ok (), pod) := by simp [PodMutator.mutate, hname]
    rw [hm]
    exact ⟨fun _ => ⟨hm, .inl ⟨hname, rfl⟩⟩, fun _ _ => rfl⟩
  cases hi : m.injected (cluster pod.namespace) pod (podLitestream pod) with
  | error e =>
    have hm : m.mutate cluster pod = (.error e, pod) := by simp [PodMutator.mutate, hname, hi]
    rw [hm]
    exact ⟨(nomatch ·), fun _ _ => rfl⟩
  | ok pod' =>
    have hm : m.mutate cluster pod = (.ok (), pod') := by simp [PodMutator.mutate, hname, hi]
    obtain ⟨resource, input, rendered, target, injection, h⟩ := injected_ok_iff.1 hi
    have hsame : podLitestream pod' = podLitestream pod ∧ pod'.namespace = pod.namespace := by
      rw [h.applied.rest]
      exact ⟨rfl, rfl⟩
    have hagain : m.mutate cluster pod' = (.ok (), pod') := by
      have hi' := injected_ok_iff.2 ⟨resource, input, rendered, target, injection, h.again⟩
      simp [PodMutator.mutate, hsame, hname, hi']
    rw [hm]
    exact ⟨fun _ => ⟨hagain, .inr ⟨resource, input, rendered, h.found, h.resolved,
      render_of_ready h.ready, h.preserves⟩⟩, fun _ => (nomatch ·)⟩

/-! ## A Pod that is injected -/

namespace Admitted

def mutator : PodMutator where
  parsers := .lenient
  library := Nested.library "/data/b.db"
  semantic := ⟨fun v w => v = w, fun c d => c = d, by simp, by simp⟩
  isControlledBy configMap resource :=
    configMap.ownerReferences.any fun owner => owner.controller && owner.uid = resource.uid
  defaultImage := Nested.image

def resource (hash : String) : Litestream where
  uid := "uid"
  spec := Nested.spec "/data/b.db"
  status := { configMapName := "litestream-app", configHash := hash,
              conditions := [{ type := readyConditionType, status := true }] }

/-- The resource is ready, and its configuration is published. -/
def objects (r : RenderedConfig) : Objects where
  litestreams := Table.empty.set "app" (resource r.hash)
  replicas := fileReplicas ["dst"]
  configMaps := Table.empty.set "litestream-app" ⟨[⟨"uid", true⟩], r.data⟩
  pods := []

def pod : Pod := { Nested.pod with annotations := [( injectAnnotation, "app")] }

theorem mutates : (renderSpec .lenient (fileReplicas ["dst"]) (Nested.library "/data/b.db")
      (Nested.spec "/data/b.db")).map
      (fun r => (mutator.mutate (fun _ => objects r) pod).1.toOption) = some (some ()) := by
  decide +kernel

end Admitted

theorem mutate_admitted : ∃ objects,
    (Admitted.mutator.mutate (fun _ => objects) Admitted.pod).1 = .ok () ∧
    Admitted.mutator.mutate (fun _ => objects)
      (Admitted.mutator.mutate (fun _ => objects) Admitted.pod).2 =
        (.ok (), (Admitted.mutator.mutate (fun _ => objects) Admitted.pod).2) := by
  obtain ⟨r, -, hr⟩ := Option.map_eq_some_iff.1 Admitted.mutates
  have hok := toOption_eq_some hr
  exact ⟨Admitted.objects r, hok,
    ((mutate_idempotent Admitted.mutator (fun _ => Admitted.objects r) Admitted.pod).1 hok).1⟩

end Controller.Webhook
