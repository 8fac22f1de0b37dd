import Mathlib.Data.List.MinMax
import Mytools.Controller.Proof.Render
import Mytools.Controller.Webhook.Inject

/-!
# The files that the injected containers see

Which volume a path leads to is decided, in each container, by the deepest mount over the path. The
injected containers get the mount of the target, which contains every database, and mounts of their
own. They see the files of the application exactly if nothing lies over the target at the path of a
database, or the same mount does in both.
-/

namespace Controller.Webhook

open Lib Config V1alpha1

/-! ## Backing mounts -/

/-- The directory that a volume is mounted at. -/
def mountDir (m : VolumeMount) : String := Path.clean m.mountPath

def Covers (p : String) (m : VolumeMount) : Prop := pathContains (mountDir m) p = true

instance (p : String) (m : VolumeMount) : Decidable (Covers p m) :=
  inferInstanceAs (Decidable (pathContains (mountDir m) p = true))

/-- A path as seen from a directory that contains it. -/
def relativeTo (dir p : String) : String :=
  if p = dir then "" else trimPrefix p (if dir = "/" then "/" else dir ++ "/")

structure Location where
  volume : String
  subPath : String
  subPathExpr : String
  relative : String
  deriving DecidableEq, Repr

/-- Where a path leads to through a mount. -/
def location (p : String) (m : VolumeMount) : Location :=
  ⟨m.name, m.subPath, m.subPathExpr, relativeTo (mountDir m) p⟩

/-- The mount backs the path: it is the deepest one over it. -/
structure Backs (mounts : List VolumeMount) (p : String) (m : VolumeMount) : Prop where
  mem : m ∈ mounts
  covers : Covers p m
  deepest : ∀ m' ∈ mounts, Covers p m' → len (mountDir m') ≤ len (mountDir m)

/-- The path is backed in both containers, and it leads to the same location. -/
structure SameBacking (app injected : List VolumeMount) (p : String) : Prop where
  app_backed : ∃ m, Backs app p m
  injected_backed : ∃ n, Backs injected p n
  same : ∀ m n, Backs app p m → Backs injected p n → location p m = location p n

theorem exists_backs {mounts : List VolumeMount} {p : String} {m : VolumeMount} (hm : m ∈ mounts)
    (hc : Covers p m) : ∃ m, Backs mounts p m := by
  let above := mounts.filter fun m => decide (Covers p m)
  have hmem : ∀ m', m' ∈ above ↔ m' ∈ mounts ∧ Covers p m' := by
    intro m'
    rw [List.mem_filter, decide_eq_true_eq]
  cases hx : above.argmax fun m => len (mountDir m) with
  | none =>
    rw [List.argmax_eq_none] at hx
    have := (hmem m).2 ⟨hm, hc⟩
    rw [hx] at this
    exact absurd this List.not_mem_nil
  | some top =>
    have htop := (hmem top).1 (List.argmax_mem hx)
    refine ⟨top, htop.1, htop.2, fun m' hm' hc' => ?_⟩
    exact List.le_of_mem_argmax (f := fun m => len (mountDir m)) ((hmem m').2 ⟨hm', hc'⟩) hx

/-! ## Relative paths -/

/-- A path that a directory contains, and what is left of it. -/
theorem relativeTo_cases {dir p : String} (habs : Path.isAbs p = true)
    (h : pathContains dir p = true) :
    (p = dir ∧ relativeTo dir p = "") ∨
    (p ≠ dir ∧ dir = "/" ∧ p = "/" ++ relativeTo dir p) ∨
    (p ≠ dir ∧ dir ≠ "/" ∧ p = dir ++ "/" ++ relativeTo dir p) := by
  by_cases he : p = dir
  · exact .inl ⟨he, by simp [relativeTo, he]⟩
  have hcut : ∀ q : String, hasPrefix p q = true → p = q ++ trimPrefix p q := by
    intro q hq
    obtain ⟨cs, hcs⟩ := hasPrefix_iff.1 hq
    apply String.toList_injective
    rw [String.toList_append, trimPrefix, if_pos hq, String.toList_ofList, ← hcs]
    simp
  unfold relativeTo
  rw [if_neg he]
  by_cases hr : dir = "/"
  · rw [if_pos hr]
    exact .inr (.inl ⟨he, hr, hcut "/" habs⟩)
  · rw [if_neg hr]
    refine .inr (.inr ⟨he, hr, hcut _ ?_⟩)
    simpa [pathContains, hr, he] using h

/-- How deep a mount is can be read off the path and what is left of it. -/
theorem len_mountDir_eq {q : String} (habs : Path.isAbs q = true) {m n : VolumeMount}
    (hm : Covers (Path.clean q) m) (hn : Covers (Path.clean q) n)
    (h : location (Path.clean q) m = location (Path.clean q) n) :
    len (mountDir m) = len (mountDir n) := by
  have hrel : relativeTo (mountDir m) (Path.clean q) = relativeTo (mountDir n) (Path.clean q) :=
    congrArg Location.relative h
  have hne : ∀ x : VolumeMount, mountDir x ≠ "" := fun x => Path.clean_ne_empty x.mountPath
  have hslash : ∀ x : VolumeMount, Path.clean q ≠ mountDir x ++ "/" := fun x =>
    Path.clean_ne_append_slash habs (hne x)
  have habs' := Path.isAbs_clean_self habs
  have hlen : ∀ a b : String, len (a ++ b) = len a + len b :=
    fun a b => String.utf8ByteSize_append
  have hpos : ∀ x : VolumeMount, len (mountDir x) ≠ 0 := fun x h0 =>
    hne x (String.utf8ByteSize_eq_zero_iff.1 h0)
  rcases relativeTo_cases habs' hm with ⟨h1, r1⟩ | ⟨h1, d1, r1⟩ | ⟨h1, d1, r1⟩ <;>
    rcases relativeTo_cases habs' hn with ⟨h2, r2⟩ | ⟨h2, d2, r2⟩ | ⟨h2, d2, r2⟩
  · rw [← h1, ← h2]
  · rw [← hrel, r1, String.append_empty] at r2
    exact absurd (r2.trans d2.symm) h2
  · rw [← hrel, r1, String.append_empty] at r2
    exact absurd r2 (hslash n)
  · rw [hrel, r2, String.append_empty] at r1
    exact absurd (r1.trans d1.symm) h1
  · rw [d1, d2]
  · have hl := congrArg len (r1.symm.trans r2)
    rw [hlen, hlen, hlen, hrel] at hl
    exact absurd (by omega) (hpos n)
  · rw [hrel, r2, String.append_empty] at r1
    exact absurd r1 (hslash m)
  · have hl := congrArg len (r1.symm.trans r2)
    rw [hlen, hlen, hlen, hrel] at hl
    exact absurd (by omega) (hpos m)
  · have hl := congrArg len (r1.symm.trans r2)
    rw [hlen, hlen, hlen, hlen, hrel] at hl
    omega

/-! ## Mounts over the target -/

/-- At the path `p` nothing but mounts of the target's location lie over the target `t`; or the same
mount lies over it in the application and among the added ones, and nothing else over that. -/
def TargetSeen (t : VolumeMount) (app added : List VolumeMount) (p : String) : Prop :=
  (∀ m ∈ app ++ added, Covers p m → len (mountDir t) ≤ len (mountDir m) →
    location p m = location p t) ∨
  ∃ m ∈ app, ∃ n ∈ added, Covers p m ∧ Covers p n ∧ location p m = location p n ∧
    len (mountDir t) ≤ len (mountDir m) ∧
    ∀ m' ∈ app ++ added, Covers p m' → len (mountDir m) ≤ len (mountDir m') →
      location p m' = location p m

section Seen

variable {app added injected : List VolumeMount} {t copy : VolumeMount} {q : String}

/-- The injected container has a copy of the target's mount and the added mounts. -/
theorem sameBacking_iff (habs : Path.isAbs q = true) (ht : t ∈ app) (hc : Covers (Path.clean q) t)
    (hdir : mountDir copy = mountDir t)
    (hloc : location (Path.clean q) copy = location (Path.clean q) t)
    (hmem : ∀ n, n ∈ injected ↔ n = copy ∨ n ∈ added) :
    SameBacking app injected (Path.clean q) ↔ TargetSeen t app added (Path.clean q) := by
  have hcopy : Covers (Path.clean q) copy := by
    unfold Covers
    rw [hdir]
    exact hc
  have hin : copy ∈ injected := (hmem copy).2 (.inl rfl)
  constructor
  · intro ⟨⟨a, ha⟩, ⟨b, hb⟩, hsame⟩
    have hab := hsame a b ha hb
    have hdepth := len_mountDir_eq habs ha.covers hb.covers hab
    have hat := ha.deepest t ht hc
    -- a mount at least as deep as the backing one backs the path itself
    have happ : ∀ m ∈ app, Covers (Path.clean q) m → len (mountDir a) ≤ len (mountDir m) →
        location (Path.clean q) m = location (Path.clean q) a := fun m hm hcm hle =>
      (hsame m b ⟨hm, hcm, fun m' hm' hc' => (ha.deepest m' hm' hc').trans hle⟩ hb).trans hab.symm
    have hadd : ∀ m ∈ added, Covers (Path.clean q) m → len (mountDir a) ≤ len (mountDir m) →
        location (Path.clean q) m = location (Path.clean q) a := fun m hm hcm hle =>
      (hsame a m ha ⟨(hmem m).2 (.inr hm), hcm, fun m' hm' hc' =>
        (hb.deepest m' hm' hc').trans (hdepth ▸ hle)⟩).symm
    have hall : ∀ m ∈ app ++ added, Covers (Path.clean q) m → len (mountDir a) ≤ len (mountDir m) →
        location (Path.clean q) m = location (Path.clean q) a := fun m hm =>
      (List.mem_append.1 hm).elim (happ m) (hadd m)
    rcases (hmem b).1 hb.mem with rfl | hbadd
    · refine .inl fun m hm hcm hle => ?_
      rw [hdir] at hdepth
      rw [hall m hm hcm (hdepth ▸ hle), hab, hloc]
    · exact .inr ⟨a, ha.mem, b, hbadd, ha.covers, hb.covers, hab, hat, hall⟩
  · intro h
    refine ⟨exists_backs ht hc, exists_backs hin hcopy, fun m n hm hn => ?_⟩
    have hmt := hm.deepest t ht hc
    have hnt := hn.deepest copy hin hcopy
    rw [hdir] at hnt
    rcases h with h | ⟨a, ha, b, hb, hca, hcb, hab, hat, hall⟩
    · rw [h m (List.mem_append_left _ hm.mem) hm.covers hmt]
      rcases (hmem n).1 hn.mem with rfl | hadd
      · exact hloc.symm
      · exact (h n (List.mem_append_right _ hadd) hn.covers hnt).symm
    · have hdepth := len_mountDir_eq habs hca hcb hab
      rw [hall m (List.mem_append_left _ hm.mem) hm.covers (hm.deepest a ha hca)]
      have hnb := hn.deepest b ((hmem b).2 (.inr hb)) hcb
      rcases (hmem n).1 hn.mem with rfl | hadd
      · rw [hdir] at hnb
        rw [hloc, hall t (List.mem_append_left _ ht) hc (hdepth ▸ hnb)]
      · exact (hall n (List.mem_append_right _ hadd) hn.covers (hdepth ▸ hnb)).symm

end Seen

/-! ## What resolution and injection do -/

theorem cleanDatabasePaths_ok : ∀ {dbs : List Database} {paths : List String},
    cleanDatabasePaths dbs = .ok paths →
    paths = dbs.map (fun d => Path.clean d.path) ∧ ∀ d ∈ dbs, Path.isAbs d.path = true
  | [], paths, h => by
    cases h
    exact ⟨rfl, by simp⟩
  | d :: ds, paths, h => by
    simp only [cleanDatabasePaths, bind_ok_iff, require_eq_ok] at h
    obtain ⟨-, habs, ps, hps, he⟩ := h
    obtain ⟨rfl, hall⟩ := cleanDatabasePaths_ok hps
    obtain rfl := pure_ok_iff.1 he
    refine ⟨rfl, fun d' hd' => ?_⟩
    rcases List.mem_cons.1 hd' with rfl | hd'
    · exact habs
    · exact hall d' hd'

/-- The target is a mount of the container, and it contains every database. -/
structure Targets (input : Input) (target : ResolvedTarget) : Prop where
  absolute : ∀ d ∈ input.databases, Path.isAbs d.path = true
  mountPath : Path.isAbs target.mountPath = true
  contains : ∀ d ∈ input.databases, pathContains target.mountPath (Path.clean d.path) = true

theorem resolveTarget_ok {pod : Pod} {input : Input} {target : ResolvedTarget}
    (h : resolveTarget pod input = .ok target) : Targets input target := by
  simp only [resolveTarget, bind_ok_iff, require_eq_ok] at h
  obtain ⟨paths, hpaths, -, -, -, -, h⟩ := h
  obtain ⟨rfl, habs⟩ := cleanDatabasePaths_ok hpaths
  split at h
  · rename_i t ht
    cases h
    have hmem : target ∈ mostSpecific (candidates _ _ _ _) := ht ▸ List.mem_singleton_self target
    obtain ⟨x, -, hx⟩ := List.mem_flatMap.1 (List.mem_of_mem_filter hmem)
    have hx' : target ∈ containerCandidates (configured pod.annotations volumeAnnotation
        input.injection.volume) (input.databases.map fun d => Path.clean d.path) x.2 x.1 := by
      by_cases hn : ∀ n ∈ configured pod.annotations targetContainerAnnotation
          input.injection.targetContainer, x.1.name = n
      · simpa only [if_pos hn] using hx
      · simp only [if_neg hn, List.not_mem_nil] at hx
    obtain ⟨m, -, hm⟩ := List.mem_filterMap.1 hx'
    split at hm
    · rename_i hok
      cases hm
      exact ⟨habs, hok.2.1, fun d hd => List.all_eq_true.1 hok.2.2 _
        (List.mem_map_of_mem (f := fun d : Database => Path.clean d.path) hd)⟩
    · cases hm
  · cases h

/-- The mount of the application container that the target stands for. -/
def targetMount (pod : Pod) (target : ResolvedTarget) : Option (Container × VolumeMount) := do
  let c ← pod.containers[target.containerIndex]?
  let m ← c.volumeMounts.find? fun m =>
    m.name = target.volumeName ∧ Path.clean m.mountPath = target.mountPath
  pure (c, m)

theorem databaseVolumeMount_ok {pod : Pod} {target : ResolvedTarget} {copy : VolumeMount}
    (h : databaseVolumeMount pod target = .ok copy) : ∃ c t,
      targetMount pod target = some (c, t) ∧ copy = { t with
        mountPath := target.mountPath, readOnly := false, recursiveReadOnly := none } := by
  unfold databaseVolumeMount at h
  split at h
  · cases h
  · rename_i c hc
    split at h
    · cases h
    · rename_i t ht
      split at h
      · cases h
      · cases h
        refine ⟨c, t, ?_, rfl⟩
        simp only [targetMount, hc, ht, Option.bind_eq_bind, Option.bind_some]
        rfl

theorem targetMount_spec {pod : Pod} {target : ResolvedTarget} {c : Container} {t : VolumeMount}
    (h : targetMount pod target = some (c, t)) :
    pod.containers[target.containerIndex]? = some c ∧ t ∈ c.volumeMounts ∧
      mountDir t = target.mountPath := by
  simp only [targetMount, Option.bind_eq_bind, Option.bind_eq_some_iff, Option.pure_def,
    Option.some.injEq, Prod.mk.injEq] at h
  obtain ⟨c', hc, t', ht, rfl, rfl⟩ := h
  have hp := List.find?_some ht
  simp only [decide_eq_true_eq] at hp
  exact ⟨hc, List.mem_of_find?_eq_some ht, hp.2⟩

/-! ## The added mounts -/

/-- The mount of a purpose's credential files, if it has any. -/
def secretMount (L : Library) (credentials : List CredentialBinding) (purpose : String) :
    Option VolumeMount :=
  let sources := secretProjections credentials purpose
  if sources = [] then none
  else some { name := secretVolumeName L sources, mountPath := secretMountDir, readOnly := true }

/-- The mounts beside the target's in the injected container of a purpose. -/
def addedMounts (L : Library) (input : Input) (rendered : RenderedConfig) (purpose : String) :
    List VolumeMount :=
  configMount :: input.injection.extraVolumeMounts ++
    (secretMount L rendered.credentials purpose).toList

theorem secretMounts_foldl (L : Library) (credentials : List CredentialBinding) (ps : List String)
    (g : Generated) :
    (ps.foldl (Generated.addSecretMount L credentials) g).secretMounts = g.secretMounts ++
      ps.filterMap fun p => (secretMount L credentials p).map (p, ·) := by
  induction ps generalizing g with
  | nil => simp
  | cons p ps ih =>
    rw [List.foldl_cons, ih]
    by_cases hs : secretProjections credentials p = []
    · simp [Generated.addSecretMount, secretMount, hs]
    · simp [Generated.addSecretMount, secretMount, hs]

theorem lookup_filterMap {β : Type} (f : String → Option β) {ps : List String} {p : String}
    (hp : p ∈ ps) : (ps.filterMap fun q => (f q).map (q, ·)).lookup p = f p := by
  have hmiss : ∀ qs : List String, f p = none →
      (qs.filterMap fun q => (f q).map (q, ·)).lookup p = none := by
    intro qs hf
    refine List.lookup_eq_none_iff.2 fun x hx => ?_
    obtain ⟨q, -, hq⟩ := List.mem_filterMap.1 hx
    obtain ⟨b, hb, rfl⟩ := Option.map_eq_some_iff.1 hq
    refine bne_iff_ne.2 fun he => ?_
    rw [he, hb] at hf
    cases hf
  induction ps with
  | nil => cases hp
  | cons q ps ih =>
    rw [List.filterMap_cons]
    by_cases he : p = q
    · subst he
      cases hf : f p with
      | none => exact hmiss ps hf
      | some b => simp
    · have hps := ih ((List.mem_cons.1 hp).resolve_left he)
      cases hf : f q with
      | none => exact hps
      | some b => simpa [List.lookup_cons, beq_eq_false_iff_ne.2 he] using hps

theorem lookup_secretMounts (L : Library) {input : Input} {rendered : RenderedConfig}
    (configMapName : String) {purpose : String} (hp : purpose ∈ purposes input rendered) :
    (generatedVolumes L input rendered configMapName).secretMounts.lookup purpose =
      secretMount L rendered.credentials purpose := by
  rw [generatedVolumes, secretMounts_foldl, List.nil_append]
  exact lookup_filterMap (secretMount L rendered.credentials) hp

/-- Each injected container has the copy of the target's mount and the mounts of its purpose. -/
structure Injects (L : Library) (input : Input) (rendered : RenderedConfig) (copy : VolumeMount)
    (injection : PodInjection) : Prop where
  purpose : ∀ c ∈ injection.initContainers, ∃ purpose ∈ purposes input rendered,
    ∀ m, m ∈ c.volumeMounts ↔ m = copy ∨ m ∈ addedMounts L input rendered purpose
  container : ∀ purpose ∈ purposes input rendered, ∃ c ∈ injection.initContainers,
    ∀ m, m ∈ c.volumeMounts ↔ m = copy ∨ m ∈ addedMounts L input rendered purpose

theorem buildInjection_ok {P : Parsers} {L : Library} {pod : Pod} {input : Input}
    {rendered : RenderedConfig} {target : ResolvedTarget} {configMapName defaultImage : String}
    {injection : PodInjection}
    (h : buildInjection P L pod input rendered target configMapName defaultImage = .ok injection) :
    ∃ copy, databaseVolumeMount pod target = .ok copy ∧
      Injects L input rendered copy injection := by
  simp only [buildInjection, bind_ok_iff] at h
  obtain ⟨image, -, copy, hcopy, -, -, -, -, -, -, -, -, h⟩ := h
  obtain rfl := pure_ok_iff.1 h
  refine ⟨copy, hcopy, ?_⟩
  have hmounts : ∀ purpose ∈ purposes input rendered, ∀ m,
      m ∈ containerMounts input copy (generatedVolumes L input rendered configMapName) purpose ↔
        m = copy ∨ m ∈ addedMounts L input rendered purpose := by
    intro purpose hp m
    rw [containerMounts, lookup_secretMounts L configMapName hp]
    simp only [addedMounts, List.mem_append, List.mem_cons, List.not_mem_nil, or_false, or_assoc,
      or_left_comm]
  have hrestore : ∀ d ∈ input.databases, restoreContainerPurpose d.name ∈ purposes input rendered :=
    fun d hd => List.mem_append_left _
      (List.mem_map_of_mem (f := fun d : Database => restoreContainerPurpose d.name) hd)
  constructor
  · intro c hc
    rcases List.mem_append.1 hc with hc | hc
    · obtain ⟨d, hd, rfl⟩ := List.mem_map.1 hc
      exact ⟨_, hrestore d hd, hmounts _ (hrestore d hd)⟩
    · split at hc
      · rename_i hr
        obtain rfl := List.mem_singleton.1 hc
        have hp : replicateContainerPurpose ∈ purposes input rendered :=
          List.mem_append_right _ (by rw [if_pos hr]; exact List.mem_singleton_self _)
        exact ⟨_, hp, hmounts _ hp⟩
      · cases hc
  · intro purpose hp
    rcases List.mem_append.1 hp with hp' | hp'
    · obtain ⟨d, hd, rfl⟩ := List.mem_map.1 hp'
      exact ⟨_, List.mem_append_left _ (List.mem_map_of_mem hd), hmounts _ hp⟩
    · split at hp'
      · rename_i hr
        obtain rfl := List.mem_singleton.1 hp'
        exact ⟨_, List.mem_append_right _ (by rw [if_pos hr]; exact List.mem_singleton_self _),
          hmounts _ hp⟩
      · cases hp'

/-! ## The same files -/

/-- Every database path leads to the same location in the application container and in every
injected one. -/
def SameFiles (pod : Pod) (input : Input) (target : ResolvedTarget) (injection : PodInjection) :
    Prop :=
  ∃ c, pod.containers[target.containerIndex]? = some c ∧ ∀ ic ∈ injection.initContainers,
    ∀ d ∈ input.databases, SameBacking c.volumeMounts ic.volumeMounts (Path.clean d.path)

/-- The target is seen at every database path from every container. -/
def Unobstructed (L : Library) (pod : Pod) (input : Input) (rendered : RenderedConfig)
    (target : ResolvedTarget) : Prop :=
  ∃ c t, targetMount pod target = some (c, t) ∧ ∀ purpose ∈ purposes input rendered,
    ∀ d ∈ input.databases, TargetSeen t c.volumeMounts (addedMounts L input rendered purpose)
      (Path.clean d.path)

theorem Targets.sameFiles {L : Library} {pod : Pod} {input : Input} {rendered : RenderedConfig}
    {target : ResolvedTarget} {injection : PodInjection} {copy : VolumeMount}
    (hT : Targets input target) (hcopy : databaseVolumeMount pod target = .ok copy)
    (hI : Injects L input rendered copy injection) :
    SameFiles pod input target injection ↔ Unobstructed L pod input rendered target := by
  obtain ⟨c, t, htm, rfl⟩ := databaseVolumeMount_ok hcopy
  obtain ⟨hc, htc, hdir⟩ := targetMount_spec htm
  have hclean : Path.clean target.mountPath = target.mountPath := by
    have habs := hT.mountPath
    rw [← hdir] at habs ⊢
    exact Path.clean_clean (Path.isAbs_of_clean habs)
  have hseen : ∀ d ∈ input.databases, ∀ ms added : List VolumeMount,
      (∀ m, m ∈ ms ↔ m = { t with
        mountPath := target.mountPath, readOnly := false, recursiveReadOnly := none } ∨ m ∈ added) →
      (SameBacking c.volumeMounts ms (Path.clean d.path) ↔
        TargetSeen t c.volumeMounts added (Path.clean d.path)) := by
    intro d hd ms added hmem
    have hdir' : mountDir { t with
          mountPath := target.mountPath, readOnly := false, recursiveReadOnly := none } =
        mountDir t :=
      hclean.trans hdir.symm
    refine sameBacking_iff (hT.absolute d hd) htc ?_ hdir' ?_ hmem
    · rw [Covers, hdir]
      exact hT.contains d hd
    · rw [location, location, hdir']
  constructor
  · rintro ⟨c', hc', hsame⟩
    obtain rfl : c = c' := Option.some.inj (hc.symm.trans hc')
    refine ⟨c, t, htm, fun purpose hp d hd => ?_⟩
    obtain ⟨ic, hic, hm⟩ := hI.container purpose hp
    exact (hseen d hd _ _ hm).1 (hsame ic hic d hd)
  · rintro ⟨c', t', htm', hall⟩
    rw [htm, Option.some.injEq, Prod.mk.injEq] at htm'
    obtain ⟨rfl, rfl⟩ := htm'
    refine ⟨c, hc, fun ic hic d hd => ?_⟩
    obtain ⟨purpose, hp, hm⟩ := hI.purpose ic hic
    exact (hseen d hd _ _ hm).2 (hall purpose hp d hd)

/-- The injected containers see the application's files exactly if the target is not obstructed. -/
theorem sameFiles_iff {P : Parsers} {L : Library} {pod : Pod} {input : Input}
    {rendered : RenderedConfig} {target : ResolvedTarget} {configMapName defaultImage : String}
    {injection : PodInjection} (ht : resolveTarget pod input = .ok target)
    (hi : buildInjection P L pod input rendered target configMapName defaultImage = .ok injection) :
    SameFiles pod input target injection ↔ Unobstructed L pod input rendered target := by
  obtain ⟨copy, hcopy, hI⟩ := buildInjection_ok hi
  exact (resolveTarget_ok ht).sameFiles hcopy hI

/-! ## A database below a nested mount -/

namespace Nested

/-- Two databases, the second at the given path. -/
def spec (path : String) : LitestreamSpec where
  databases := [{ name := "a", path := "/data/a.db", replicate := some { replicaRef := "dst" } },
                { name := "b", path := path, replicate := some { replicaRef := "dst" } }]

def input (path : String) : Input where
  databases := [("a", "/data/a.db"), ("b", path)].map fun (name, p) =>
    { name := name, path := p, replicate := some { replica := fileReplica "dst" } }

def library (path : String) : Library :=
  .listed [[fileEntry "/data/a.db" "dst"], [fileEntry path "dst"],
    [fileEntry "/data/a.db" "dst", fileEntry path "dst"]]

def data : VolumeMount := { name := "data", mountPath := "/data" }

def cache : VolumeMount := { name := "cache", mountPath := "/data/cache" }

/-- The application has a volume for its cache inside the one for its data. -/
def app : Container := { name := "app", volumeMounts := [data, cache] }

def pod : Pod where
  name := "app"
  «namespace» := "default"
  containers := [app]
  volumes := [⟨"data", .other []⟩, ⟨"cache", .other []⟩]

def target : ResolvedTarget := ⟨0, "app", "data", "/data"⟩

def image : String := "litestream/litestream@sha256:" ++ String.ofList (List.replicate 64 '0')

/-- What the steps up to the injection return. -/
def injected (path : String) : Option (Input × RenderedConfig × ResolvedTarget × PodInjection) := do
  let i ← (resolve .lenient (fileReplicas ["dst"]) (spec path)).toOption
  let r ← (render (library path) i).toOption
  let t ← (resolveTarget pod i).toOption
  let j ← (buildInjection .lenient (library path) pod i r t "litestream-app" image).toOption
  pure (i, r, t, j)

theorem injected_eq : ∀ path ∈ ["/data/cache/b.db", "/data/b.db"],
    (injected path).map (fun x => (x.1, x.2.2.1)) = some (input path, target) := by
  decide +kernel

theorem injected_spec (path : String) (h : path ∈ ["/data/cache/b.db", "/data/b.db"]) :
    ∃ r j, resolve .lenient (fileReplicas ["dst"]) (spec path) = .ok (input path) ∧
      render (library path) (input path) = .ok r ∧
      resolveTarget pod (input path) = .ok target ∧
      buildInjection .lenient (library path) pod (input path) r target "litestream-app" image =
        .ok j := by
  obtain ⟨⟨i, r, t, j⟩, hx, he⟩ := Option.map_eq_some_iff.1 (injected_eq path h)
  cases he
  simp only [injected, Option.bind_eq_bind, Option.bind_eq_some_iff, Option.pure_def,
    Option.some.injEq, Prod.mk.injEq] at hx
  obtain ⟨i, hi, r', hr, t, ht, j', hj, rfl, rfl, rfl, rfl⟩ := hx
  exact ⟨r', j', toOption_eq_some hi, toOption_eq_some hr, toOption_eq_some ht, toOption_eq_some hj⟩

/-- The added mounts are outside of the data. -/
theorem not_covers {path p : String} {L : Library} {r : RenderedConfig} {purpose : String}
    {n : VolumeMount} (hp : p ∈ ["/data/a.db", "/data/cache/b.db", "/data/b.db"])
    (hn : n ∈ addedMounts L (input path) r purpose) : ¬ Covers p n := by
  have hdir : mountDir n ∈ [configMountDir, secretMountDir] := by
    rcases List.mem_cons.1 hn with rfl | hn
    · decide
    · have hs : n ∈ secretMount L r.credentials purpose := by simpa [input] using hn
      simp only [secretMount, Option.mem_def] at hs
      split at hs
      · cases hs
      · cases hs
        have hclean : Path.clean secretMountDir = secretMountDir := by decide
        exact List.mem_cons_of_mem _ (List.mem_singleton.2 hclean)
  have hall : ∀ dir ∈ [configMountDir, secretMountDir],
      ∀ p ∈ ["/data/a.db", "/data/cache/b.db", "/data/b.db"], pathContains dir p = false := by
    decide
  rw [Covers, hall _ hdir p hp]
  decide

end Nested

/-- The application finds its database on the volume `cache`, and the injected containers on
`data`. -/
theorem nested_obstructs : ∃ r j,
    resolve .lenient (fileReplicas ["dst"]) (Nested.spec "/data/cache/b.db") =
      .ok (Nested.input "/data/cache/b.db") ∧
    render (Nested.library "/data/cache/b.db") (Nested.input "/data/cache/b.db") = .ok r ∧
    resolveTarget Nested.pod (Nested.input "/data/cache/b.db") = .ok Nested.target ∧
    buildInjection .lenient (Nested.library "/data/cache/b.db") Nested.pod
      (Nested.input "/data/cache/b.db") r Nested.target "litestream-app" Nested.image = .ok j ∧
    ¬ SameFiles Nested.pod (Nested.input "/data/cache/b.db") Nested.target j := by
  obtain ⟨r, j, hres, hr, ht, hj⟩ := Nested.injected_spec "/data/cache/b.db" (by decide)
  refine ⟨r, j, hres, hr, ht, hj, fun hsame => ?_⟩
  obtain ⟨copy, hcopy, hI⟩ := buildInjection_ok hj
  obtain ⟨c, t, htm, hall⟩ := ((resolveTarget_ok ht).sameFiles hcopy hI).1 hsame
  have htm' : targetMount Nested.pod Nested.target = some (Nested.app, Nested.data) := by decide
  rw [htm', Option.some.injEq, Prod.mk.injEq] at htm
  obtain ⟨rfl, rfl⟩ := htm
  have hclean : Path.clean "/data/cache/b.db" = "/data/cache/b.db" := by decide
  have hseen := hall (restoreContainerPurpose "a") List.mem_cons_self _
    (List.mem_cons_of_mem _ List.mem_cons_self)
  rw [show Path.clean _ = _ from hclean] at hseen
  rcases hseen with h | ⟨m, -, n, hn, -, hcn, -⟩
  · exact absurd (h Nested.cache (by simp [Nested.app]) (by decide) (by decide)) (by decide)
  · exact Nested.not_covers (by decide) hn hcn

theorem sameFiles_beside : ∃ r j,
    resolveTarget Nested.pod (Nested.input "/data/b.db") = .ok Nested.target ∧
    buildInjection .lenient (Nested.library "/data/b.db") Nested.pod
      (Nested.input "/data/b.db") r Nested.target "litestream-app" Nested.image = .ok j ∧
    SameFiles Nested.pod (Nested.input "/data/b.db") Nested.target j := by
  obtain ⟨r, j, -, -, ht, hj⟩ := Nested.injected_spec "/data/b.db" (by decide)
  refine ⟨r, j, ht, hj, (sameFiles_iff ht hj).2 ⟨Nested.app, Nested.data, by decide, ?_⟩⟩
  intro purpose _ d hd
  have hp : Path.clean d.path ∈ ["/data/a.db", "/data/b.db"] := by
    rcases List.mem_cons.1 hd with rfl | hd
    · decide
    · obtain rfl := List.mem_singleton.1 hd
      decide
  have happ : ∀ p ∈ ["/data/a.db", "/data/b.db"], ∀ m ∈ Nested.app.volumeMounts,
      pathContains (mountDir m) p = true → location p m = location p Nested.data := by
    decide
  have hsub : ∀ p ∈ ["/data/a.db", "/data/b.db"],
      p ∈ ["/data/a.db", "/data/cache/b.db", "/data/b.db"] := by
    decide
  refine .inl fun m hm hcm _ => ?_
  rcases List.mem_append.1 hm with hm | hm
  · exact happ _ hp m hm hcm
  · exact absurd hcm (Nested.not_covers (hsub _ hp) hm)

end Controller.Webhook
