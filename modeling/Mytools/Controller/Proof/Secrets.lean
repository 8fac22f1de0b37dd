import Mytools.Controller.Proof.Credentials

/-!
# Every container receives the credentials of its configuration

`Separate` says when the bindings of each container can be told apart. The bindings of a rendering
are separate (`separate_of_render`), and for separate bindings neither `credentialEnv` nor
`secretProjections` loses or replaces a credential (`Separate.receives`).
-/

namespace Controller.Config

open Lib V1alpha1 Webhook

/-! ## Sections -/

/-- A replica that is rendered for a container. -/
structure Section where
  builder : CredentialBuilder
  replica : ReplicaSpec

def Section.bindings (s : Section) : List CredentialBinding := s.builder.bindAll (fields s.replica)

def sourceSection (db : Database) (source : Restore) : Section :=
  ⟨⟨db.name, .source, backendName source.replica.type, restoreContainerPurpose db.name⟩,
    source.replica⟩

def destinationSection (db : Database) (destination : Replicate) (purpose : String) : Section :=
  ⟨⟨db.name, .destination, backendName destination.replica.type, purpose⟩, destination.replica⟩

/-- The sections whose bindings a database contributes. -/
def sections (db : Database) : List Section :=
  match db.restore, db.replicate, db.clone with
  | some s, none, _ => [sourceSection db s]
  | some s, some d, false =>
    [destinationSection db d replicateContainerPurpose, sourceSection db s]
  | some s, some d, true => [destinationSection db d replicateContainerPurpose,
      destinationSection db d (restoreContainerPurpose db.name), sourceSection db s]
  | none, some d, _ => [destinationSection db d replicateContainerPurpose,
      destinationSection db d (restoreContainerPurpose db.name)]
  | none, none, _ => []

theorem rebind_bindAll (b : CredentialBuilder) (purpose : String)
    (fs : List (Slot × Option SecretReference)) :
    rebind (b.bindAll fs) purpose =
      { b with purpose := purpose : CredentialBuilder }.bindAll fs := by
  induction fs with
  | nil => rfl
  | cons f fs ih =>
    rw [bindAll_cons, bindAll_cons, rebind, List.map_append, ← ih, List.map_map]
    congr 1
    refine List.map_congr_left fun ref _ => ?_
    cases f.1 <;> rfl

theorem bindings_eq (L : Library) (db : Database) :
    bindings L db = (sections db).flatMap Section.bindings := by
  have hs : ∀ s, (sourceReplica L db s).2 = (sourceSection db s).bindings :=
    fun s => renderReplica_bindings _ _ _
  have hd : ∀ d, (destinationReplica L db d).2 =
      (destinationSection db d replicateContainerPurpose).bindings :=
    fun d => renderReplica_bindings _ _ _
  have hr : ∀ d purpose,
      rebind (destinationSection db d replicateContainerPurpose).bindings purpose =
        (destinationSection db d purpose).bindings := fun d purpose => rebind_bindAll _ _ _
  unfold bindings sections
  cases db.restore <;> cases db.replicate <;> cases db.clone <;> simp [hs, hd, hr]

/-- What a section of a database is made of. -/
structure Section.Of (s : Section) (db : Database) : Prop where
  name : s.builder.databaseName = db.name
  backend : s.builder.backend = backendName s.replica.type
  cases : (s.builder.role = .source ∧ s.builder.purpose = restoreContainerPurpose db.name ∧
      ∃ r, db.restore = some r ∧ s.replica = r.replica) ∨
    (s.builder.role = .destination ∧ (∃ r, db.replicate = some r ∧ s.replica = r.replica) ∧
      (s.builder.purpose = replicateContainerPurpose ∨
        s.builder.purpose = restoreContainerPurpose db.name ∧
          (db.restore ≠ none → db.clone = true)))

theorem sections_of {db : Database} {s : Section} (h : s ∈ sections db) : s.Of db := by
  unfold sections at h
  split at h
  · rename_i hr hd
    simp only [List.mem_singleton] at h
    subst h
    exact ⟨rfl, rfl, .inl ⟨rfl, rfl, _, hr, rfl⟩⟩
  · rename_i hr hd hc
    simp only [List.mem_cons, List.not_mem_nil, or_false] at h
    rcases h with rfl | rfl
    · exact ⟨rfl, rfl, .inr ⟨rfl, ⟨_, hd, rfl⟩, .inl rfl⟩⟩
    · exact ⟨rfl, rfl, .inl ⟨rfl, rfl, _, hr, rfl⟩⟩
  · rename_i hr hd hc
    simp only [List.mem_cons, List.not_mem_nil, or_false] at h
    rcases h with rfl | rfl | rfl
    · exact ⟨rfl, rfl, .inr ⟨rfl, ⟨_, hd, rfl⟩, .inl rfl⟩⟩
    · exact ⟨rfl, rfl, .inr ⟨rfl, ⟨_, hd, rfl⟩, .inr ⟨rfl, fun _ => hc⟩⟩⟩
    · exact ⟨rfl, rfl, .inl ⟨rfl, rfl, _, hr, rfl⟩⟩
  · rename_i hr hd
    simp only [List.mem_cons, List.not_mem_nil, or_false] at h
    rcases h with rfl | rfl
    · exact ⟨rfl, rfl, .inr ⟨rfl, ⟨_, hd, rfl⟩, .inl rfl⟩⟩
    · exact ⟨rfl, rfl, .inr ⟨rfl, ⟨_, hd, rfl⟩, .inr ⟨rfl, fun h => absurd hr h⟩⟩⟩
  · simp at h

theorem restoreContainerPurpose_inj {m n : String}
    (h : restoreContainerPurpose m = restoreContainerPurpose n) : m = n := by
  simpa [restoreContainerPurpose] using h

theorem restoreContainerPurpose_ne (n : String) :
    restoreContainerPurpose n ≠ replicateContainerPurpose := by
  intro h
  have h2 := congrArg (fun s => s.toList[2]?) h
  simp [restoreContainerPurpose, replicateContainerPurpose] at h2

section Pair

variable {s s' : Section} {db db' : Database}

/-- Sections of one container are of one database, or all are destinations. -/
theorem Section.Of.same_purpose (h : s.Of db) (h' : s'.Of db')
    (hp : s.builder.purpose = s'.builder.purpose) :
    db.name = db'.name ∨ s.builder.role = .destination ∧ s'.builder.role = .destination := by
  rcases h.cases with ⟨-, h1, -⟩ | ⟨hr, -, h1⟩ <;>
    rcases h'.cases with ⟨-, h2, -⟩ | ⟨hr', -, h2⟩
  · exact .inl (restoreContainerPurpose_inj (h1.symm.trans (hp.trans h2)))
  · rcases h2 with h2 | ⟨h2, -⟩
    · exact absurd (h1.symm.trans (hp.trans h2)) (restoreContainerPurpose_ne _)
    · exact .inl (restoreContainerPurpose_inj (h1.symm.trans (hp.trans h2)))
  · rcases h1 with h1 | ⟨h1, -⟩
    · exact absurd (h2.symm.trans (hp.symm.trans h1)) (restoreContainerPurpose_ne _)
    · exact .inl (restoreContainerPurpose_inj (h1.symm.trans (hp.trans h2)))
  · exact .inr ⟨hr, hr'⟩

/-- A section is determined by its database, its role and its container. -/
theorem Section.Of.eq (h : s.Of db) (h' : s'.Of db) (hr : s.builder.role = s'.builder.role)
    (hp : s.builder.purpose = s'.builder.purpose) : s = s' := by
  have hrep : s.replica = s'.replica := by
    rcases h.cases with ⟨h1, -, r, hr1, he⟩ | ⟨h1, ⟨r, hr1, he⟩, -⟩ <;>
      rcases h'.cases with ⟨h2, -, r', hr2, he'⟩ | ⟨h2, ⟨r', hr2, he'⟩, -⟩
    · rw [he, he', Option.some.inj (hr1.symm.trans hr2)]
    · exact absurd (h1.symm.trans (hr.trans h2)) (by decide)
    · exact absurd (h1.symm.trans (hr.trans h2)) (by decide)
    · rw [he, he', Option.some.inj (hr1.symm.trans hr2)]
  have hname := h.name.trans h'.name.symm
  have hback : s.builder.backend = s'.builder.backend := by rw [h.backend, h'.backend, hrep]
  obtain ⟨⟨n, ro, ba, pu⟩, re⟩ := s
  obtain ⟨⟨n', ro', ba', pu'⟩, re'⟩ := s'
  simp only at hr hp hrep hname hback
  subst hr hp hrep hname hback
  rfl

end Pair

/-! ## Separate bindings -/

/-- The bindings of each container can be told apart. -/
structure Separate (bs : List CredentialBinding) : Prop where
  env : ∀ b ∈ bs, ∀ c ∈ bs, b.containerPurpose = c.containerPurpose → b.envName ≠ "" →
    b.envName = c.envName → b.fileMountPath = "" → b = c
  file : ∀ b ∈ bs, ∀ c ∈ bs, b.containerPurpose = c.containerPurpose → b.fileMountPath ≠ "" →
    b.fileMountPath = c.fileMountPath → b = c
  shared : ∀ b ∈ bs, ∀ c ∈ bs, b.containerPurpose = c.containerPurpose → b.envName ≠ "" →
    b.envName = c.envName → b.fileMountPath ≠ "" → c.fileMountPath ≠ "" ∧
      c.secretKeyRef.name = b.secretKeyRef.name ∧ c.secretKeyRef.key = b.secretKeyRef.key
  path : ∀ b ∈ bs, b.fileMountPath ≠ "" →
    ∃ rest, b.fileMountPath = secretMountDir ++ "/" ++ rest ∧ nul ∉ rest.toList

/-- What the container of a purpose is to find of a binding. -/
structure Receives (bs : List CredentialBinding) (purpose : String) (b : CredentialBinding) :
    Prop where
  env : b.envName ≠ "" → b.fileMountPath = "" →
    (credentialEnv bs purpose).filter (·.name = b.envName) =
      [{ name := b.envName, secretKeyRef := some b.secretKeyRef }]
  file : b.fileMountPath ≠ "" →
    ((secretProjections bs purpose).flatMap fun p => (p.items.filter fun i =>
        secretMountDir ++ "/" ++ i.path = b.fileMountPath).map fun i =>
          (⟨p.name, i.key, p.optional⟩ : SecretKeySelector)) = [b.secretKeyRef]
  both : b.envName ≠ "" → b.fileMountPath ≠ "" → ∃ p ∈ secretProjections bs purpose, ∃ i ∈ p.items,
    (credentialEnv bs purpose).filter (·.name = b.envName) =
      [{ name := b.envName, value := secretMountDir ++ "/" ++ i.path }] ∧
    p.name = b.secretKeyRef.name ∧ i.key = b.secretKeyRef.key

section Separate

variable {bs : List CredentialBinding} {b : CredentialBinding}

/-- The variable under a binding's name is that of a binding with the same name. -/
theorem credentialEnv_filter (hb : b ∈ bs) (he : b.envName ≠ "") :
    ∃ c ∈ bs, c.containerPurpose = b.containerPurpose ∧ c.envName = b.envName ∧
      (credentialEnv bs b.containerPurpose).filter (·.name = b.envName) = [credentialVar c] := by
  have hmem : b ∈ bs.filter fun c => c.containerPurpose = b.containerPurpose ∧ c.envName ≠ "" :=
    List.mem_filter.2 ⟨hb, by simp [he]⟩
  obtain ⟨c, hc, hk⟩ := exists_distinctBy (fun c : CredentialBinding => c.envName) [] hmem (by simp)
  have hcb := List.mem_filter.1 ((distinctBy_sublist _ _ _).subset hc)
  refine ⟨c, hcb.1, (of_decide_eq_true hcb.2).1, hk, ?_⟩
  have hname : ∀ c : CredentialBinding, (credentialVar c).name = c.envName := by
    intro c
    unfold credentialVar
    split <;> rfl
  rw [credentialEnv, List.filter_map, ← hk]
  simp only [Function.comp_def, hname]
  rw [filter_key_eq (fun c : CredentialBinding => c.envName) (distinctBy_nodup _ _ _) hc]
  rfl

theorem relativePath_eq {rest : String} (h : b.fileMountPath = secretMountDir ++ "/" ++ rest) :
    relativePath b = rest := by
  rw [relativePath, h, trimPrefix_append]

/-- The identity of a projection determines the Secret key and the file. -/
theorem projectionIdentity_inj {c : CredentialBinding} {rest rest' : String}
    (hb : relativePath b = rest) (hc : relativePath c = rest') (hrest : nul ∉ rest.toList)
    (hrest' : nul ∉ rest'.toList) (h : projectionIdentity b = projectionIdentity c) :
    rest = rest' := by
  have hopt : ∀ o, nul ∉ (optionalText o).toList := by
    intro o
    rcases o with _ | _ | _ <;> decide
  have hl := congrArg String.toList h
  have hnul : "\x00".toList = [nul] := rfl
  simp only [projectionIdentity, String.toList_append, hnul, hb, hc] at hl
  rw [List.append_assoc, List.append_assoc _ [nul] (optionalText c.secretKeyRef.optional).toList,
    List.singleton_append, List.singleton_append] at hl
  obtain ⟨hl, -⟩ := cut_last (hopt _) (hopt _) hl
  rw [List.append_assoc, List.append_assoc _ [nul] rest'.toList, List.singleton_append,
    List.singleton_append] at hl
  exact String.toList_injective (cut_last hrest hrest' hl).2

theorem projectedBindings_subset {purpose : String} {c : CredentialBinding}
    (hc : c ∈ projectedBindings bs purpose) :
    c ∈ bs ∧ c.containerPurpose = purpose ∧ c.fileMountPath ≠ "" := by
  have hcb := List.mem_filter.1 ((distinctBy_sublist _ _ _).subset hc)
  exact ⟨hcb.1, of_decide_eq_true hcb.2⟩

/-- No file is left out. -/
theorem Separate.mem_projected (hs : Separate bs) (hb : b ∈ bs) (hf : b.fileMountPath ≠ "") :
    b ∈ projectedBindings bs b.containerPurpose := by
  have hmem : b ∈ bs.filter fun c =>
      c.containerPurpose = b.containerPurpose ∧ c.fileMountPath ≠ "" :=
    List.mem_filter.2 ⟨hb, by simp [hf]⟩
  obtain ⟨c, hc, hk⟩ := exists_distinctBy projectionIdentity [] hmem (by simp)
  obtain ⟨hcb, hpur, hcf⟩ := projectedBindings_subset hc
  obtain ⟨rest, hp, hn⟩ := hs.path b hb hf
  obtain ⟨rest', hp', hn'⟩ := hs.path c hcb hcf
  have he := projectionIdentity_inj (relativePath_eq hp') (relativePath_eq hp) hn' hn hk
  obtain rfl : b = c := hs.file b hb c hcb hpur.symm hf (by rw [hp, hp', he])
  exact hc

theorem Separate.projected_nodup (hs : Separate bs) (purpose : String) :
    ((projectedBindings bs purpose).map (·.fileMountPath)).Nodup := by
  refine List.Nodup.map_on (fun c hc d hd he => ?_)
    (List.Nodup.of_map _ (distinctBy_nodup projectionIdentity _ _))
  obtain ⟨hcb, hpur, hcf⟩ := projectedBindings_subset hc
  obtain ⟨hdb, hpur', -⟩ := projectedBindings_subset hd
  exact hs.file c hcb d hdb (hpur.trans hpur'.symm) hcf he

/-- The keys that are projected to the path of a binding. -/
theorem Separate.projected_path (hs : Separate bs) (hb : b ∈ bs) (hf : b.fileMountPath ≠ "") :
    ((secretProjections bs b.containerPurpose).flatMap fun p => (p.items.filter fun i =>
        secretMountDir ++ "/" ++ i.path = b.fileMountPath).map fun i =>
          (⟨p.name, i.key, p.optional⟩ : SecretKeySelector)) = [b.secretKeyRef] := by
  have hperm := List.perm_insertionSort (fun x y => compareProjections x y ≠ .gt)
    ((projectedBindings bs b.containerPurpose).map projection)
  refine List.perm_singleton.1 ((hperm.flatMap_right _).trans ?_)
  have hone : ∀ c ∈ projectedBindings bs b.containerPurpose,
      (((projection c).items.filter fun i =>
        secretMountDir ++ "/" ++ i.path = b.fileMountPath).map fun i =>
          (⟨(projection c).name, i.key, (projection c).optional⟩ : SecretKeySelector)) =
      if c.fileMountPath = b.fileMountPath then [c.secretKeyRef] else [] := by
    intro c hc
    obtain ⟨hcb, -, hcf⟩ := projectedBindings_subset hc
    obtain ⟨rest, hp, -⟩ := hs.path c hcb hcf
    simp only [projection, relativePath_eq hp, ← hp, List.filter_cons, List.filter_nil]
    by_cases he : c.fileMountPath = b.fileMountPath <;> simp [he]
  rw [List.flatMap_map, List.flatMap_congr hone, flatMap_key_eq (·.fileMountPath) (·.secretKeyRef)
    (hs.projected_nodup _) (hs.mem_projected hb hf)]

/-- Separate bindings reach their containers. -/
theorem Separate.receives (hs : Separate bs) (hb : b ∈ bs) : Receives bs b.containerPurpose b := by
  refine ⟨fun he hf => ?_, fun hf => hs.projected_path hb hf, fun he hf => ?_⟩
  · obtain ⟨c, hc, hp, hn, hv⟩ := credentialEnv_filter hb he
    obtain rfl : b = c := hs.env b hb c hc hp.symm he hn.symm hf
    rw [hv, credentialVar, if_neg (not_not_intro hf)]
  · obtain ⟨c, hc, hp, hn, hv⟩ := credentialEnv_filter hb he
    obtain ⟨hcf, hname, hkey⟩ := hs.shared b hb c hc hp.symm he hn.symm hf
    obtain ⟨rest, hpath, -⟩ := hs.path c hc hcf
    have hm : c ∈ projectedBindings bs b.containerPurpose := hp ▸ hs.mem_projected hc hcf
    refine ⟨projection c, (List.mem_insertionSort _).2 (List.mem_map_of_mem hm),
      ⟨c.secretKeyRef.key, relativePath c⟩, List.mem_singleton_self _, ?_, hname, hkey⟩
    rw [hv, credentialVar, if_pos hcf, hn, relativePath_eq hpath, ← hpath]

end Separate

/-! ## Slots of a section -/

def Slot.filename : Slot → Option String
  | .env _ => none
  | .file filename => some filename
  | .fileWithEnv _ filename => some filename

section Slots

variable {replica : ReplicaSpec} {x y : Slot} {ref ref' : Option SecretReference} {f : String}

/-- A file name is used by one slot of a replica. -/
theorem slot_of_filename (hx : (x, ref) ∈ fields replica) (hy : (y, ref') ∈ fields replica)
    (hfx : x.filename = some f) (hfy : y.filename = some f) : x = y := by
  obtain ⟨n, hn⟩ := mem_slotNames hx
  obtain ⟨m, hm⟩ := mem_slotNames hy
  have hgcs : ∀ {e g k}, Slot.fileWithEnv e g ∈ slotNames replica.type k →
      replica.type = .gcs ∧ e = "GOOGLE_APPLICATION_CREDENTIALS" := by
    intro e g k h
    unfold slotNames at h
    cases ht : replica.type <;> simp [ht] at h
    exact ⟨rfl, h.1⟩
  have hfile : ∀ {g k}, Slot.file g ∈ slotNames replica.type k → replica.type ≠ .gcs := by
    intro g k h ht
    simp [ht, slotNames] at h
  cases x <;> cases y <;> simp only [Slot.filename, reduceCtorEq, Option.some.injEq] at hfx hfy
  · rw [hfx, hfy]
  · exact absurd (hgcs hm).1 (hfile hn)
  · exact absurd (hgcs hn).1 (hfile hm)
  · rw [hfx, hfy, (hgcs hn).2, (hgcs hm).2]

theorem filename_nul {n : Nat} (h : x ∈ slotNames replica.type n) (hf : x.filename = some f) :
    nul ∉ f.toList ∧ nul ∉ (toLower (backendName replica.type)).toList := by
  have hdigits : ∀ i : Nat, nul ∉ ("root-ca" ++ "-" ++ toString i).toList := by
    intro i hm
    have hs : toString i = String.ofList (Nat.toDigits 10 i) := Nat.repr_eq_ofList_toDigits
    rw [hs, String.toList_append, String.toList_ofList, List.mem_append] at hm
    rcases hm with hm | hm
    · revert hm
      decide
    · exact absurd (Nat.isDigit_of_mem_toDigits (by decide) (le_refl _) hm) (by decide)
  unfold slotNames at h
  cases ht : replica.type with
  | gcs =>
    rw [ht] at h
    obtain rfl := List.mem_singleton.1 h
    cases hf
    decide
  | nats =>
    simp only [ht, List.mem_append, List.mem_cons, List.not_mem_nil, or_false, List.mem_map] at h
    refine ⟨?_, by decide⟩
    rcases h with h | ⟨i, -, rfl⟩
    · rcases h with rfl | rfl | rfl | rfl | rfl | rfl | rfl | rfl | rfl <;> cases hf <;> decide
    · cases hf
      exact hdigits i
  | sftp =>
    simp only [ht, List.mem_cons, List.not_mem_nil, or_false] at h
    rcases h with rfl | rfl
    · cases hf
    · cases hf
      decide
  | azure =>
    rw [ht] at h
    obtain rfl := List.mem_singleton.1 h
    cases hf
  | file => simp [ht] at h
  | other _ => simp [ht] at h
  | s3 | oss | webdav =>
    simp only [ht, List.mem_cons, List.not_mem_nil, or_false] at h
    rcases h with rfl | rfl <;> cases hf

end Slots

/-! ## Rendered bindings -/

/-- What the checks have made sure of an input. -/
structure Checked (input : Input) : Prop where
  valid : ValidInput input
  label : ∀ db ∈ input.databases, LabelText db.name
  source : ∀ db ∈ input.databases, ∀ r, db.restore = some r →
    FieldsValid (fields r.replica)
  destination : ∀ db ∈ input.databases, ∀ r, db.replicate = some r →
    FieldsValid (fields r.replica)

theorem checked_of_resolve {P : Parsers} {R : Replicas} {spec : LitestreamSpec} {input : Input}
    (h : resolve P R spec = .ok input) (hv : validateInput input = .ok ()) : Checked input := by
  obtain ⟨hspec, -, -, hres⟩ := resolve_ok h
  have hvs := LitestreamSpec.validate_ok hspec
  refine ⟨validateInput_ok hv, fun db hdb => ?_, fun db hdb r hr => ?_, fun db hdb r hr => ?_⟩
  · obtain ⟨b, hb, hbd⟩ := forall₂_mem_right hres hdb
    rw [hbd.name]
    exact P.label_chars _ (hvs.databases b hb).label
  · obtain ⟨b, hb, hbd⟩ := forall₂_mem_right hres hdb
    rcases hbd.restore with ⟨-, hn⟩ | ⟨p, r', -, -, hval, hsome⟩
    · rw [hn] at hr
      cases hr
    · obtain rfl := Option.some.inj (hsome.symm.trans hr)
      exact fields_valid hval
  · obtain ⟨b, hb, hbd⟩ := forall₂_mem_right hres hdb
    rcases hbd.replicate with ⟨-, hn⟩ | ⟨p, r', -, -, hval, hsome⟩
    · rw [hn] at hr
      cases hr
    · obtain rfl := Option.some.inj (hsome.symm.trans hr)
      exact fields_valid hval

/-- A slot of a section of a database that is backed. -/
structure Origin (input : Input) where
  db : Database
  sec : Section
  slot : Slot
  ref : SecretReference
  mem : db ∈ input.databases
  of : sec.Of db
  field : (slot, some ref) ∈ fields sec.replica

namespace Origin

variable {input : Input}

def binding (o : Origin input) : CredentialBinding := o.sec.builder.bind o.slot o.ref

@[simp] theorem purpose (o : Origin input) :
    o.binding.containerPurpose = o.sec.builder.purpose := by
  unfold binding
  cases o.slot <;> rfl

variable {o o' : Origin input}

theorem binding_eq (hs : o.sec = o'.sec) (hx : o.slot = o'.slot) : o.binding = o'.binding := by
  have hr : some o.ref = some o'.ref := slot_unique o.field (by rw [hs, hx]; exact o'.field)
  rw [binding, binding, hs, hx, Option.some.inj hr]

theorem file_form (h : o.binding.fileMountPath ≠ "") : ∃ f, o.slot.filename = some f ∧
    o.binding.fileMountPath =
      fileMountPath o.db.name o.sec.builder.role o.sec.builder.backend f := by
  unfold binding at h ⊢
  rw [← o.of.name]
  cases hx : o.slot with
  | env field => simp [hx, CredentialBuilder.bind] at h
  | file f => exact ⟨f, rfl, rfl⟩
  | fileWithEnv e f => exact ⟨f, rfl, rfl⟩

theorem fileMountPath_ne (n : String) (role : Role) (backend f : String) :
    fileMountPath n role backend f ≠ "" := by
  intro he
  have := congrArg String.toList he
  simp [fileMountPath, secretMountDir] at this

/-- A variable without a file is the one of an `env` slot. -/
theorem env_form (h : o.binding.envName ≠ "") (hf : o.binding.fileMountPath = "") :
    ∃ field, o.slot = .env field ∧ o.binding.envName =
      envName o.db.name o.sec.builder.role o.sec.builder.backend field := by
  unfold binding at h hf ⊢
  rw [← o.of.name]
  cases hx : o.slot with
  | env field => exact ⟨field, rfl, rfl⟩
  | file f => simp [hx, CredentialBuilder.bind] at h
  | fileWithEnv e f =>
    rw [hx] at hf
    exact absurd hf (fileMountPath_ne _ _ _ _)

/-- A variable with a file is the one of GCS replicas. -/
theorem shared_form (h : o.binding.envName ≠ "") (hf : o.binding.fileMountPath ≠ "") :
    o.binding.envName = "GOOGLE_APPLICATION_CREDENTIALS" ∧ o.sec.replica.type = .gcs ∧
      ∃ spec, o.sec.replica.gcs = some spec ∧ spec.serviceAccountJSON = some o.ref := by
  have hfield := o.field
  unfold binding at h hf ⊢
  cases hx : o.slot with
  | env field => simp [hx, CredentialBuilder.bind] at hf
  | file f => simp [hx, CredentialBuilder.bind] at h
  | fileWithEnv e f =>
    rw [hx] at hfield
    exact fileWithEnv_gcs hfield

/-- Sections of one container that are of databases with one name and in one role are the same. -/
theorem sec_eq (hc : Checked input) (hn : o.db.name = o'.db.name)
    (hr : o.sec.builder.role = o'.sec.builder.role)
    (hp : o.sec.builder.purpose = o'.sec.builder.purpose) : o.sec = o'.sec := by
  have hdb : o.db = o'.db := hc.valid.eq_of_name o.mem o'.mem hn
  exact o.of.eq (hdb ▸ o'.of) hr hp

theorem file_sep (hc : Checked input) (hp : o.sec.builder.purpose = o'.sec.builder.purpose)
    (hf : o.binding.fileMountPath ≠ "")
    (he : o.binding.fileMountPath = o'.binding.fileMountPath) : o.binding = o'.binding := by
  obtain ⟨f, hx, hfp⟩ := file_form hf
  obtain ⟨f', hx', hfp'⟩ := file_form (he ▸ hf)
  obtain ⟨hn, hr, htail⟩ := fileMountPath_inj (hc.label _ o.mem) (hc.label _ o'.mem)
    (hfp.symm.trans (he.trans hfp'))
  have hs := sec_eq hc hn hr hp
  obtain rfl : f = f' := by
    rw [hs] at htail
    simpa using htail
  exact binding_eq hs (slot_of_filename o.field (hs ▸ o'.field) hx hx')

/-- Names of variables that are made for a section differ from the one of GCS. -/
theorem envName_ne (n : String) (role : Role) (backend field : String) :
    envName n role backend field ≠ "GOOGLE_APPLICATION_CREDENTIALS" := by
  intro he
  have := congrArg (fun s => s.toList[0]?) he
  simp [envName] at this

theorem env_sep (hc : Checked input) (hp : o.sec.builder.purpose = o'.sec.builder.purpose)
    (h : o.binding.envName ≠ "") (he : o.binding.envName = o'.binding.envName)
    (hf : o.binding.fileMountPath = "") : o.binding = o'.binding := by
  obtain ⟨field, hx, hen⟩ := env_form h hf
  by_cases hf' : o'.binding.fileMountPath = ""
  · obtain ⟨field', hx', hen'⟩ := env_form (he ▸ h) hf'
    have heq := hen.symm.trans (he.trans hen')
    have hn : o.db.name = o'.db.name := by
      rcases o.of.same_purpose o'.of hp with hn | ⟨hr, hr'⟩
      · exact hn
      · rw [hr, hr'] at heq
        have ht : o.sec.builder.backend ++ "_" ++ field ∈ variableTexts := by
          obtain ⟨n, hm⟩ := mem_slotNames o.field
          rw [o.of.backend]
          exact variableText_mem (hx ▸ hm)
        have ht' : o'.sec.builder.backend ++ "_" ++ field' ∈ variableTexts := by
          obtain ⟨n, hm⟩ := mem_slotNames o'.field
          rw [o'.of.backend]
          exact variableText_mem (hx' ▸ hm)
        exact envName_inj (hc.label _ o.mem) (hc.label _ o'.mem) ht ht' heq
    rw [hn] at heq
    obtain ⟨hr, htail⟩ := envName_role heq
    have hs := sec_eq hc hn hr hp
    obtain rfl : field = field' := by
      rw [hs] at htail
      simpa using htail
    exact binding_eq hs (hx.trans hx'.symm)
  · exact absurd (hen.symm.trans (he.trans (shared_form (he ▸ h) hf').1)) (envName_ne _ _ _ _)

theorem ref_valid (hc : Checked input) : ValidReference o.ref := by
  rcases o.of.cases with ⟨-, -, r, hr, he⟩ | ⟨-, ⟨r, hr, he⟩, -⟩
  · exact hc.source _ o.mem r hr _ (he ▸ o.field) _ rfl
  · exact hc.destination _ o.mem r hr _ (he ▸ o.field) _ rfl

theorem key_nul (hc : Checked input) : nul ∉ o.ref.secretKeyRef.key.toList :=
  (ref_valid hc).key

/-- GCS sections of one container name one credential. -/
theorem identity_eq (hc : Checked input) (hp : o.sec.builder.purpose = o'.sec.builder.purpose)
    {spec spec' : GCSReplicaSpec} (ht : o.sec.replica.type = .gcs)
    (hg : o.sec.replica.gcs = some spec) (ht' : o'.sec.replica.type = .gcs)
    (hg' : o'.sec.replica.gcs = some spec') :
    gcsCredentialIdentity spec = gcsCredentialIdentity spec' := by
  have hsame : o.sec = o'.sec → gcsCredentialIdentity spec = gcsCredentialIdentity spec' := by
    intro hs
    rw [hs, hg'] at hg
    rw [Option.some.inj hg]
  have hrestore : ∀ {r : Restore} {s}, r.replica.type = .gcs → r.replica.gcs = some s →
      isGCSRestore (some r) = some s := by
    intro r s h1 h2
    simp [isGCSRestore, h1, h2]
  have hreplica : ∀ {r : Replicate} {s}, r.replica.type = .gcs → r.replica.gcs = some s →
      isGCSReplica (some r) = some s := by
    intro r s h1 h2
    simp [isGCSReplica, h1, h2]
  have hshared := hc.valid.credentials
  have hdb : o.db.name = o'.db.name → o.db = o'.db := hc.valid.eq_of_name o.mem o'.mem
  rcases o.of.cases with ⟨hr, hpo, r, hre, he⟩ | ⟨hr, ⟨r, hre, he⟩, hpo⟩ <;>
    rcases o'.of.cases with ⟨hr', hpo', r', hre', he'⟩ | ⟨hr', ⟨r', hre', he'⟩, hpo'⟩
  · refine hsame (sec_eq hc ?_ (hr.trans hr'.symm) hp)
    exact restoreContainerPurpose_inj (hpo.symm.trans (hp.trans hpo'))
  · rcases hpo' with hpo' | ⟨hpo', hcl⟩
    · exact absurd (hpo.symm.trans (hp.trans hpo')) (restoreContainerPurpose_ne _)
    · have hd := hdb (restoreContainerPurpose_inj (hpo.symm.trans (hp.trans hpo')))
      rw [hd] at hre
      refine hshared.clone o'.db o'.mem (hcl (by simp [hre])) spec ?_ spec' ?_
      · rw [hre]
        exact hrestore (he ▸ ht) (he ▸ hg)
      · rw [hre']
        exact hreplica (he' ▸ ht') (he' ▸ hg')
  · rcases hpo with hpo | ⟨hpo, hcl⟩
    · exact absurd (hpo'.symm.trans (hp.symm.trans hpo)) (restoreContainerPurpose_ne _)
    · have hd := hdb (restoreContainerPurpose_inj (hpo.symm.trans (hp.trans hpo')))
      rw [← hd] at hre'
      refine (hshared.clone o.db o.mem (hcl (by simp [hre'])) spec' ?_ spec ?_).symm
      · rw [hre']
        exact hrestore (he' ▸ ht') (he' ▸ hg')
      · rw [hre]
        exact hreplica (he ▸ ht) (he ▸ hg)
  · refine hshared.replicate o.db o.mem o'.db o'.mem spec ?_ spec' ?_
    · rw [hre]
      exact hreplica (he ▸ ht) (he ▸ hg)
    · rw [hre']
      exact hreplica (he' ▸ ht') (he' ▸ hg')

theorem shared_sep (hc : Checked input) (hp : o.sec.builder.purpose = o'.sec.builder.purpose)
    (h : o.binding.envName ≠ "") (he : o.binding.envName = o'.binding.envName)
    (hf : o.binding.fileMountPath ≠ "") : o'.binding.fileMountPath ≠ "" ∧
      o'.binding.secretKeyRef.name = o.binding.secretKeyRef.name ∧
      o'.binding.secretKeyRef.key = o.binding.secretKeyRef.key := by
  obtain ⟨hen, ht, spec, hg, hacc⟩ := shared_form h hf
  have hf' : o'.binding.fileMountPath ≠ "" := by
    intro hf'
    obtain ⟨field, -, hen'⟩ := env_form (he ▸ h) hf'
    exact envName_ne _ _ _ _ (hen'.symm.trans (he.symm.trans hen))
  obtain ⟨-, ht', spec', hg', hacc'⟩ := shared_form (he ▸ h) hf'
  have hid := identity_eq hc hp ht hg ht' hg'
  have hl := congrArg String.toList hid
  have hnul : "\x00".toList = [nul] := rfl
  simp only [gcsCredentialIdentity, hacc, hacc', String.toList_append, hnul, List.append_assoc,
    List.singleton_append] at hl
  obtain ⟨hname, hkey⟩ := cut_last (key_nul hc) (key_nul hc) hl
  have hb : ∀ q : Origin input, q.binding.secretKeyRef = q.ref.secretKeyRef := by
    intro q
    unfold binding
    cases q.slot <;> rfl
  rw [hb, hb]
  exact ⟨hf', (String.toList_injective hname).symm, (String.toList_injective hkey).symm⟩

theorem path_form (hc : Checked input) (hf : o.binding.fileMountPath ≠ "") :
    ∃ rest, o.binding.fileMountPath = secretMountDir ++ "/" ++ rest ∧ nul ∉ rest.toList := by
  obtain ⟨f, hx, hfp⟩ := file_form hf
  obtain ⟨n, hm⟩ := mem_slotNames o.field
  obtain ⟨hfn, hbn⟩ := filename_nul hm hx
  refine ⟨(toLower (sanitizeIdentifier o.db.name) ++ "-" ++ toLower o.sec.builder.role.text) ++
    "/" ++ toLower o.sec.builder.backend ++ "-" ++ f,
    by simp only [hfp, fileMountPath, String.append_assoc], ?_⟩
  have hname : nul ∉ (toLower (sanitizeIdentifier o.db.name)).toList := by
    intro hmem
    obtain ⟨-, -, hinv⟩ := toLower_sanitizeIdentifier (hc.label _ o.mem)
    have hu : unsanitize nul ∈ o.db.name.toList := hinv ▸ List.mem_map_of_mem hmem
    exact absurd (hc.label _ o.mem _ hu) (by decide)
  have hrole : nul ∉ (toLower o.sec.builder.role.text).toList := by
    cases o.sec.builder.role <;> decide
  have hdash : nul ∉ "-".toList ∧ nul ∉ "/".toList := by decide
  rw [← o.of.backend] at hbn
  simp only [String.toList_append, List.mem_append, not_or]
  exact ⟨⟨⟨⟨⟨⟨hname, hdash.1⟩, hrole⟩, hdash.2⟩, hbn⟩, hdash.1⟩, hfn⟩

end Origin

theorem origin_of_render {L : Library} {input : Input} {r : RenderedConfig}
    (h : render L input = .ok r) {b : CredentialBinding} (hb : b ∈ r.credentials) :
    ∃ o : Origin input, o.binding = b := by
  obtain ⟨parts, hp⟩ := render_ok h
  rw [hp.credentials, sortCredentialBindings, List.mem_insertionSort, List.mem_flatMap] at hb
  obtain ⟨part, hpart, hb⟩ := hb
  obtain ⟨db, hdb, hren⟩ := forall₂_mem_right hp.parts_ok hpart
  rw [hren.credentials, bindings_eq, List.mem_flatMap] at hb
  obtain ⟨s, hs, hb⟩ := hb
  obtain ⟨slot, ref, hf, he⟩ := (mem_bindAll _).1 hb
  exact ⟨⟨db, s, slot, ref, hdb, sections_of hs, hf⟩, he⟩

theorem separate_of_render {P : Parsers} {R : Replicas} {spec : LitestreamSpec} {L : Library}
    {input : Input} {r : RenderedConfig} (h : resolve P R spec = .ok input)
    (hr : render L input = .ok r) : Separate r.credentials := by
  obtain ⟨parts, hp⟩ := render_ok hr
  have hc := checked_of_resolve h hp.valid
  refine ⟨fun b hb c hcm hpu hen he hf => ?_, fun b hb c hcm hpu hf he => ?_,
    fun b hb c hcm hpu hen he hf => ?_, fun b hb hf => ?_⟩
  · obtain ⟨o, rfl⟩ := origin_of_render hr hb
    obtain ⟨o', rfl⟩ := origin_of_render hr hcm
    exact Origin.env_sep hc (by simpa using hpu) hen he hf
  · obtain ⟨o, rfl⟩ := origin_of_render hr hb
    obtain ⟨o', rfl⟩ := origin_of_render hr hcm
    exact Origin.file_sep hc (by simpa using hpu) hf he
  · obtain ⟨o, rfl⟩ := origin_of_render hr hb
    obtain ⟨o', rfl⟩ := origin_of_render hr hcm
    exact Origin.shared_sep hc (by simpa using hpu) hen he hf
  · obtain ⟨o, rfl⟩ := origin_of_render hr hb
    exact Origin.path_form hc hf

/-- Every binding of a rendering reaches the container it was made for. -/
theorem receives_of_render {P : Parsers} {R : Replicas} {spec : LitestreamSpec} {L : Library}
    {input : Input} {r : RenderedConfig} (h : resolve P R spec = .ok input)
    (hr : render L input = .ok r) (purpose : String) (b : CredentialBinding)
    (hb : b ∈ r.credentials) (hp : b.containerPurpose = purpose) :
    Receives r.credentials purpose b :=
  hp ▸ (separate_of_render h hr).receives hb

/-! ## Two databases that share an account -/

namespace Account

def replicas : Replicas := fun name =>
  if name = "backup" then
    some {
      type := .gcs,
      gcs := some {
        bucket := "b", path := "p",
        serviceAccountJSON := some ⟨{ name := "gcs", key := "json" }⟩ } }
  else none

def binding (name : String) : DatabaseBinding where
  name := name
  path := "/data/" ++ name
  replicate := some { replicaRef := "backup" }

def spec : LitestreamSpec := { databases := [binding "a", binding "b"] }

def entry (name : String) : DbEntry :=
  ⟨"/data/" ++ name, { type := "gs", bucket := "b", path := "p" }⟩

def library : Library := .listed [[entry "a"], [entry "b"], [entry "a", entry "b"]]

theorem rendered_count : (renderSpec .lenient replicas library spec).map
    (fun r => r.credentials.countP (·.containerPurpose = replicateContainerPurpose)) = some 2 := by
  decide

end Account

/-- Both files are projected for the sidecar, and its one variable names the first. -/
theorem receives_account : ∃ r, renderSpec .lenient Account.replicas Account.library
      Account.spec = some r ∧
    r.credentials.countP (·.containerPurpose = replicateContainerPurpose) = 2 ∧
    ∀ b ∈ r.credentials, Receives r.credentials b.containerPurpose b := by
  obtain ⟨r, hr, hn⟩ := Option.map_eq_some_iff.1 Account.rendered_count
  obtain ⟨i, hi, hri⟩ := renderSpec_eq_some hr
  exact ⟨r, hr, hn, fun b hb => receives_of_render hi hri _ b hb rfl⟩

end Controller.Config
