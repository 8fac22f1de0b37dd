import Mytools.Controller.Proof.Render

/-!
# What validation ensures

A valid spec and a valid input, taken apart into what later proofs use: names are distinct labels,
paths are distinct clean absolute paths, and GCS replicas that share a process share a credential.
-/

namespace Controller.Config

open Lib V1alpha1

variable {P : Parsers} {spec : LitestreamSpec} {input : Input}

/-! ## Specs -/

structure ValidBinding (P : Parsers) (b : DatabaseBinding) : Prop where
  label : P.isDNS1123Label b.name = true
  path : b.pathOk
  restores : b.restore ≠ none ∨ b.replicate ≠ none
  selector : ∀ s ∈ b.restore, (s.timestamp = "" ∨ s.txID = "") ∧
    (s.timestamp = "" ∨ P.rfc3339 s.timestamp = true) ∧ (s.txID = "" ∨ matchesTxID s.txID = true)

theorem DatabaseBinding.validate_ok {b : DatabaseBinding} {path : String}
    {names paths : List String} (h : b.validate P path names paths = []) :
    ValidBinding P b ∧ b.name ≠ "" ∧ b.name ∉ names ∧ b.path ∉ paths := by
  simp only [DatabaseBinding.validate, List.append_eq_nil_iff, rule_eq_nil] at h
  obtain ⟨⟨⟨⟨⟨⟨hname, hpath⟩, hsome⟩, -⟩, -⟩, hrestore⟩, -⟩ := h
  unfold DatabaseBinding.validateName at hname
  by_cases hn : b.name = ""
  · rw [if_pos hn] at hname
    cases hname
  rw [if_neg hn] at hname
  simp only [List.append_eq_nil_iff, rule_eq_nil] at hname
  unfold DatabaseBinding.validatePath at hpath
  by_cases hp : b.pathOk
  · rw [if_pos hp, rule_eq_nil] at hpath
    refine ⟨⟨hname.1.2, hp, hsome, fun s hs => ?_⟩, hn, hname.2, hpath⟩
    rw [Option.mem_def] at hs
    rw [hs] at hrestore
    simp only [Option.elim, DatabaseBinding.validateRestore, List.append_eq_nil_iff,
      rule_eq_nil] at hrestore
    exact ⟨hrestore.1.1.2, hrestore.1.2, hrestore.2⟩
  · rw [if_neg hp] at hpath
    cases hpath

theorem validateDatabases_ok : ∀ {bs : List DatabaseBinding} {i : Nat} {names paths : List String},
    LitestreamSpec.validateDatabases P i names paths bs = [] →
      ∀ b ∈ bs, ValidBinding P b
  | [], _, _, _, _ => by simp
  | b :: bs, _, _, _, h => by
    simp only [LitestreamSpec.validateDatabases, List.append_eq_nil_iff] at h
    intro c hc
    rcases List.mem_cons.1 hc with rfl | hc
    · exact (DatabaseBinding.validate_ok h.1).1
    · exact validateDatabases_ok h.2 c hc

structure ValidSpec (P : Parsers) (s : LitestreamSpec) : Prop where
  databases : ∀ b ∈ s.databases, ValidBinding P b
  directoryMode : s.injection.permissions.directoryMode = "" ∨
    matchesPermissionMode s.injection.permissions.directoryMode = true
  databaseMode : s.injection.permissions.databaseMode = "" ∨
    matchesPermissionMode s.injection.permissions.databaseMode = true

theorem LitestreamSpec.validate_ok (h : spec.validate P = []) : ValidSpec P spec := by
  simp only [LitestreamSpec.validate, List.append_eq_nil_iff, rule_eq_nil,
    validatePermissionMode] at h
  exact ⟨validateDatabases_ok h.1.1.2, h.1.2, h.2⟩

/-! ## Inputs -/

/-- What is checked of one database apart from the others. -/
structure ValidDatabase (injection : InjectionSpec) (d : Database) : Prop where
  dir : injection.permissions.directoryMode ≠ "" → Path.dir (Path.clean d.path) ≠ "/"
  restores : d.restore ≠ none ∨ d.replicate ≠ none
  clone : d.clone = true → d.restore ≠ none ∧ d.replicate ≠ none

theorem validateDatabase_ok {injection : InjectionSpec} {names paths : List String} {d : Database}
    (h : validateDatabase injection names paths d = .ok ()) : d.name ∉ names ∧
      Path.clean d.path ∉ paths ∧ ValidDatabase injection d := by
  simp only [validateDatabase, check_ok_iff, require_eq_ok] at h
  obtain ⟨hn, hp, hdir, hres, hcl, -⟩ := h
  exact ⟨hn, hp, fun hd => hdir.resolve_left hd, hres, fun hc => hcl.resolve_left (by simp [hc])⟩

theorem nodup_of_validateDatabases {injection : InjectionSpec} :
    ∀ {ds : List Database} {names paths : List String},
      Config.validateDatabases injection names paths ds = .ok () →
      ((ds.map (·.name)).Nodup ∧ ∀ n ∈ ds.map (·.name), n ∉ names) ∧
      ((ds.map fun d => Path.clean d.path).Nodup ∧
        ∀ p ∈ ds.map fun d => Path.clean d.path, p ∉ paths) ∧
      ∀ d ∈ ds, ValidDatabase injection d
  | [], _, _, _ => by simp
  | d :: ds, names, paths, h => by
    simp only [Config.validateDatabases, check_ok_iff] at h
    obtain ⟨hn, hp, hv⟩ := validateDatabase_ok h.1
    obtain ⟨⟨hnd, hni⟩, ⟨hpd, hpi⟩, hvs⟩ := nodup_of_validateDatabases h.2
    simp only [List.map_cons, List.nodup_cons]
    refine ⟨⟨⟨fun hm => hni _ hm List.mem_cons_self, hnd⟩, fun n hm => ?_⟩,
      ⟨⟨fun hm => hpi _ hm List.mem_cons_self, hpd⟩, fun p hm => ?_⟩,
      List.forall_mem_cons.2 ⟨hv, hvs⟩⟩
    · rcases List.mem_cons.1 hm with rfl | hm
      · exact hn
      · exact fun hc => hni n hm (List.mem_cons_of_mem _ hc)
    · rcases List.mem_cons.1 hm with rfl | hm
      · exact hp
      · exact fun hc => hpi p hm (List.mem_cons_of_mem _ hc)

/-- The GCS replicas that are used by one process name one credential. -/
structure SharedCredential (ds : List Database) : Prop where
  clone : ∀ d ∈ ds, d.clone = true → ∀ s ∈ isGCSRestore d.restore, ∀ t ∈ isGCSReplica d.replicate,
    gcsCredentialIdentity s = gcsCredentialIdentity t
  replicate : ∀ d ∈ ds, ∀ d' ∈ ds, ∀ t ∈ isGCSReplica d.replicate, ∀ t' ∈ isGCSReplica d'.replicate,
    gcsCredentialIdentity t = gcsCredentialIdentity t'

theorem validateGCSCredentials_ok : ∀ {ds : List Database} {first : Option String},
    validateGCSCredentials first ds = .ok () →
      (∀ d ∈ ds, d.clone = true → ∀ s ∈ isGCSRestore d.restore, ∀ t ∈ isGCSReplica d.replicate,
        gcsCredentialIdentity s = gcsCredentialIdentity t) ∧
      ∃ id, (∀ f ∈ first, f = id) ∧
        ∀ d ∈ ds, ∀ t ∈ isGCSReplica d.replicate, gcsCredentialIdentity t = id
  | [], first, _ => ⟨by simp, first.getD "", by cases first <;> simp⟩
  | d :: ds, first, h => by
    simp only [validateGCSCredentials, check_ok_iff, checkIf_ok_iff] at h
    obtain ⟨hclone, h⟩ := h
    have hc : d.clone = true → ∀ s ∈ isGCSRestore d.restore, ∀ t ∈ isGCSReplica d.replicate,
        gcsCredentialIdentity s = gcsCredentialIdentity t := by
      intro hd s hs t ht
      have hcd := hclone hd
      rw [Option.mem_def] at hs ht
      rw [hs, ht] at hcd
      exact require_eq_ok.1 hcd
    cases ht : isGCSReplica d.replicate with
    | none =>
      rw [ht] at h
      obtain ⟨hcs, id, hf, hid⟩ := validateGCSCredentials_ok h
      refine ⟨List.forall_mem_cons.2 ⟨hc, hcs⟩, id, hf, List.forall_mem_cons.2 ⟨?_, hid⟩⟩
      simp [ht]
    | some t =>
      simp only [ht, check_ok_iff, require_eq_ok] at h
      obtain ⟨hfirst, h⟩ := h
      obtain ⟨hcs, id, hf, hid⟩ := validateGCSCredentials_ok h
      have hgo : first.getD (gcsCredentialIdentity t) = id := hf _ rfl
      have htid : gcsCredentialIdentity t = id := by
        cases hfi : first with
        | none => simpa [hfi] using hgo
        | some f =>
          rw [hfirst f hfi]
          simpa [hfi] using hgo
      refine ⟨List.forall_mem_cons.2 ⟨hc, hcs⟩, id, fun f hfm => ?_,
        List.forall_mem_cons.2 ⟨?_, hid⟩⟩
      · rw [← htid, hfirst f hfm]
      · intro t' ht'
        rw [ht] at ht'
        obtain rfl := Option.some.inj ht'
        exact htid

structure ValidInput (input : Input) : Prop where
  databases : ∀ d ∈ input.databases, ValidDatabase input.injection d
  names : (input.databases.map (·.name)).Nodup
  paths : (input.databases.map fun d => Path.clean d.path).Nodup
  credentials : SharedCredential input.databases

theorem validateInput_ok (h : validateInput input = .ok ()) : ValidInput input := by
  simp only [validateInput, check_ok_iff] at h
  obtain ⟨⟨hn, -⟩, ⟨hp, -⟩, hv⟩ := nodup_of_validateDatabases h.1
  obtain ⟨hc, id, -, hid⟩ := validateGCSCredentials_ok h.2
  exact ⟨hv, hn, hp, hc, fun d hd d' hd' t ht t' ht' =>
    (hid d hd t ht).trans (hid d' hd' t' ht').symm⟩

theorem clonePolicy_of_validateDatabases {injection : InjectionSpec} :
    ∀ {ds : List Database} {names paths : List String},
      Config.validateDatabases injection names paths ds = .ok () →
      ∀ d ∈ ds, d.clonePolicy = .unset ∨ d.clone = true
  | [], _, _, _ => by simp
  | d :: ds, names, paths, h => by
    simp only [Config.validateDatabases, check_ok_iff] at h
    obtain ⟨hd, hds⟩ := h
    simp only [validateDatabase, check_ok_iff, require_eq_ok] at hd
    exact List.forall_mem_cons.2 ⟨hd.2.2.2.2.2, clonePolicy_of_validateDatabases hds⟩

/-- A policy for clones is that of a clone. -/
theorem clone_of_validateInput (h : validateInput input = .ok ()) {d : Database}
    (hd : d ∈ input.databases) (hp : d.clonePolicy ≠ .unset) :
    d.clone = true ∧ d.restore ≠ none ∧ d.replicate ≠ none := by
  have hv := (validateInput_ok h).databases d hd
  simp only [validateInput, check_ok_iff] at h
  have hc := (clonePolicy_of_validateDatabases h.1 d hd).resolve_left hp
  exact ⟨hc, hv.clone hc⟩

/-- Two databases of a valid input with one name are the same. -/
theorem ValidInput.eq_of_name (h : ValidInput input) {d d' : Database} (hd : d ∈ input.databases)
    (hd' : d' ∈ input.databases) (he : d.name = d'.name) : d = d' :=
  List.inj_on_of_nodup_map h.names hd hd' he

end Controller.Config
