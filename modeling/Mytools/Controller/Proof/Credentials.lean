import Mytools.Controller.Proof.Valid
import Mytools.Controller.Webhook.Inject

/-!
# Who gets which credential

A binding is made for one slot of one replica section. The name of its variable and the path of its
file determine the section, among those of one container, and the slot; so leaving out repeated
names and repeated projections never mixes up two bindings. The variable that all GCS replicas use
is the exception, and validation makes sure that its users share a credential.
-/

namespace Controller.Config

open Lib V1alpha1

/-! ## Names of variables and files -/

/-- The character that was sanitised, if it was one of a label. -/
def unsanitize (c : Char) : Char := if c = '_' then '-' else c.toLower

/-- The text has the characters of a label. -/
def LabelText (s : String) : Prop := ∀ c ∈ s.toList, LabelChar c

theorem labelChar_lt {c : Char} (h : LabelChar c) : c.toNat < 123 := by
  rcases h with h | rfl
  · have hl : c.isLower = (decide (c.val ≥ 'a'.val) && decide (c.val ≤ 'z'.val)) := rfl
    simp only [isLowerAlnum, hl, Char.isDigit, Bool.or_eq_true, Bool.and_eq_true,
      decide_eq_true_eq] at h
    change c.val.toNat < 123
    have hz : ('z' : Char).val.toNat = 122 := rfl
    have h9 : ('9' : Char).val.toNat = 57 := rfl
    rcases h with h | h
    · have := UInt32.le_iff_toNat_le.1 h.2
      omega
    · have := UInt32.le_iff_toNat_le.1 h.2
      omega
  · decide

/-- A fact about the characters of labels is checked on each of them. -/
theorem labelChar_forall {p : Char → Prop}
    (h : ∀ n < 123, LabelChar (Char.ofNat n) → p (Char.ofNat n)) {c : Char} (hc : LabelChar c) :
    p c := by
  have := h c.toNat (labelChar_lt hc)
  rw [Char.ofNat_toNat] at this
  exact this hc

theorem unsanitize_sanitize {c : Char} (h : LabelChar c) :
    unsanitize (sanitizeChar c.toUpper) = c :=
  labelChar_forall (p := fun c => unsanitize (sanitizeChar c.toUpper) = c) (by decide) h

theorem toLower_sanitize {c : Char} (h : LabelChar c) :
    (sanitizeChar c.toUpper).toLower ≠ '-' ∧ (sanitizeChar c.toUpper).toLower ≠ '/' ∧
      unsanitize (sanitizeChar c.toUpper).toLower = c :=
  labelChar_forall (p := fun c => (sanitizeChar c.toUpper).toLower ≠ '-' ∧
    (sanitizeChar c.toUpper).toLower ≠ '/' ∧ unsanitize (sanitizeChar c.toUpper).toLower = c)
    (by decide) h

theorem map_leftInverse {f g : Char → Char} {cs : List Char} (h : ∀ c ∈ cs, g (f c) = c) :
    (cs.map f).map g = cs := by
  rw [List.map_map]
  exact (List.map_congr_left h).trans (List.map_id _)

theorem sanitizeIdentifier_inj {s t : String} (hs : LabelText s)
    (ht : LabelText t) (h : sanitizeIdentifier s = sanitizeIdentifier t) : s = t := by
  have hl := congrArg (fun x => x.toList.map unsanitize) h
  simp only [sanitizeIdentifier, String.toList_ofList] at hl
  rw [map_leftInverse fun c hc => unsanitize_sanitize (hs c hc),
    map_leftInverse fun c hc => unsanitize_sanitize (ht c hc)] at hl
  exact String.toList_injective hl

/-- The part of a file's path that names the database. -/
theorem toLower_sanitizeIdentifier {s : String} (hs : LabelText s) :
    '-' ∉ (toLower (sanitizeIdentifier s)).toList ∧ '/' ∉ (toLower (sanitizeIdentifier s)).toList ∧
      (toLower (sanitizeIdentifier s)).toList.map unsanitize = s.toList := by
  have hl : (toLower (sanitizeIdentifier s)).toList =
      s.toList.map fun c => (sanitizeChar c.toUpper).toLower := by
    simp [toLower, sanitizeIdentifier]
  rw [hl, map_leftInverse fun c hc => (toLower_sanitize (hs c hc)).2.2]
  refine ⟨fun hm => ?_, fun hm => ?_, rfl⟩
  · obtain ⟨c, hc, he⟩ := List.mem_map.1 hm
    exact (toLower_sanitize (hs c hc)).1 he
  · obtain ⟨c, hc, he⟩ := List.mem_map.1 hm
    exact (toLower_sanitize (hs c hc)).2.1 he

theorem fileMountPath_inj {s s' : String} {role role' : Role} {backend backend' f f' : String}
    (hs : LabelText s) (hs' : LabelText s')
    (h : fileMountPath s role backend f = fileMountPath s' role' backend' f') :
    s = s' ∧ role = role' ∧ toLower backend ++ "-" ++ f = toLower backend' ++ "-" ++ f' := by
  obtain ⟨hd, -, hinv⟩ := toLower_sanitizeIdentifier hs
  obtain ⟨hd', -, hinv'⟩ := toLower_sanitizeIdentifier hs'
  have hl := congrArg String.toList h
  simp only [fileMountPath, String.toList_append, List.append_assoc] at hl
  have hdash : "-".toList = ['-'] := rfl
  have hslash : "/".toList = ['/'] := rfl
  rw [List.append_cancel_left_eq, List.append_cancel_left_eq, hdash, hslash] at hl
  simp only [List.singleton_append] at hl
  obtain ⟨hname, hl⟩ := cut_first hd hd' hl
  have hrole : ∀ r : Role, '/' ∉ (toLower r.text).toList := by
    intro r
    cases r <;> decide
  obtain ⟨hr, hl⟩ := cut_first (hrole role) (hrole role') hl
  refine ⟨String.toList_injective ?_, ?_, String.toList_injective ?_⟩
  · rw [← hinv, ← hinv', hname]
  · revert hr
    cases role <;> cases role' <;> decide
  · simpa only [String.toList_append, List.append_assoc, hdash, List.singleton_append] using hl

/-- What follows the role in the name of a variable. -/
def variableTexts : List String :=
  ["S3_ACCESS_KEY_ID", "S3_SECRET_ACCESS_KEY", "AZURE_ACCOUNT_KEY", "NATS_USERNAME",
    "NATS_PASSWORD", "NATS_JWT", "NATS_SEED", "NATS_NKEY", "NATS_TOKEN", "OSS_ACCESS_KEY_ID",
    "OSS_ACCESS_KEY_SECRET", "SFTP_PASSWORD", "WEBDAV_USERNAME", "WEBDAV_PASSWORD"]

/-- None of the texts contains a role, so none is what another one ends with after a role. -/
theorem variableTexts_suffix : ∀ t ∈ variableTexts, ∀ t' ∈ variableTexts,
    ("_DEST_" ++ t).toList <:+ ("_DEST_" ++ t').toList → t = t' := by decide

theorem envName_eq (s : String) (role : Role) (backend field : String) :
    envName s role backend field =
      "LS_" ++ (sanitizeIdentifier s ++
        ("_" ++ role.text ++ "_" ++ (backend ++ "_" ++ field))) := by
  simp only [envName, String.append_assoc]

theorem cut_role {x x' t t' : String} (ht : t ∈ variableTexts) (ht' : t' ∈ variableTexts)
    (h : "LS_" ++ (x ++ ("_DEST_" ++ t)) = "LS_" ++ (x' ++ ("_DEST_" ++ t'))) : x = x' := by
  have hl : x.toList ++ ("_DEST_" ++ t).toList = x'.toList ++ ("_DEST_" ++ t').toList := by
    simpa only [String.toList_append, List.append_cancel_left_eq] using congrArg String.toList h
  have heq : t = t' := by
    have h1 : ("_DEST_" ++ t).toList <:+ x'.toList ++ ("_DEST_" ++ t').toList :=
      hl ▸ List.suffix_append _ _
    rcases List.suffix_or_suffix_of_suffix h1 (List.suffix_append _ _) with hsuf | hsuf
    · exact variableTexts_suffix _ ht _ ht' hsuf
    · exact (variableTexts_suffix _ ht' _ ht hsuf).symm
  rw [heq, List.append_cancel_right_eq] at hl
  exact String.toList_injective hl

/-- Variables of destinations tell the databases apart. -/
theorem envName_inj {s s' : String} {b b' f f' : String} (hs : LabelText s)
    (hs' : LabelText s') (ht : b ++ "_" ++ f ∈ variableTexts)
    (ht' : b' ++ "_" ++ f' ∈ variableTexts)
    (h : envName s .destination b f = envName s' .destination b' f') : s = s' := by
  have hrole : "_" ++ Role.text .destination ++ "_" = "_DEST_" := by decide
  rw [envName_eq, envName_eq, hrole] at h
  exact sanitizeIdentifier_inj hs hs' (cut_role ht ht' h)

/-- Variables of one database tell the roles apart. -/
theorem envName_role {s : String} {role role' : Role} {b b' f f' : String}
    (h : envName s role b f = envName s role' b' f') :
    role = role' ∧ b ++ "_" ++ f = b' ++ "_" ++ f' := by
  rw [envName_eq, envName_eq] at h
  have hl := congrArg String.toList h
  simp only [String.toList_append, List.append_cancel_left_eq, List.append_assoc] at hl
  cases role <;> cases role'
  · exact ⟨rfl, String.toList_injective (by
      simpa only [String.toList_append, List.append_cancel_left_eq, List.append_assoc] using hl)⟩
  · cases (List.cons.inj hl).1
  · cases (List.cons.inj hl).1
  · exact ⟨rfl, String.toList_injective (by
      simpa only [String.toList_append, List.append_cancel_left_eq, List.append_assoc] using hl)⟩

/-! ## Slots -/

/-- A place of a replica section that a Secret can back. -/
inductive Slot where
  | env (field : String)
  | file (filename : String)
  | fileWithEnv (envVar filename : String)
  deriving DecidableEq, Repr

def CredentialBuilder.bind (b : CredentialBuilder) : Slot → SecretReference → CredentialBinding
  | .env field, ref =>
    { containerPurpose := b.purpose, envName := envName b.databaseName b.role b.backend field,
      secretKeyRef := ref.secretKeyRef }
  | .file filename, ref =>
    { containerPurpose := b.purpose, secretKeyRef := ref.secretKeyRef,
      fileMountPath := fileMountPath b.databaseName b.role b.backend filename }
  | .fileWithEnv envVar filename, ref =>
    { containerPurpose := b.purpose, envName := envVar, secretKeyRef := ref.secretKeyRef,
      fileMountPath := fileMountPath b.databaseName b.role b.backend filename }

/-- The slots of a NATS replica, with what backs them. -/
def natsFields (spec : NATSReplicaSpec) : List (Slot × Option SecretReference) :=
  [(.env "USERNAME", spec.username), (.env "PASSWORD", spec.password), (.env "JWT", spec.jwt),
    (.env "SEED", spec.seed), (.env "NKEY", spec.nkey), (.env "TOKEN", spec.token),
    (.file "creds", spec.creds), (.file "client-cert", spec.clientCert),
    (.file "client-key", spec.clientKey)] ++
  spec.rootCAs.zipIdx.map fun (ref, i) => (.file ("root-ca" ++ "-" ++ toString i), some ref)

/-- The slots of a replica, in the order in which they are rendered, with what backs them. -/
def fields (replica : ReplicaSpec) : List (Slot × Option SecretReference) :=
  match replica.type with
  | .s3 => replica.s3.elim [] fun s =>
    [(.env "ACCESS_KEY_ID", s.accessKeyID), (.env "SECRET_ACCESS_KEY", s.secretAccessKey)]
  | .gcs => replica.gcs.elim [] fun s =>
    [(.fileWithEnv "GOOGLE_APPLICATION_CREDENTIALS" "service-account.json", s.serviceAccountJSON)]
  | .azure => replica.azure.elim [] fun s => [(.env "ACCOUNT_KEY", s.accountKey)]
  | .nats => replica.nats.elim [] natsFields
  | .oss => replica.oss.elim [] fun s =>
    [(.env "ACCESS_KEY_ID", s.accessKeyID), (.env "ACCESS_KEY_SECRET", s.accessKeySecret)]
  | .sftp => replica.sftp.elim [] fun s =>
    [(.env "PASSWORD", s.password), (.file "private-key", s.privateKey)]
  | .webdav => replica.webdav.elim [] fun s =>
    [(.env "USERNAME", s.username), (.env "PASSWORD", s.password)]
  | _ => []

section Fields

variable (b : CredentialBuilder)

def CredentialBuilder.bindAll (fs : List (Slot × Option SecretReference)) :
    List CredentialBinding :=
  fs.flatMap fun f => f.2.toList.map (b.bind f.1)

theorem bindAll_cons (f : Slot × Option SecretReference)
    (fs : List (Slot × Option SecretReference)) :
    b.bindAll (f :: fs) = f.2.toList.map (b.bind f.1) ++ b.bindAll fs := List.flatMap_cons

theorem bindAll_nil : b.bindAll [] = [] := List.flatMap_nil

theorem bindAll_append (fs gs : List (Slot × Option SecretReference)) :
    b.bindAll (fs ++ gs) = b.bindAll fs ++ b.bindAll gs := List.flatMap_append

theorem env_bindings (field : String) (ref : Option SecretReference) :
    (b.env field ref).2 = ref.toList.map (b.bind (.env field)) := by
  cases ref <;> rfl

theorem file_bindings (filename : String) (ref : Option SecretReference) :
    (b.file filename ref).2 = ref.toList.map (b.bind (.file filename)) := by
  cases ref <;> rfl

theorem fileWithEnv_bindings (envVar filename : String) (ref : Option SecretReference) :
    (b.fileWithEnv envVar filename ref).2 =
      ref.toList.map (b.bind (.fileWithEnv envVar filename)) := by
  cases ref <;> rfl

theorem fileList_bindings (filenamePrefix : String) (refs : List SecretReference) :
    (b.fileList filenamePrefix refs).2 = b.bindAll (refs.zipIdx.map fun (ref, i) =>
      (.file (filenamePrefix ++ "-" ++ toString i), some ref)) := by
  simp only [CredentialBuilder.fileList, CredentialBuilder.bindAll, List.flatMap_map]
  rfl

/-- The bindings of a section are those of its slots. -/
theorem renderReplica_bindings (duration : DurationString) (replica : ReplicaSpec) :
    (renderReplica b duration replica).2 = b.bindAll (fields replica) := by
  unfold renderReplica fields
  cases replica.type with
  | s3 =>
    cases replica.s3 <;>
      simp only [Option.elim, renderS3, env_bindings, bindAll_cons, bindAll_nil, List.append_nil]
  | gcs =>
    cases replica.gcs <;>
      simp only [Option.elim, renderGCS, fileWithEnv_bindings, bindAll_cons, bindAll_nil,
        List.append_nil]
  | azure =>
    cases replica.azure <;>
      simp only [Option.elim, renderAzure, env_bindings, bindAll_cons, bindAll_nil, List.append_nil]
  | file => cases replica.file <;> rfl
  | nats =>
    cases replica.nats <;>
      simp only [Option.elim, renderNATS, natsFields, env_bindings, file_bindings,
        fileList_bindings, bindAll_append, bindAll_cons, bindAll_nil, List.append_nil,
        List.append_assoc]
  | oss =>
    cases replica.oss <;>
      simp only [Option.elim, renderOSS, env_bindings, bindAll_cons, bindAll_nil, List.append_nil]
  | sftp =>
    cases replica.sftp <;>
      simp only [Option.elim, renderSFTP, env_bindings, file_bindings, bindAll_cons, bindAll_nil,
        List.append_nil]
  | webdav =>
    cases replica.webdav <;>
      simp only [Option.elim, renderWebDAV, env_bindings, bindAll_cons, bindAll_nil,
        List.append_nil]
  | other _ => rfl

theorem mem_bindAll {fs : List (Slot × Option SecretReference)} {c : CredentialBinding} :
    c ∈ b.bindAll fs ↔ ∃ slot ref, (slot, some ref) ∈ fs ∧ b.bind slot ref = c := by
  simp only [CredentialBuilder.bindAll, List.mem_flatMap, List.mem_map, Option.mem_toList,
    Prod.exists]
  constructor
  · rintro ⟨slot, _, hm, ref, rfl, rfl⟩
    exact ⟨slot, ref, hm, rfl⟩
  · rintro ⟨slot, ref, hm, rfl⟩
    exact ⟨slot, some ref, hm, ref, rfl, rfl⟩

end Fields

/-- The slots of replicas of one type, for `n` certificate authorities. -/
def slotNames (t : ReplicaType) (n : Nat) : List Slot :=
  match t with
  | .s3 => [.env "ACCESS_KEY_ID", .env "SECRET_ACCESS_KEY"]
  | .gcs => [.fileWithEnv "GOOGLE_APPLICATION_CREDENTIALS" "service-account.json"]
  | .azure => [.env "ACCOUNT_KEY"]
  | .nats => [.env "USERNAME", .env "PASSWORD", .env "JWT", .env "SEED", .env "NKEY", .env "TOKEN",
      .file "creds", .file "client-cert", .file "client-key"] ++
      (List.range n).map fun i => .file ("root-ca" ++ "-" ++ toString i)
  | .oss => [.env "ACCESS_KEY_ID", .env "ACCESS_KEY_SECRET"]
  | .sftp => [.env "PASSWORD", .file "private-key"]
  | .webdav => [.env "USERNAME", .env "PASSWORD"]
  | _ => []

theorem natsFields_names (spec : NATSReplicaSpec) :
    (natsFields spec).map (·.1) = slotNames .nats spec.rootCAs.length := by
  have hcas : (spec.rootCAs.zipIdx.map fun (ref, i) =>
      ((Slot.file ("root-ca" ++ "-" ++ toString i), some ref) : Slot × Option SecretReference)).map
        (·.1) = (List.range spec.rootCAs.length).map fun i =>
          Slot.file ("root-ca" ++ "-" ++ toString i) := by
    rw [List.range_eq_range', ← List.zipIdx_map_snd 0 spec.rootCAs, List.map_map, List.map_map]
    rfl
  rw [natsFields, List.map_append, hcas]
  rfl

theorem fields_names (replica : ReplicaSpec) : fields replica = [] ∨
    ∃ n, (fields replica).map (·.1) = slotNames replica.type n := by
  unfold fields
  cases replica.type with
  | s3 => cases replica.s3 <;> simp [slotNames]
  | gcs => cases replica.gcs <;> simp [slotNames]
  | azure => cases replica.azure <;> simp [slotNames]
  | nats =>
    cases replica.nats with
    | none => exact .inl rfl
    | some spec => exact .inr ⟨_, natsFields_names spec⟩
  | oss => cases replica.oss <;> simp [slotNames]
  | sftp => cases replica.sftp <;> simp [slotNames]
  | webdav => cases replica.webdav <;> simp [slotNames]
  | _ => exact .inl rfl

theorem toString_inj {m n : Nat} (h : toString m = toString n) : m = n := by
  have hd : ∀ k : Nat, (toString k).toList = Nat.toDigits 10 k := by
    intro k
    have : toString k = String.ofList (Nat.toDigits 10 k) := Nat.repr_eq_ofList_toDigits
    rw [this, String.toList_ofList]
  have hv := congrArg (fun s => Nat.ofDigitChars 10 s.toList 0) h
  simpa only [hd, Nat.ofDigitChars_ten_toDigits] using hv

theorem slotNames_nodup (t : ReplicaType) (n : Nat) : (slotNames t n).Nodup := by
  unfold slotNames
  cases t with
  | nats =>
    rw [List.nodup_append]
    refine ⟨by decide, List.Nodup.map (fun i j h => ?_) List.nodup_range, fun a ha b hb => ?_⟩
    · injection h with h
      simp only [String.append_right_inj] at h
      exact toString_inj h
    · obtain ⟨i, -, rfl⟩ := List.mem_map.1 hb
      rintro rfl
      have hne : ∀ f ∈ ["creds", "client-cert", "client-key"], ∀ i : Nat,
          f ≠ "root-ca" ++ "-" ++ toString i := by
        intro f hf i he
        have h0 := congrArg (fun s => s.toList[0]?) he
        simp at hf
        rcases hf with rfl | rfl | rfl <;> simp at h0
      simp only [List.mem_cons, reduceCtorEq, List.not_mem_nil, or_false, false_or,
        Slot.file.injEq] at ha
      rcases ha with ha | ha | ha
      · exact hne _ (by simp) i ha.symm
      · exact hne _ (by simp) i ha.symm
      · exact hne _ (by simp) i ha.symm
  | _ => simp

section Slot

variable {replica : ReplicaSpec} {slot : Slot} {ref ref' : Option SecretReference}

theorem mem_slotNames (h : (slot, ref) ∈ fields replica) :
    ∃ n, slot ∈ slotNames replica.type n := by
  rcases fields_names replica with hnil | ⟨n, hn⟩
  · rw [hnil] at h
    cases h
  · exact ⟨n, hn ▸ List.mem_map_of_mem h⟩

/-- What backs a slot is determined by the slot. -/
theorem slot_unique (h : (slot, ref) ∈ fields replica) (h' : (slot, ref') ∈ fields replica) :
    ref = ref' := by
  rcases fields_names replica with hnil | ⟨n, hn⟩
  · rw [hnil] at h
    cases h
  · have hnd : ((fields replica).map (·.1)).Nodup := hn ▸ slotNames_nodup _ n
    exact congrArg Prod.snd (List.inj_on_of_nodup_map hnd h h' rfl)

theorem variableText_mem {t : ReplicaType} {n : Nat} {field : String}
    (h : .env field ∈ slotNames t n) : backendName t ++ "_" ++ field ∈ variableTexts := by
  have hb : backendName .s3 = "S3" ∧ backendName .azure = "AZURE" ∧ backendName .nats = "NATS" ∧
    backendName .oss = "OSS" ∧ backendName .sftp = "SFTP" ∧ backendName .webdav = "WEBDAV" := by
    decide
  obtain ⟨h1, h2, h3, h4, h5, h6⟩ := hb
  unfold slotNames at h
  cases t with
  | s3 =>
    simp only [List.mem_cons, List.not_mem_nil, or_false, Slot.env.injEq] at h
    rcases h with rfl | rfl <;> rw [h1] <;> decide
  | azure =>
    simp only [List.mem_cons, List.not_mem_nil, or_false, Slot.env.injEq] at h
    rw [h, h2]
    decide
  | nats =>
    simp at h
    rcases h with rfl | rfl | rfl | rfl | rfl | rfl <;> rw [h3] <;> decide
  | oss =>
    simp only [List.mem_cons, List.not_mem_nil, or_false, Slot.env.injEq] at h
    rcases h with rfl | rfl <;> rw [h4] <;> decide
  | sftp =>
    simp at h
    rw [h, h5]
    decide
  | webdav =>
    simp only [List.mem_cons, List.not_mem_nil, or_false, Slot.env.injEq] at h
    rcases h with rfl | rfl <;> rw [h6] <;> decide
  | _ => simp at h

/-- The only variable that is not named after the section is the one of GCS replicas. -/
theorem fileWithEnv_gcs {envVar filename : String} {ref : SecretReference}
    (h : (.fileWithEnv envVar filename, some ref) ∈ fields replica) :
    envVar = "GOOGLE_APPLICATION_CREDENTIALS" ∧ replica.type = .gcs ∧
      ∃ spec, replica.gcs = some spec ∧ spec.serviceAccountJSON = some ref := by
  obtain ⟨n, hn⟩ := mem_slotNames h
  unfold fields at h
  unfold slotNames at hn
  cases ht : replica.type with
  | gcs =>
    simp only [ht] at h
    cases hg : replica.gcs with
    | none => simp [hg] at h
    | some spec =>
      simp only [hg, Option.elim, List.mem_singleton, Prod.mk.injEq, Slot.fileWithEnv.injEq] at h
      exact ⟨h.1.1, rfl, spec, rfl, h.2.symm⟩
  | _ => simp [ht] at hn

/-! ## Validated references -/

def nul : Char := Char.ofNat 0

theorem nul_of_key (P : Parsers) {key : String} (h : P.isConfigMapKey key = true) :
    nul ∉ key.toList :=
  fun hm => absurd (P.key_chars key h nul hm) (by decide)

theorem nul_of_subdomain (P : Parsers) {name : String} (h : P.isDNS1123Subdomain name = true) :
    nul ∉ name.toList :=
  fun hm => absurd (P.subdomain_chars name h nul hm) (by decide)

/-- A reference names a Secret and a key without a NUL. -/
structure ValidReference (ref : SecretReference) : Prop where
  name : nul ∉ ref.secretKeyRef.name.toList
  key : nul ∉ ref.secretKeyRef.key.toList

variable {P : Parsers}

theorem validateReference_ok {backed path : String} {ref : SecretReference}
    (h : validateReference P backed ref path = []) : ValidReference ref := by
  simp only [validateReference, validateSecretValue, List.append_eq_nil_iff] at h
  obtain ⟨⟨hn, hk⟩, -⟩ := h
  constructor
  · by_cases he : ref.secretKeyRef.name = ""
    · rw [if_pos he] at hn
      cases hn
    · rw [if_neg he, rule_eq_nil] at hn
      exact nul_of_subdomain P hn
  · by_cases he : ref.secretKeyRef.key = ""
    · rw [if_pos he] at hk
      cases hk
    · rw [if_neg he, rule_eq_nil] at hk
      exact nul_of_key P hk

theorem validateSecretReference_ok {path : String} {ref : Option SecretReference}
    (h : validateSecretReference P ref path = []) : ∀ r, ref = some r → ValidReference r := by
  rintro r rfl
  exact validateReference_ok h

theorem validateFileSecretReference_ok {path : String} {ref : Option SecretReference}
    (h : validateFileSecretReference P ref path = []) : ∀ r, ref = some r → ValidReference r := by
  rintro r rfl
  exact validateReference_ok h

/-- What backs the slots is valid. -/
def FieldsValid (fs : List (Slot × Option SecretReference)) : Prop :=
  ∀ f ∈ fs, ∀ r, f.2 = some r → ValidReference r

namespace FieldsValid

variable {fs gs : List (Slot × Option SecretReference)}

theorem nil : FieldsValid [] := fun _ h => absurd h List.not_mem_nil

theorem cons {ref : Option SecretReference} (h : ∀ r, ref = some r → ValidReference r)
    (hs : FieldsValid fs) : FieldsValid ((slot, ref) :: fs) :=
  List.forall_mem_cons.2 ⟨h, hs⟩

theorem append (h : FieldsValid fs) (h' : FieldsValid gs) : FieldsValid (fs ++ gs) :=
  fun f hf => (List.mem_append.1 hf).elim (h f) (h' f)

/-- The slots of a section that passes its rules, if there is one. -/
theorem elim {α : Type} {o : Option α} {rules : α → List FieldError}
    {f : α → List (Slot × Option SecretReference)} (h : o.elim [] rules = [])
    (hf : ∀ s, rules s = [] → FieldsValid (f s)) : FieldsValid (o.elim [] f) := by
  cases o with
  | none => exact nil
  | some s => exact hf s h

end FieldsValid

theorem validateNATSSecrets_ok {spec : NATSReplicaSpec} {path : String}
    (h : validateNATSSecrets P spec path = []) : FieldsValid (natsFields spec) := by
  unfold validateNATSSecrets at h
  simp only [List.append_eq_nil_iff, List.flatMap_eq_nil_iff] at h
  obtain ⟨⟨⟨⟨⟨⟨⟨⟨⟨⟨⟨⟨⟨⟨⟨⟨h1, h2⟩, h3⟩, h4⟩, h5⟩, h6⟩, h7⟩, h8⟩, h9⟩, hca⟩, -⟩, -⟩, -⟩, -⟩, -⟩, -⟩,
    -⟩ := h
  refine .append ?_ ?_
  · exact .cons (validateSecretReference_ok h1) <| .cons (validateSecretReference_ok h2) <|
      .cons (validateSecretReference_ok h3) <| .cons (validateSecretReference_ok h4) <|
      .cons (validateSecretReference_ok h5) <| .cons (validateSecretReference_ok h6) <|
      .cons (validateFileSecretReference_ok h7) <| .cons (validateFileSecretReference_ok h8) <|
      .cons (validateFileSecretReference_ok h9) .nil
  · intro f hf r hr
    obtain ⟨x, hx, rfl⟩ := List.mem_map.1 hf
    obtain rfl : x.1 = r := Option.some.inj hr
    exact validateReference_ok (hca x hx)

/-- What backs the slots of a valid replica is valid. -/
theorem fields_valid {path : String} (h : replica.validate P path = []) :
    FieldsValid (fields replica) := by
  unfold ReplicaSpec.validate at h
  by_cases hb : replica.configuredBackends ≠ 1 ∨ replica.hasBackendForType = false
  · rw [if_pos hb] at h
    cases h
  rw [if_neg hb] at h
  unfold ReplicaSpec.validateBackend at h
  unfold fields
  cases ht : replica.type with
  | s3 =>
    simp only [ht] at h
    refine .elim h fun s hs => ?_
    simp only [validateS3Secrets, List.append_eq_nil_iff] at hs
    exact .cons (validateSecretReference_ok hs.2.1) (.cons (validateSecretReference_ok hs.2.2) .nil)
  | gcs =>
    simp only [ht] at h
    refine .elim h fun s hs => ?_
    exact .cons (validateFileSecretReference_ok (List.append_eq_nil_iff.1 hs).2) .nil
  | azure =>
    simp only [ht] at h
    refine .elim h fun s hs => ?_
    exact .cons (validateSecretReference_ok (List.append_eq_nil_iff.1 hs).2) .nil
  | nats =>
    simp only [ht] at h
    exact .elim h fun s hs => validateNATSSecrets_ok (List.append_eq_nil_iff.1 hs).2
  | oss =>
    simp only [ht] at h
    refine .elim h fun s hs => ?_
    simp only [validateOSSSecrets, List.append_eq_nil_iff] at hs
    exact .cons (validateSecretReference_ok hs.2.1) (.cons (validateSecretReference_ok hs.2.2) .nil)
  | sftp =>
    simp only [ht] at h
    refine .elim h fun s hs => ?_
    simp only [validateSFTPSecrets, List.append_eq_nil_iff] at hs
    exact .cons (validateSecretReference_ok hs.2.1)
      (.cons (validateFileSecretReference_ok hs.2.2) .nil)
  | webdav =>
    simp only [ht] at h
    refine .elim h fun s hs => ?_
    simp only [validateWebDAVSecrets, List.append_eq_nil_iff] at hs
    exact .cons (validateSecretReference_ok hs.2.1) (.cons (validateSecretReference_ok hs.2.2) .nil)
  | _ => exact .nil

end Slot

end Controller.Config
