import Mytools.Controller.Config.Render
import Mytools.Lib.Related

/-!
# What a rendering consists of

`configs`, `script`, `bindings` and `replicaEntry` say what one database is to contribute;
`render_ok` takes a rendering apart into these, and `resolve_ok` a resolved input into the bindings
of the spec.
-/

namespace Controller.Config

open Lib V1alpha1

variable {L : Library} {perms : PermissionsSpec} {db : Database}

/-! ## One database -/

/-- The configuration files of the database's script, with the replica that each is to name. -/
def configs (L : Library) (db : Database) : List (String × ReplicaYAML) :=
  match db.restore, db.replicate, db.clone with
  | some s, some d, true =>
      [(cloneConfigFileName db.name "destination", (destinationReplica L db d).1),
      (cloneConfigFileName db.name "source", (sourceReplica L db s).1)]
  | some s, _, _ => [(restoreConfigFileName db.name, (sourceReplica L db s).1)]
  | none, some d, _ => [(restoreConfigFileName db.name, (destinationReplica L db d).1)]
  | none, none, _ => []

/-- The restore script that is built for the database. -/
def script (perms : PermissionsSpec) (db : Database) : Except RenderErr String :=
  match db.restore, db.replicate, db.clone with
  | some s, some _, true => buildCloneScript db s perms (cloneConfigFileName db.name "destination")
      (cloneConfigFileName db.name "source")
  | some s, _, _ => buildSingleRestoreScript db perms (restoreConfigFileName db.name)
      (restorePolicyFromSpec s)
  | none, _, _ => buildSingleRestoreScript db perms (restoreConfigFileName db.name)
      defaultRestorePolicy

def bindings (L : Library) (db : Database) : List CredentialBinding :=
  match db.restore, db.replicate, db.clone with
  | some s, none, _ => (sourceReplica L db s).2
  | some s, some d, false => (destinationReplica L db d).2 ++ (sourceReplica L db s).2
  | some s, some d, true => (destinationReplica L db d).2 ++
      rebind (destinationReplica L db d).2 (restoreContainerPurpose db.name) ++
      (sourceReplica L db s).2
  | none, some d, _ => (destinationReplica L db d).2 ++
      rebind (destinationReplica L db d).2 (restoreContainerPurpose db.name)
  | none, none, _ => []

/-- The entry of `replicate.yml`. -/
def replicaEntry (L : Library) (db : Database) : Option DbEntry :=
  db.replicate.map fun d => ⟨db.path, (destinationReplica L db d).1⟩

/-- A file is a document with the one entry that the database's path and this replica make. -/
def Holds (L : Library) (db : Database) (c : String × ReplicaYAML) (f : String × String) : Prop :=
  f.1 = c.1 ∧ L.marshal [⟨db.path, c.2⟩] = .ok f.2

/-- What a database contributed. -/
structure Renders (L : Library) (perms : PermissionsSpec) (db : Database) (part : Part) : Prop where
  files : ∃ docs text, List.Forall₂ (Holds L db) (configs L db) docs ∧ script perms db = .ok text ∧
    part.files = docs ++ [(restoreScriptFileName db.name, text)]
  credentials : part.credentials = bindings L db
  entry : part.entry = replicaEntry L db

theorem marshalConfig_ok {entries : List DbEntry} {doc : String} :
    marshalConfig L entries = .ok doc ↔ L.marshal entries = .ok doc :=
  mapError_ok_iff

theorem renderDatabase_ok {part : Part} (h : renderDatabase L perms db = .ok part) :
    Renders L perms db part := by
  obtain ⟨name, path, clone, clonePolicy, restore, replicate⟩ := db
  unfold renderDatabase at h
  split at h
  · rename_i s hr hd
    simp only at hr hd
    subst hr hd
    simp only [renderRestoreOnly, bind_ok_iff] at h
    obtain ⟨doc, hdoc, text, ht, hp⟩ := h
    cases hp
    exact ⟨⟨[(_, doc)], text, .cons ⟨rfl, marshalConfig_ok.1 hdoc⟩ .nil, ht, rfl⟩, rfl, rfl⟩
  · rename_i s d hd hc
    simp only at hd hc
    subst hd hc
    cases restore with
    | some s =>
      simp only [renderReplicate, bind_ok_iff] at h
      obtain ⟨doc, hdoc, text, ht, hp⟩ := h
      cases hp
      exact ⟨⟨[(_, doc)], text, .cons ⟨rfl, marshalConfig_ok.1 hdoc⟩ .nil, ht, rfl⟩, rfl, rfl⟩
    | none =>
      simp only [renderReplicate, bind_ok_iff] at h
      obtain ⟨doc, hdoc, text, ht, hp⟩ := h
      cases hp
      exact ⟨⟨[(_, doc)], text, .cons ⟨rfl, marshalConfig_ok.1 hdoc⟩ .nil, ht, rfl⟩, rfl, rfl⟩
  · rename_i s d hr hd hc
    simp only at hr hd hc
    subst hr hd hc
    simp only [renderClone, bind_ok_iff] at h
    obtain ⟨dest, hdest, src, hsrc, text, ht, hp⟩ := h
    cases hp
    exact ⟨⟨[(_, dest), (_, src)], text, .cons ⟨rfl, marshalConfig_ok.1 hdest⟩
      (.cons ⟨rfl, marshalConfig_ok.1 hsrc⟩ .nil), ht, rfl⟩, rfl, rfl⟩
  · cases h

theorem renderDatabases_ok : ∀ {dbs : List Database} {parts : List Part},
    renderDatabases L perms dbs = .ok parts → List.Forall₂ (Renders L perms) dbs parts
  | [], parts, h => by
    cases h
    exact .nil
  | d :: dbs, parts, h => by
    simp only [renderDatabases, bind_ok_iff] at h
    obtain ⟨part, hp, rest, hr, he⟩ := h
    cases he
    exact .cons (renderDatabase_ok hp) (renderDatabases_ok hr)

/-! ## The map of files -/

theorem get?_foldl_set (files : List (String × String)) (t : Table String String) (k : String) :
    (files.foldl (fun t f => t.set f.1 f.2) t).get? k = (files.reverse.lookup k).or (t.get? k) := by
  induction files generalizing t with
  | nil => simp
  | cons f files ih =>
    obtain ⟨name, text⟩ := f
    rw [List.foldl_cons, ih, List.reverse_cons, List.lookup_append, Table.get?_set]
    cases files.reverse.lookup k with
    | some v => simp
    | none =>
      by_cases hk : k = name
      · simp [hk]
      · have hb : (k == name) = false := by simpa using hk
        simp [List.lookup_cons, hk, hb]

theorem get?_writeAll (files : List (String × String)) (k : String) :
    (writeAll files).get? k = files.reverse.lookup k := by
  rw [writeAll, get?_foldl_set]
  simp

/-! ## The whole input -/

/-- A rendering: the contributions of the databases, and what is made of them. -/
structure Rendering (L : Library) (input : Input) (r : RenderedConfig) (parts : List Part) :
    Prop where
  valid : validateInput input = .ok ()
  parts_ok : List.Forall₂ (Renders L input.injection.permissions) input.databases parts
  credentials : r.credentials = sortCredentialBindings (parts.flatMap (·.credentials))
  data : (input.databases.filterMap (replicaEntry L) = [] ∧
      r.data = writeAll (parts.flatMap (·.files))) ∨
    ∃ doc, L.marshal (input.databases.filterMap (replicaEntry L)) = .ok doc ∧
      input.databases.filterMap (replicaEntry L) ≠ [] ∧
      r.data = writeAll (parts.flatMap (·.files) ++ [(replicateConfigFile, doc)])

theorem filterMap_entry {dbs : List Database} {parts : List Part}
    (h : List.Forall₂ (Renders L perms) dbs parts) :
    parts.filterMap (·.entry) = dbs.filterMap (replicaEntry L) := by
  induction h with
  | nil => rfl
  | cons hd _ ih => simp [List.filterMap_cons, hd.entry, ih]

theorem render_ok {input : Input} {r : RenderedConfig} (h : render L input = .ok r) :
    ∃ parts, Rendering L input r parts := by
  simp only [render, check_ok_iff] at h
  simp only [bind_ok_iff] at h
  obtain ⟨hv, parts, hp, rep, hrep, he⟩ := h
  cases he
  have hparts := renderDatabases_ok hp
  have hvalid : validateInput input = .ok () := mapError_ok_iff.1 hv
  refine ⟨parts, hvalid, hparts, rfl, ?_⟩
  rw [← filterMap_entry hparts]
  by_cases hnil : parts.filterMap (·.entry) = []
  · rw [replicateFile, if_pos hnil] at hrep
    cases hrep
    exact .inl ⟨hnil, by simp⟩
  · rw [replicateFile, if_neg hnil] at hrep
    obtain ⟨doc, hdoc, he⟩ := bind_ok_iff.1 hrep
    cases he
    exact .inr ⟨doc, marshalConfig_ok.1 hdoc, hnil, rfl⟩

theorem Renders.mem_files {part : Part} (h : Renders L perms db part) {f : String × String}
    (hf : f ∈ part.files) :
    f.1 ∈ (configs L db).map (·.1) ∨ f.1 = restoreScriptFileName db.name := by
  obtain ⟨docs, text, hdocs, -, he⟩ := h.files
  rw [he, List.mem_append, List.mem_singleton] at hf
  rcases hf with hf | rfl
  · obtain ⟨c, hc, hcf⟩ := forall₂_mem_right hdocs hf
    exact .inl (List.mem_map.2 ⟨c, hc, hcf.1.symm⟩)
  · exact .inr rfl

theorem configs_restore {name : String} (h : name ∈ (configs L db).map (·.1)) :
    ∃ rest, name = "restore-" ++ rest := by
  have hc : ∀ role, cloneConfigFileName db.name role =
      "restore-" ++ (db.name ++ "-" ++ role ++ ".yml") :=
    fun role => by simp [cloneConfigFileName, String.append_assoc]
  have hr : restoreConfigFileName db.name = "restore-" ++ (db.name ++ ".yml") := by
    simp [restoreConfigFileName, String.append_assoc]
  unfold configs at h
  split at h
  · simp only [List.map_cons, List.map_nil, List.mem_cons, List.not_mem_nil, or_false] at h
    rcases h with rfl | rfl
    · exact ⟨_, hc _⟩
    · exact ⟨_, hc _⟩
  all_goals simp at h
  all_goals exact ⟨_, h.trans hr⟩

/-- `replicate.yml` is read back as the entries of the databases that replicate. -/
def RenderedConfig.entries (L : Library) (r : RenderedConfig) : List DbEntry :=
  ((r.data.get? replicateConfigFile).bind L.unmarshal).getD []

theorem Rendering.ne_replicate {input : Input} {r : RenderedConfig} {parts : List Part}
    (h : Rendering L input r parts) {f : String × String} (hf : f ∈ parts.flatMap (·.files)) :
    f.1 ≠ replicateConfigFile := by
  have hne : ∀ rest : String, "restore-" ++ rest ≠ replicateConfigFile := by
    intro rest he
    have h2 := congrArg (fun s => s.toList[2]?) he
    simp [replicateConfigFile] at h2
  obtain ⟨part, hp, hf⟩ := List.mem_flatMap.1 hf
  obtain ⟨db, -, hdb⟩ := forall₂_mem_right h.parts_ok hp
  rcases hdb.mem_files hf with hc | hs
  · obtain ⟨rest, hr⟩ := configs_restore hc
    exact hr ▸ hne rest
  · rw [hs, restoreScriptFileName, String.append_assoc]
    exact hne _

theorem Rendering.get?_replicate {input : Input} {r : RenderedConfig} {parts : List Part}
    (h : Rendering L input r parts) (hL : L.Sound) :
    ((r.data.get? replicateConfigFile).map L.unmarshal) =
      if input.databases.filterMap (replicaEntry L) = [] then none
      else some (some (input.databases.filterMap (replicaEntry L))) := by
  rcases h.data with ⟨hnil, hd⟩ | ⟨doc, hdoc, hne, hd⟩
  · have hnone : (parts.flatMap (·.files)).reverse.lookup replicateConfigFile = none := by
      rw [List.lookup_eq_none_iff]
      intro f hf
      have := h.ne_replicate (List.mem_reverse.1 hf)
      simpa using this.symm
    rw [hd, get?_writeAll, hnone, if_pos hnil]
    rfl
  · rw [hd, get?_writeAll, List.reverse_append, if_neg hne]
    simp [hL _ _ hdoc]

theorem Rendering.entries_eq {input : Input} {r : RenderedConfig} {parts : List Part}
    (h : Rendering L input r parts) (hL : L.Sound) :
    r.entries L = input.databases.filterMap (replicaEntry L) := by
  have hg := h.get?_replicate hL
  unfold RenderedConfig.entries
  by_cases hn : input.databases.filterMap (replicaEntry L) = []
  · rw [if_pos hn, Option.map_eq_none_iff] at hg
    rw [hg, hn]
    rfl
  · rw [if_neg hn] at hg
    obtain ⟨doc, hd, hu⟩ := Option.map_eq_some_iff.1 hg
    rw [hd, Option.bind_some, hu]
    rfl

/-! ## Resolution -/

/-- A database is the resolution of a binding. -/
structure Resolves (P : Parsers) (R : Replicas) (b : DatabaseBinding) (db : Database) : Prop where
  name : db.name = b.name
  path : db.path = b.path
  clonePolicy : db.clonePolicy = b.clonePolicy
  clone : db.clone = true ↔ ∃ s ∈ b.restore, ∃ t ∈ b.replicate, s.replicaRef ≠ t.replicaRef
  restore : (b.restore = none ∧ db.restore = none) ∨ ∃ s r, b.restore = some s ∧
    R s.replicaRef = some r ∧ r.validate P "spec.replica" = [] ∧
    db.restore = some (Config.restore r s)
  replicate : (b.replicate = none ∧ db.replicate = none) ∨ ∃ t r, b.replicate = some t ∧
    R t.replicaRef = some r ∧ r.validate P "spec.replica" = [] ∧
    db.replicate = some (Config.replicate r t)

theorem Replicas.replica_ok {P : Parsers} {R : Replicas} {name field : String} {r : ReplicaSpec}
    (h : R.replica P name field = .ok r) : R name = some r ∧ r.validate P "spec.replica" = [] := by
  unfold Replicas.replica at h
  cases hr : R name with
  | none => simp [hr] at h
  | some r' =>
    simp only [hr] at h
    split at h
    · cases h
      exact ⟨rfl, ‹_›⟩
    · cases h

theorem resolveSource_ok {P : Parsers} {R : Replicas} {field : String}
    {policy : Option RestoreSpec} {s : Option Restore}
    (h : resolveSource P R field policy = .ok s) :
    (policy = none ∧ s = none) ∨ ∃ p r, policy = some p ∧ R p.replicaRef = some r ∧
      r.validate P "spec.replica" = [] ∧ s = some (Config.restore r p) := by
  cases policy with
  | none =>
    cases h
    exact .inl ⟨rfl, rfl⟩
  | some p =>
    obtain ⟨r, hr, he⟩ := bind_ok_iff.1 h
    cases he
    exact .inr ⟨p, r, rfl, (Replicas.replica_ok hr).1, (Replicas.replica_ok hr).2, rfl⟩

theorem resolveDestination_ok {P : Parsers} {R : Replicas} {field : String}
    {spec : Option ReplicateSpec} {d : Option Replicate}
    (h : resolveDestination P R field spec = .ok d) :
    (spec = none ∧ d = none) ∨ ∃ p r, spec = some p ∧ R p.replicaRef = some r ∧
      r.validate P "spec.replica" = [] ∧ d = some (Config.replicate r p) := by
  cases spec with
  | none =>
    cases h
    exact .inl ⟨rfl, rfl⟩
  | some p =>
    obtain ⟨r, hr, he⟩ := bind_ok_iff.1 h
    cases he
    exact .inr ⟨p, r, rfl, (Replicas.replica_ok hr).1, (Replicas.replica_ok hr).2, rfl⟩

theorem resolveBinding_ok {P : Parsers} {R : Replicas} {i : Nat} {b : DatabaseBinding}
    (h : resolveBinding P R i b = .ok db) : Resolves P R b db := by
  simp only [resolveBinding, bind_ok_iff] at h
  obtain ⟨s, hs, d, hd, he⟩ := h
  cases he
  refine ⟨rfl, rfl, rfl, ?_, resolveSource_ok hs, resolveDestination_ok hd⟩
  cases b.restore <;> cases b.replicate <;> simp

theorem resolveBindings_ok {P : Parsers} {R : Replicas} : ∀ {bs : List DatabaseBinding} {i : Nat}
    {dbs : List Database}, resolveBindings P R i bs = .ok dbs → List.Forall₂ (Resolves P R) bs dbs
  | [], _, dbs, h => by
    cases h
    exact .nil
  | b :: bs, i, dbs, h => by
    simp only [resolveBindings, bind_ok_iff] at h
    obtain ⟨d, hd, rest, hr, he⟩ := h
    cases he
    exact .cons (resolveBinding_ok hd) (resolveBindings_ok hr)

theorem resolve_ok {P : Parsers} {R : Replicas} {spec : LitestreamSpec} {input : Input}
    (h : resolve P R spec = .ok input) : spec.validate P = [] ∧ input.image = spec.image ∧
      input.injection = spec.injection ∧
      List.Forall₂ (Resolves P R) spec.databases input.databases := by
  simp only [resolve, check_ok_iff, require_eq_ok] at h
  obtain ⟨hv, h⟩ := h
  obtain ⟨dbs, hd, he⟩ := bind_ok_iff.1 h
  cases he
  exact ⟨hv, rfl, rfl, resolveBindings_ok hd⟩

/-- What is rendered for a spec, if it can be resolved and rendered. -/
def renderSpec (P : Parsers) (R : Replicas) (L : Library) (spec : LitestreamSpec) :
    Option RenderedConfig :=
  (resolve P R spec).toOption.bind fun i => (render L i).toOption

theorem renderSpec_eq_some {P : Parsers} {R : Replicas} {L : Library} {spec : LitestreamSpec}
    {r : RenderedConfig} (h : renderSpec P R L spec = some r) :
    ∃ i, resolve P R spec = .ok i ∧ render L i = .ok r := by
  unfold renderSpec at h
  cases hi : resolve P R spec with
  | error e => simp [hi, Except.toOption] at h
  | ok i =>
    cases hr : render L i with
    | error e => simp [hi, hr, Except.toOption] at h
    | ok r' =>
      simp only [hi, hr, Except.toOption, Option.bind_some, Option.some.injEq] at h
      exact ⟨i, rfl, by rw [hr, h]⟩

/-! ## Replicas in directories -/

/-- A replica in the directory of its name. -/
def fileReplica (name : String) : ReplicaSpec :=
  { type := .file, file := some { path := "/" ++ name } }

def fileReplicas (names : List String) : Replicas := fun name =>
  if name ∈ names then some (fileReplica name) else none

def fileEntry (path name : String) : DbEntry := ⟨path, { type := "file", path := "/" ++ name }⟩

/-- The databases of a document with the types and paths of their replicas. -/
def documentText (entries : List DbEntry) : String :=
  "dbs:\n" ++ String.join (entries.map fun e => "  - path: " ++ e.path ++
    "\n    replica:\n      type: " ++ e.replica.type ++ "\n      path: " ++ e.replica.path ++ "\n")

/-- A library that knows the listed documents only. -/
def Library.listed (docs : List (List DbEntry)) : Library where
  duration _ := ""
  marshal entries := if entries ∈ docs then .ok (documentText entries) else .error "not listed"
  unmarshal doc := docs.find? (documentText · = doc)
  sha256 := id

theorem Library.listed_sound {docs : List (List DbEntry)} (h : (docs.map documentText).Nodup) :
    (Library.listed docs).Sound := by
  intro entries doc hdoc
  simp only [Library.listed] at hdoc ⊢
  by_cases hm : entries ∈ docs
  swap
  · rw [if_neg hm] at hdoc
    cases hdoc
  rw [if_pos hm] at hdoc
  cases hdoc
  obtain ⟨d, hd⟩ : ∃ d, docs.find? (documentText · = documentText entries) = some d :=
    Option.isSome_iff_exists.1 (List.find?_isSome.2 ⟨entries, hm, by simp⟩)
  have htext : documentText d = documentText entries := by simpa using List.find?_some hd
  rw [hd, List.inj_on_of_nodup_map h (List.mem_of_find?_eq_some hd) hm htext]

end Controller.Config
