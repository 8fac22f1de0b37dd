import Mytools.Controller.Proof.Literal
import Mytools.Controller.Proof.Secrets
import Mytools.Lib.Records

/-!
# The revision hash identifies the configuration

The hashed text is a sequence of records whose fields end with a NUL (`hashInput_fields`). No field
of a rendering holds a NUL: names are labels, scripts quote only texts without it, and the rest is
fixed or checked. So the text gives the files and the bindings back.
-/

namespace Controller.Config

open Lib V1alpha1 Shell

/-! ## The fields -/

def fileFields (f : String × String) : List String := ["data", f.1, f.2]

def optionalText : Option Bool → String
  | none => "optional:nil"
  | some true => "optional:true"
  | some false => "optional:false"

def bindingFields (c : CredentialBinding) : List String :=
  ["credential", c.containerPurpose, c.envName, c.secretKeyRef.name, c.secretKeyRef.key,
    optionalText c.secretKeyRef.optional, c.fileMountPath]

/-- The files in the order in which they are hashed. -/
def sortedFiles (data : Table String String) : List (String × String) :=
  data.rows.insertionSort fun a b => compare a.1 b.1 ≠ .gt

def hashFields (data : Table String String) (credentials : List CredentialBinding) : List String :=
  (sortedFiles data).flatMap fileFields ++ credentials.flatMap bindingFields

theorem terminated_append (fs gs : List (List Char)) :
    terminated nul (fs ++ gs) = terminated nul fs ++ terminated nul gs := List.flatMap_append

theorem terminated_flatMap {α : Type} (l : List α) (f : α → List String) :
    terminated nul ((l.flatMap f).map String.toList) =
      l.flatMap fun a => terminated nul ((f a).map String.toList) := by
  rw [List.map_flatMap, terminated, List.flatMap_assoc]
  rfl

theorem hashInput_fields (data : Table String String) (credentials : List CredentialBinding) :
    (hashInput data credentials).toList =
      terminated nul ((hashFields data credentials).map String.toList) := by
  rw [hashFields, List.map_append, terminated_append, terminated_flatMap, terminated_flatMap,
    hashInput, String.toList_append, String.toList_join, String.toList_join, List.flatMap_map,
    List.flatMap_map]
  congr 1
  · refine List.flatMap_congr fun f _ => ?_
    simp [terminated, fileFields, nul]
  · refine List.flatMap_congr fun c _ => ?_
    obtain ⟨purpose, env, ⟨name, key, optional⟩, path⟩ := c
    rcases optional with _ | _ | _ <;> simp [terminated, bindingFields, optionalText, nul]

theorem fileFields_injective : Function.Injective fileFields := by
  intro f g h
  simp only [fileFields, List.cons.injEq, and_true, true_and] at h
  exact Prod.ext h.1 h.2

theorem optionalText_injective : Function.Injective optionalText := by
  intro a b h
  revert h
  rcases a with _ | _ | _ <;> rcases b with _ | _ | _ <;> simp [optionalText]

theorem bindingFields_injective : Function.Injective bindingFields := by
  intro c d h
  obtain ⟨purpose, env, ⟨name, key, optional⟩, path⟩ := c
  obtain ⟨purpose', env', ⟨name', key', optional'⟩, path'⟩ := d
  simp only [bindingFields, List.cons.injEq, and_true, true_and] at h
  obtain ⟨rfl, rfl, rfl, rfl, ho, rfl⟩ := h
  rw [optionalText_injective ho]

theorem sortedFiles_perm (data : Table String String) : (sortedFiles data).Perm data.rows :=
  List.perm_insertionSort _ _

/-- The fields give the files and the bindings back. -/
theorem hashFields_inj {data data' : Table String String} {cs cs' : List CredentialBinding}
    (h : hashFields data cs = hashFields data' cs') : Table.Same data data' ∧ cs = cs' := by
  obtain ⟨hf, hc⟩ := records_injective (f := fileFields) (g := bindingFields) (m := 2) (n := 6)
    (fun _ => rfl) (fun _ => rfl) fileFields_injective bindingFields_injective
    (fun _ _ => by simp [fileFields, bindingFields]) h
  refine ⟨Table.Same.of_perm ?_, hc⟩
  exact (sortedFiles_perm data).symm.trans (hf ▸ sortedFiles_perm data')

/-! ## No field holds a NUL -/

def NulFree (s : String) : Prop := nul ∉ s.toList

instance (s : String) : Decidable (NulFree s) := inferInstanceAs (Decidable (¬ _))

theorem nulFree_append {s t : String} : NulFree (s ++ t) ↔ NulFree s ∧ NulFree t := by
  unfold NulFree
  rw [String.toList_append, List.mem_append, not_or]

theorem NulFree.append {s t : String} (h : NulFree s) (h' : NulFree t) : NulFree (s ++ t) :=
  nulFree_append.2 ⟨h, h'⟩

theorem NulFree.intercalate {sep : String} (hs : NulFree sep) : ∀ {l : List String},
    (∀ s ∈ l, NulFree s) → NulFree (sep.intercalate l)
  | [], _ => List.not_mem_nil
  | [s], h => by
    rw [String.intercalate_singleton]
    exact h s List.mem_cons_self
  | s :: t :: l, h => by
    rw [String.intercalate_cons_cons]
    exact ((h s List.mem_cons_self).append hs).append
      (NulFree.intercalate hs fun u hu => h u (List.mem_cons_of_mem _ hu))

theorem NulFree.ofList {cs : List Char} (h : nul ∉ cs) : NulFree (String.ofList cs) := by
  unfold NulFree
  rwa [String.toList_ofList]

theorem shellQuote_nulFree {s q : String} (h : shellQuote s = .ok q) : NulFree q := by
  unfold shellQuote at h
  split at h
  · cases h
  · rename_i hs
    cases h
    refine .ofList fun hm => ?_
    simp only [quote, List.cons_append, List.mem_cons, List.mem_append, List.mem_flatMap,
      List.not_mem_nil, or_false] at hm
    rcases hm with hm | ⟨c, hc, hm⟩ | hm
    · revert hm
      decide
    · split at hm
      · revert hm
        decide
      · obtain rfl := List.mem_singleton.1 hm
        exact hs (List.any_eq_true.2 ⟨nul, hc, by decide⟩)
    · revert hm
      decide

theorem quoteFlags_nulFree : ∀ {flags qs : List String}, quoteFlags flags = .ok qs →
    ∀ q ∈ qs, NulFree q
  | [], qs, h => by
    cases h
    simp
  | flag :: flags, qs, h => by
    simp only [quoteFlags, bind_ok_iff] at h
    obtain ⟨q, hq, rest, hr, he⟩ := h
    cases he
    exact List.forall_mem_cons.2 ⟨shellQuote_nulFree hq, quoteFlags_nulFree hr⟩

theorem restoreLine_nulFree {flags : List String} {configFile dbPath text : String}
    (h : restoreLine flags configFile dbPath = .ok text) : NulFree text := by
  simp only [restoreLine, bind_ok_iff] at h
  obtain ⟨qs, hqs, c, hc, d, hd, he⟩ := h
  cases he
  have hflags : NulFree (" ".intercalate qs) := .intercalate (by decide) (quoteFlags_nulFree hqs)
  simp only [nulFree_append, hflags, shellQuote_nulFree hc, shellQuote_nulFree hd, and_true]
  simp [NulFree, nul]

theorem stagedRestoreLine_nulFree {flags : List String} {configFile dbPath text : String}
    (h : stagedRestoreLine flags configFile dbPath = .ok text) : NulFree text := by
  simp only [stagedRestoreLine, bind_ok_iff] at h
  obtain ⟨qs, hqs, c, hc, d, hd, t, ht, w, hw, s, hs, j, hj, he⟩ := h
  obtain rfl := pure_ok_iff.1 he
  have hflags : NulFree (" ".intercalate qs) := .intercalate (by decide) (quoteFlags_nulFree hqs)
  simp only [nulFree_append, hflags, shellQuote_nulFree hc, shellQuote_nulFree hd,
    shellQuote_nulFree ht, shellQuote_nulFree hw, shellQuote_nulFree hs, shellQuote_nulFree hj,
    and_true]
  simp [NulFree, nul]

theorem chmodLine_nulFree {mode path : String} (hm : NulFree mode) (hp : NulFree path) :
    NulFree (chmodLine mode path) := by
  unfold chmodLine
  simp only [nulFree_append, hm, hp, and_true]
  simp [NulFree, nul]

theorem IsMode.nulFree {mode : String} (h : IsMode mode) : NulFree mode := fun hm =>
  absurd (List.all_eq_true.1 h.2 nul hm) (by decide)

theorem chmodLines_nulFree {db : Database} {perms : PermissionsSpec} {text : String}
    (hv : ValidModes db perms) (h : chmodLines db perms = .ok text) : NulFree text := by
  unfold chmodLines at h
  by_cases hnone : perms.databaseMode = "" ∧ perms.directoryMode = ""
  · rw [if_pos hnone] at h
    obtain rfl := pure_ok_iff.1 h
    decide
  rw [if_neg hnone] at h
  obtain ⟨q, hq, h⟩ := bind_ok_iff.1 h
  have hq := shellQuote_nulFree hq
  have hdb : NulFree (if perms.databaseMode ≠ "" then chmodLine perms.databaseMode q else "") := by
    split
    · exact chmodLine_nulFree (hv.databaseMode ‹_›).nulFree hq
    · decide
  have hstart : NulFree ("if [ -e " ++ q ++ " ]; then\n" ++
      if perms.databaseMode ≠ "" then chmodLine perms.databaseMode q else "") :=
    ((NulFree.append (by decide) hq).append (by decide)).append hdb
  by_cases hdir : Path.dir db.path = "/" ∨ perms.directoryMode = ""
  · rw [if_pos hdir] at h
    obtain rfl := pure_ok_iff.1 h
    exact hstart.append (by decide)
  · rw [if_neg hdir] at h
    obtain ⟨d, hd, h⟩ := bind_ok_iff.1 h
    obtain rfl := pure_ok_iff.1 h
    have hmode := (hv.directoryMode fun he => hdir (.inr he)).nulFree
    exact (hstart.append (chmodLine_nulFree hmode (shellQuote_nulFree hd))).append (by decide)

theorem buildRestoreLine_nulFree {policy : RestorePolicy} {configFile dbPath text : String}
    (h : buildRestoreLine policy configFile dbPath = .ok text) : NulFree text := by
  unfold buildRestoreLine at h
  split at h
  · exact stagedRestoreLine_nulFree h
  · exact restoreLine_nulFree h

theorem refuse_nulFree {problem nameArg : String} (hp : NulFree problem) (hn : NulFree nameArg) :
    NulFree (refuse problem nameArg) := by
  unfold refuse
  simp only [nulFree_append, hp, hn, and_true]
  simp [NulFree, nul]

theorem preflight_nulFree {name destCfg dbPath text : String} (hc : NulFree destCfg)
    (hd : NulFree dbPath) (h : buildRequireEmptyPreflight name destCfg dbPath = .ok text) :
    NulFree text := by
  obtain ⟨q, hq, h⟩ := bind_ok_iff.1 h
  obtain rfl := pure_ok_iff.1 h
  have hproblem : NulFree inspectProblem ∧ NulFree occupiedProblem := by
    simp [NulFree, nul, inspectProblem, occupiedProblem]
  have hinspect : NulFree (refuse inspectProblem q) :=
    refuse_nulFree hproblem.1 (shellQuote_nulFree hq)
  have hoccupied : NulFree (refuse occupiedProblem q) :=
    refuse_nulFree hproblem.2 (shellQuote_nulFree hq)
  unfold inspectProblem at hinspect
  unfold occupiedProblem at hoccupied
  simp only [nulFree_append, hc, hd, hinspect, hoccupied, and_true]
  simp [NulFree, nul]

/-- A script is NUL-free, whatever it quotes. -/
theorem script_nulFree {db : Database} {perms : PermissionsSpec} {text : String}
    (hv : ValidModes db perms) (h : script perms db = .ok text) : NulFree text := by
  have hprologue : NulFree "#!/bin/sh\nset -eu\n" := by decide
  have hsingle : ∀ {configFileName policy text}, buildSingleRestoreScript db perms configFileName
      policy = .ok text → NulFree text := by
    intro configFileName policy text h
    simp only [buildSingleRestoreScript, bind_ok_iff] at h
    obtain ⟨chmod, hc, restore, hr, he⟩ := h
    obtain rfl := pure_ok_iff.1 he
    exact (hprologue.append (buildRestoreLine_nulFree hr)).append (chmodLines_nulFree hv hc)
  unfold script at h
  split at h
  · simp only [buildCloneScript, bind_ok_iff] at h
    obtain ⟨c, hc, d, hd, chmod, hm, pre, hp, dest, hdest, src, hsrc, he⟩ := h
    obtain rfl := pure_ok_iff.1 he
    have hpre : NulFree pre := by
      unfold preflightLines at hp
      split at hp
      · exact preflight_nulFree (shellQuote_nulFree hc) (shellQuote_nulFree hd) hp
      · cases hp
        decide
    exact (((hprologue.append hpre).append (buildRestoreLine_nulFree hdest)).append
      (buildRestoreLine_nulFree hsrc)).append (chmodLines_nulFree hv hm)
  · exact hsingle h
  · exact hsingle h

/-! ## Files -/

section Rendered

variable {L : Library} {input : Input} {r : RenderedConfig} {parts : List Part}

theorem nulFree_of_label {s : String} (h : LabelText s) : NulFree s := fun hm =>
  absurd (h nul hm) (by decide)

/-- `yaml.Marshal` writes no NUL. -/
def Library.NulFreeDocs (L : Library) : Prop :=
  ∀ entries doc, L.marshal entries = .ok doc → NulFree doc

theorem stems_nulFree {db : Database} (h : LabelText db.name) :
    ∀ stem ∈ stems db, NulFree stem := by
  have hname := nulFree_of_label h
  unfold stems
  split
  · simp only [List.mem_cons, List.not_mem_nil, or_false]
    rintro stem (rfl | rfl)
    · exact hname.append (by decide)
    · exact hname.append (by decide)
  · simpa using hname

theorem Renders.nulFree {perms : PermissionsSpec} {injection : InjectionSpec} {db : Database}
    {part : Part} (h : Renders L perms db part) (hL : L.NulFreeDocs)
    (hlabel : LabelText db.name) (hv : ValidDatabase injection db)
    (hm : ValidModes db perms) : ∀ f ∈ part.files, NulFree f.1 ∧ NulFree f.2 := by
  obtain ⟨docs, text, hdocs, htext, hfiles⟩ := h.files
  intro f hf
  rw [hfiles, List.mem_append, List.mem_singleton] at hf
  rcases hf with hf | rfl
  · obtain ⟨c, hc, hname, hdoc⟩ := forall₂_mem_right hdocs hf
    have hcn : c.1 ∈ (configs L db).map (·.1) := List.mem_map_of_mem hc
    rw [configs_names L hv] at hcn
    obtain ⟨stem, hs, he⟩ := List.mem_map.1 hcn
    rw [hname, ← he]
    exact ⟨((by decide : NulFree "restore-").append (stems_nulFree hlabel stem hs)).append
      (by decide), hL _ _ hdoc⟩
  · exact ⟨((by decide : NulFree "restore-").append (nulFree_of_label hlabel)).append (by decide),
      script_nulFree hm htext⟩

theorem mem_of_writeAll {files : List (String × String)} {f : String × String}
    (h : f ∈ (writeAll files).rows) : f ∈ files := by
  have hg := Table.get?_eq_some_iff.2 h
  rw [get?_writeAll] at hg
  obtain ⟨as, bs, he, -⟩ := List.lookup_eq_some_iff.1 hg
  rw [← List.mem_reverse, he]
  exact List.mem_append_right _ List.mem_cons_self

theorem Rendering.files_nulFree (hp : Rendering L input r parts) (hL : L.NulFreeDocs)
    (hc : Checked input) (hm : ∀ db ∈ input.databases, ValidModes db input.injection.permissions) :
    ∀ f ∈ r.data.rows, NulFree f.1 ∧ NulFree f.2 := by
  have hparts : ∀ f ∈ parts.flatMap (·.files), NulFree f.1 ∧ NulFree f.2 := by
    intro f hf
    obtain ⟨part, hpart, hf⟩ := List.mem_flatMap.1 hf
    obtain ⟨db, hdb, hren⟩ := forall₂_mem_right hp.parts_ok hpart
    exact hren.nulFree hL (hc.label db hdb) (hc.valid.databases db hdb) (hm db hdb) f hf
  intro f hf
  rcases hp.data with ⟨-, hd⟩ | ⟨doc, hdoc, -, hd⟩
  · rw [hd] at hf
    exact hparts f (mem_of_writeAll hf)
  · rw [hd] at hf
    rcases List.mem_append.1 (mem_of_writeAll hf) with hf | hf
    · exact hparts f hf
    · obtain rfl := List.mem_singleton.1 hf
      exact ⟨(by decide : NulFree replicateConfigFile), hL _ _ hdoc⟩

/-! ## Bindings -/

theorem envName_nulFree (s : String) (role : Role) {backend field : String}
    (h : backend ++ "_" ++ field ∈ variableTexts) : NulFree (envName s role backend field) := by
  have hvar : ∀ t ∈ variableTexts, NulFree t := by decide
  have hname : NulFree (sanitizeIdentifier s) := .ofList fun hm => by
    obtain ⟨c, -, he⟩ := List.mem_map.1 hm
    unfold sanitizeChar at he
    split at he
    · rename_i hc
      rw [he] at hc
      revert hc
      decide
    · revert he
      decide
  have hrole : NulFree role.text := by cases role <;> decide
  rw [envName_eq]
  exact NulFree.append (by decide) (hname.append
    (((NulFree.append (by decide) hrole).append (by decide)).append (hvar _ h)))

theorem Origin.nulFree (hc : Checked input) (o : Origin input) :
    ∀ s ∈ bindingFields o.binding, NulFree s := by
  have hpurpose : NulFree o.binding.containerPurpose := by
    have hrestore : NulFree (restoreContainerPurpose o.db.name) :=
      NulFree.append (by decide) (nulFree_of_label (hc.label _ o.mem))
    rw [o.purpose]
    rcases o.of.cases with ⟨-, hp, -⟩ | ⟨-, -, hp | ⟨hp, -⟩⟩
    · exact hp ▸ hrestore
    · exact hp ▸ (by decide : NulFree replicateContainerPurpose)
    · exact hp ▸ hrestore
  have hfile : NulFree o.binding.fileMountPath := by
    by_cases hf : o.binding.fileMountPath = ""
    · rw [hf]
      decide
    · obtain ⟨rest, he, hr⟩ := path_form hc hf
      rw [he]
      exact NulFree.append (by decide) hr
  have henv : NulFree o.binding.envName := by
    by_cases he : o.binding.envName = ""
    · rw [he]
      decide
    by_cases hf : o.binding.fileMountPath = ""
    · obtain ⟨field, hx, hen⟩ := env_form he hf
      obtain ⟨n, hm⟩ := mem_slotNames o.field
      rw [hen, o.of.backend]
      exact envName_nulFree _ _ (variableText_mem (hx ▸ hm))
    · rw [(shared_form he hf).1]
      decide
  have href : o.binding.secretKeyRef = o.ref.secretKeyRef := by
    unfold Origin.binding
    cases o.slot <;> rfl
  have hoptional : ∀ b, NulFree (optionalText b) := by
    intro b
    rcases b with _ | _ | _ <;> decide
  intro s hs
  simp only [bindingFields, href, List.mem_cons, List.not_mem_nil, or_false] at hs
  rcases hs with rfl | rfl | rfl | rfl | rfl | rfl | rfl
  · decide
  · exact hpurpose
  · exact henv
  · exact (ref_valid hc).name
  · exact key_nul hc
  · exact hoptional _
  · exact hfile

theorem hashFields_nulFree {P : Parsers} {R : Replicas} {spec : LitestreamSpec}
    (hL : L.NulFreeDocs) (hres : resolve P R spec = .ok input) (hr : render L input = .ok r) :
    ∀ s ∈ hashFields r.data r.credentials, NulFree s := by
  obtain ⟨parts, hp⟩ := render_ok hr
  have hc := checked_of_resolve hres hp.valid
  have hfiles := hp.files_nulFree hL hc fun db hdb => (placed_of_resolve hres hc.valid hdb).modes
  intro s hs
  rcases List.mem_append.1 hs with hs | hs
  · obtain ⟨f, hf, hs⟩ := List.mem_flatMap.1 hs
    have hf := hfiles f ((sortedFiles_perm r.data).mem_iff.1 hf)
    simp only [fileFields, List.mem_cons, List.not_mem_nil, or_false] at hs
    rcases hs with rfl | rfl | rfl
    · decide
    · exact hf.1
    · exact hf.2
  · obtain ⟨c, hcm, hs⟩ := List.mem_flatMap.1 hs
    obtain ⟨o, rfl⟩ := origin_of_render hr hcm
    exact o.nulFree hc s hs

end Rendered

/-- Renderings with one hash have the same files and the same bindings. -/
theorem hash_identifies {L : Library} {P P' : Parsers} {R R' : Replicas}
    {spec spec' : LitestreamSpec} {input input' : Input} {r r' : RenderedConfig}
    (hL : L.NulFreeDocs)
    (hsha : L.sha256 (hashInput r.data r.credentials) =
        L.sha256 (hashInput r'.data r'.credentials) →
      hashInput r.data r.credentials = hashInput r'.data r'.credentials)
    (hres : resolve P R spec = .ok input) (hres' : resolve P' R' spec' = .ok input')
    (hr : render L input = .ok r) (hr' : render L input' = .ok r') (h : r.hash = r'.hash) :
    Table.Same r.data r'.data ∧ r.credentials = r'.credentials := by
  have hhash : ∀ {i : Input} {q : RenderedConfig}, render L i = .ok q →
      q.hash = L.sha256 (hashInput q.data q.credentials) := by
    intro i q hq
    simp only [render, check_ok_iff] at hq
    simp only [bind_ok_iff] at hq
    obtain ⟨-, parts, -, rep, -, he⟩ := hq
    cases he
    rfl
  rw [hhash hr, hhash hr'] at h
  have htext := congrArg String.toList (hsha h)
  rw [hashInput_fields, hashInput_fields] at htext
  have hfree : ∀ {l : List String}, (∀ s ∈ l, NulFree s) → ∀ f ∈ l.map String.toList, nul ∉ f := by
    intro l hl f hf
    obtain ⟨s, hs, rfl⟩ := List.mem_map.1 hf
    exact hl s hs
  have hfields := terminated_injective (hfree (hashFields_nulFree hL hres hr))
    (hfree (hashFields_nulFree hL hres' hr')) htext
  exact hashFields_inj (List.map_injective_iff.2 (fun _ _ => String.toList_injective) hfields)

theorem Library.listed_nulFree {docs : List (List DbEntry)}
    (hdocs : ∀ entries ∈ docs, NulFree (documentText entries)) :
    (Library.listed docs).NulFreeDocs := by
  intro entries doc h
  simp only [Library.listed] at h
  split at h
  · rename_i hm
    cases h
    exact hdocs entries hm
  · cases h

/-- The databases of `Account` with another image policy, which is no part of the configuration. -/
def Account.pulled : LitestreamSpec := { Account.spec with image := { pullPolicy := "Always" } }

theorem Account.resolve_pulled : resolve .lenient replicas pulled =
    (resolve .lenient replicas spec).map fun i => { i with image := { pullPolicy := "Always" } } :=
  rfl

theorem hash_identifies_pulled : ∃ i i' r r',
    resolve .lenient Account.replicas Account.spec = .ok i ∧
    resolve .lenient Account.replicas Account.pulled = .ok i' ∧ i ≠ i' ∧
    render Account.library i = .ok r ∧ render Account.library i' = .ok r' ∧ r.hash = r'.hash ∧
    Table.Same r.data r'.data ∧ r.credentials = r'.credentials := by
  obtain ⟨r, hr, -⟩ := Option.map_eq_some_iff.1 Account.rendered_count
  obtain ⟨i, hi, hri⟩ := renderSpec_eq_some hr
  have hi' := Account.resolve_pulled
  rw [hi] at hi'
  have hne : i ≠ { i with image := { pullPolicy := "Always" } } := by
    intro he
    have himage := congrArg (·.image.pullPolicy) he
    rw [(resolve_ok hi).2.1] at himage
    simp [Account.spec] at himage
  exact ⟨i, _, r, r, hi, hi', hne, hri, hri, rfl,
    hash_identifies (Library.listed_nulFree (by decide +kernel)) (fun h => h) hi hi' hri hri rfl⟩

end Controller.Config
