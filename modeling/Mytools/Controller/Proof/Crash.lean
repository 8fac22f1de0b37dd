import Mytools.Controller.Config.Storage
import Mytools.Controller.Proof.Resume

/-!
# Restores that are interrupted

An overwriting restore goes to a temporary file, which is renamed to the database when the restore
has succeeded. Up to the rename only the temporary file changes (`Pending`); after it the database
is what the restore has left (`Replaced`), and the companions of the old one may go. The action on
signals and on the end of the script removes the temporary file, at any of these points.

The argument needs that the temporary file is another one than the database. This is what `mktemp`
gives if the database exists, and otherwise if its name is none that `mktemp` may draw.
-/

namespace Controller.Config

open Lib Shell Storage V1alpha1

/-! ## Files -/

/-- The files that SQLite keeps beside a database. -/
def companions (path : String) : List Entry :=
  ["-wal", "-shm", "-journal"].map fun suffix => Path.elements (path ++ suffix)

/-- The file is neither the database nor a companion of it. -/
structure Apart (path : String) (t : Entry) : Prop where
  database : t ≠ Path.elements path
  companion : t ∉ companions path

/-- The last element of a temporary file. -/
def temporaryName (six : List Char) : List Char := ".litestream-restore-".toList ++ six

theorem kept_temporaryName {six : List Char} (h : '/' ∉ six) : Path.Kept (temporaryName six) := by
  have hname : temporaryName six = '.' :: 'l' :: ("itestream-restore-".toList ++ six) := rfl
  have hslash : '/' ∉ ".litestream-restore-".toList := by decide
  refine ⟨?_, ?_, ?_, ?_⟩
  · rw [hname]
    exact List.cons_ne_nil _ _
  · unfold temporaryName
    generalize ".litestream-restore-".toList = cs at hslash
    simp [hslash, h]
  · rw [hname]
    simp
  · rw [hname]
    simp

theorem template_cut : ".litestream-restore-XXXXXX".toList =
    ".litestream-restore-".toList ++ "XXXXXX".toList := rfl

theorem not_slash_of_alphanum {six : List Char} (h : six.all Char.isAlphanum = true) :
    '/' ∉ six := fun hm => absurd (List.all_eq_true.1 h _ hm) (by decide)

theorem elements_drawn {path tmp : String} (habs : Path.isAbs path = true)
    (h : Drawn (restoreTemplate path) tmp) :
    ∃ six, six.length = 6 ∧ six.all Char.isAlphanum = true ∧
      Path.elements tmp = Path.elements (Path.dir path) ++ [temporaryName six] := by
  obtain ⟨base, six, htemplate, rfl, hlen, hsix⟩ := h
  obtain ⟨pre, last, hp, hl⟩ := Path.exists_cut habs
  have hdir : Path.isAbs (Path.dir path) = true := by
    rw [Path.dir_eq hp hl]
    exact Path.isAbs_clean_self (Path.isAbs_pre habs hp)
  refine ⟨six.toList, hlen, hsix, ?_⟩
  have h := Path.elements_replaced base six.toList hdir template_cut
    (template_cut ▸ kept_temporaryName (by decide))
    (kept_temporaryName (not_slash_of_alphanum hsix))
    (by rw [← String.toList_append, ← htemplate]; rfl)
  rwa [String.ofList_toList] at h

/-- A temporary file has letters and digits where a companion has its suffix. -/
theorem temporaryName_ne {six : List Char} (hlen : six.length = 6)
    (hsix : six.all Char.isAlphanum = true) (last : List Char) :
    temporaryName six ≠ last ++ "-wal".toList ∧ temporaryName six ≠ last ++ "-shm".toList ∧
      temporaryName six ≠ last ++ "-journal".toList := by
  obtain ⟨a, b, c, d, e, f, rfl⟩ : ∃ a b c d e f, six = [a, b, c, d, e, f] := by
    match six, hlen with
    | [a, b, c, d, e, f], _ => exact ⟨a, b, c, d, e, f, rfl⟩
  have hc : c ≠ '-' := by
    rintro rfl
    simp at hsix
  have hrev : (temporaryName [a, b, c, d, e, f]).reverse =
      f :: e :: d :: c :: b :: a :: '-' :: ".litestream-restore".toList.reverse := rfl
  refine ⟨?_, ?_, ?_⟩
  all_goals
    intro he
    have he := congrArg List.reverse he
    rw [hrev, List.reverse_append] at he
    simp at he
  · exact hc he.2.2.2.1
  · exact hc he.2.2.2.1

theorem elements_companion {path : String} (habs : Path.isAbs path = true) {k : Entry}
    (h : k ∈ companions path) : ∃ last, k = Path.elements (Path.dir path) ++ [last] ∧
      k ≠ Path.elements path ∧ ∀ six : List Char, six.length = 6 →
        six.all Char.isAlphanum = true → temporaryName six ≠ last := by
  obtain ⟨pre, last, hp, hl⟩ := Path.exists_cut habs
  obtain ⟨suffix, hs, rfl⟩ := List.mem_map.1 h
  have hsuffix : '/' ∉ suffix.toList ∧ '-' ∈ suffix.toList ∧ suffix.toList ≠ [] := by
    rcases List.mem_cons.1 hs with rfl | hs
    · decide
    · rcases List.mem_cons.1 hs with rfl | hs
      · decide
      · rw [List.mem_singleton.1 hs]
        decide
  have hel := Path.elements_suffix habs hp hl hsuffix.1 hsuffix.2.1
  refine ⟨last ++ suffix.toList, hel, ?_, ?_⟩
  · rw [hel]
    exact (Path.elements_ne_suffix habs hp hl hsuffix.2.2).symm
  · intro six hlen hsix
    obtain ⟨hwal, hshm, hjournal⟩ := temporaryName_ne hlen hsix last
    rcases List.mem_cons.1 hs with rfl | hs
    · exact hwal
    · rcases List.mem_cons.1 hs with rfl | hs
      · exact hshm
      · rw [List.mem_singleton.1 hs]
        exact hjournal

theorem database_not_companion {path : String} (habs : Path.isAbs path = true) :
    Path.elements path ∉ companions path := by
  intro h
  obtain ⟨_, -, hne, -⟩ := elements_companion habs h
  exact hne rfl

theorem apart_drawn {path tmp : String} (habs : Path.isAbs path = true)
    (h : Drawn (restoreTemplate path) tmp) (hne : Path.elements tmp ≠ Path.elements path) :
    Apart path (Path.elements tmp) := by
  refine ⟨hne, fun hc => ?_⟩
  obtain ⟨six, hlen, hsix, hel⟩ := elements_drawn habs h
  obtain ⟨last, hlast, -, hname⟩ := elements_companion habs hc
  rw [hel] at hlast
  exact hname six hlen hsix (by simpa using hlast)

/-! ## Stages -/

section Stages

variable (path : String) (v₀ : Storage) (t : Entry) (v v' : Storage)

/-- Nothing but a temporary file is another one. -/
def Pending : Prop := Beside [t] v₀ v

/-- The temporary file is what a restore has left that succeeded, or nothing is in it. -/
def Ready : Prop :=
  Pending v₀ t v ∧ ∀ n, v.nodes t = some n → n = .file [] ∨ ∃ bytes ∈ v.served, n = .file bytes

/-- The temporary file is what a restore has left that succeeded, or it was removed. -/
def Full : Prop :=
  Pending v₀ t v ∧ ∀ n, v.nodes t = some n → ∃ bytes ∈ v.served, bytes ≠ [] ∧ n = .file bytes

/-- The database is what a restore has left that succeeded. -/
def Replaced : Prop :=
  Path.elements path ∈ v.renamed ∧
    ∃ bytes ∈ v.served, bytes ≠ [] ∧ v.nodes (Path.elements path) = some (.file bytes)

def Safe : Prop := Pending v₀ t v ∨ Replaced path v

/-- The database was replaced and the companions of the old one are gone. -/
def Cleared : Prop := Replaced path v ∧ ∀ k ∈ companions path, v.nodes k = none

def Done : Prop := Pending v₀ t v ∨ Cleared path v

end Stages

variable {path : String} {v₀ v v' : Storage} {t : Entry}

theorem Done.safe (h : Done path v₀ t v) : Safe path v₀ t v := h.imp_right And.left

/-- What the removal of the temporary file does not change. -/
def Stable (t : Entry) (P : Storage → Prop) : Prop := ∀ v v', P v → v.Removed [t] v' → P v'

theorem stable_pending : Stable t (Pending v₀ t) := by
  intro v v' h hr
  refine ⟨fun k hk => ?_, hr.1.renamed.trans h.renamed⟩
  rw [hr.1.nodes k hk, h.nodes k hk]

theorem Removed.node (h : v.Removed [t] v') {n : Node} (hn : v'.nodes t = some n) :
    v.nodes t = some n := by
  rcases h.2.1 t List.mem_cons_self with he | he
  · rw [← he, hn]
  · rw [he] at hn
    cases hn

theorem stable_ready : Stable t (Ready v₀ t) := by
  intro v v' h hr
  refine ⟨stable_pending v v' h.1 hr, fun n hn => ?_⟩
  rw [hr.2.2]
  exact h.2 n (Removed.node hr hn)

theorem stable_full : Stable t (Full v₀ t) := by
  intro v v' h hr
  refine ⟨stable_pending v v' h.1 hr, fun n hn => ?_⟩
  rw [hr.2.2]
  exact h.2 n (Removed.node hr hn)

theorem stable_replaced (ha : Apart path t) : Stable t (Replaced path) := by
  intro v v' h hr
  have hd : Path.elements path ∉ [t] := by simpa using ha.database.symm
  rw [Replaced, hr.1.renamed, hr.1.nodes _ hd, hr.2.2]
  exact h

theorem stable_safe (ha : Apart path t) : Stable t (Safe path v₀ t) := by
  intro v v' h hr
  exact h.imp (stable_pending v v' · hr) (stable_replaced ha v v' · hr)

theorem stable_cleared (ha : Apart path t) : Stable t (Cleared path) := by
  intro v v' h hr
  refine ⟨stable_replaced ha v v' h.1 hr, fun k hk => ?_⟩
  have hkt : k ∉ [t] := by
    rw [List.mem_singleton]
    rintro rfl
    exact ha.companion hk
  rw [hr.1.nodes k hkt]
  exact h.2 k hk

theorem stable_done (ha : Apart path t) : Stable t (Done path v₀ t) := by
  intro v v' h hr
  exact h.imp (stable_pending v v' · hr) (stable_cleared ha v v' · hr)

/-! ## The shell with its action -/

def removeTemporary : String := "rm -f \"$restore_tmp\""

/-- The shell once the temporary file is to be removed on signals; `x` is the action on `EXIT`. -/
def armed (x : Option String) (tmp : String) (v : Storage) : Trapping Storage where
  errexit := true
  nounset := true
  vars := [("restore_tmp", tmp)]
  onExit := x
  onSignal := some removeTemporary
  world := v

variable {x : Option String} {tmp : String}

/-- The end of a command in this shell that goes on: it has succeeded, or its status was tested. -/
def Passing (tested : Bool) (x : Option String) (tmp : String) (P F : Storage → Prop) :
    Trapping Storage → Nat → Prop :=
  fun s k => (tested = false → k = 0) ∧ ∃ v, s = armed x tmp v ∧ (k = 0 → P v) ∧ F v

def Failing (x : Option String) (tmp : String) (F : Storage → Prop) :
    Trapping Storage → Nat → Prop :=
  fun s k => k ≠ 0 ∧ ∃ v, s = armed x tmp v ∧ F v

/-- What the shell does on a signal keeps all that the removal of the temporary file keeps. -/
def Handles (H : Trapping Storage → Lib.Shell.Ends Storage) (x : Option String) (tmp : String) :
    Prop :=
  ∀ P, Stable (Path.elements tmp) P → ∀ v, P v →
    (H (armed x tmp v)).Within (post (Passing true x tmp P P) (Failing x tmp P) P)

variable {H : Trapping Storage → Lib.Shell.Ends Storage} {tested : Bool} {P F : Storage → Prop}

theorem settle_armed {k : Nat} {out : Output} {K : Storage → Prop} (hP : k = 0 → P v) (hF : F v) :
    post (Passing tested x tmp P F) (Failing x tmp F) K (settle tested (armed x tmp v) k out) := by
  unfold settle
  split
  · rename_i hk
    exact ⟨hk.1, v, rfl, hF⟩
  · rename_i hk
    refine ⟨fun ht => ?_, v, rfl, hP, hF⟩
    by_contra hne
    exact hk ⟨hne, rfl, ht⟩

theorem settled_armed {k : Nat} {out : Output} (hH : Handles H x tmp)
    (hP : Stable (Path.elements tmp) P) (hF : Stable (Path.elements tmp) F) (hPv : k = 0 → P v)
    (hFv : F v) :
    (settled H tested (armed x tmp v) k out).Within
      (post (Passing tested x tmp P F) (Failing x tmp F) F) := by
  refine within_settled (settle_armed hPv hFv) ?_
  have hboth : Stable (Path.elements tmp) fun v => (k = 0 → P v) ∧ F v :=
    fun v v' h hr => ⟨fun hk => hP v v' (h.1 hk) hr, hF v v' h.2 hr⟩
  refine (hH _ hboth v ⟨hPv, hFv⟩).mono ?_ ?_ fun w hw => hw.2
  · rintro s' - ⟨-, v', rfl, -, hPv', hFv'⟩
    exact settle_armed hPv' hFv'
  · rintro s' k' ⟨hk', v', rfl, -, hFv'⟩
    exact ⟨hk', v', rfl, hFv'⟩

/-- A program: what its success and its failure leave, and what it leaves when it is killed. -/
theorem program_armed {input : String} {ws : List Word} {name : String} {args : List String}
    (hH : Handles H x tmp) (hw : Expands (armed x tmp v).toState ws (name :: args))
    (hname : name ≠ "set" ∧ name ≠ "exit" ∧ name ≠ "trap") (hP : Stable (Path.elements tmp) P)
    (hF : Stable (Path.elements tmp) F) (hv : F v)
    (hended : ∀ e, behaves (name :: args) input v (.ended e) →
      (e.status = 0 → P e.world) ∧ F e.world)
    (hkilled : ∀ w, behaves (name :: args) input v (.killed w) → F w) :
    ((Cmd.simple ws).ends behaves H tested input (armed x tmp v)).Within
      (post (Passing tested x tmp P F) (Failing x tmp F) F) := by
  refine within_program hw hname hv (fun e he => ?_) hkilled
  obtain ⟨hPe, hFe⟩ := hended e he
  exact settled_armed hH hP hF hPe hFe

theorem remove_expands (x : Option String) (tmp : String) (v : Storage) :
    Expands (armed x tmp v).toState [plain "rm", plain "-f", tmpVar] ["rm", "-f", tmp] := by
  have hname : Expands (armed x tmp v).toState [plain "rm", plain "-f"] ["rm", "-f"] := rfl
  exact hname.append (Expands.var rfl)

theorem remove_armed {k : Nat} (hH : Handles H x tmp) (hP : Stable (Path.elements tmp) P)
    (hv : P v) :
    (textEnds behaves H (armed x tmp v) k removeTemporary).Within
      (post (Passing false x tmp P P) (Failing x tmp P) P) := by
  unfold textEnds removeTemporary
  rw [parse_action]
  refine within_one (program_armed hH (remove_expands x tmp v) (by decide) hP hP hv ?_ ?_)
  · intro e he
    have hw : P e.world := hP v e.world hv he.1
    exact ⟨fun _ => hw, hw⟩
  · intro w hw
    exact hP v w hv hw

theorem handles_none : Handles (fun _ _ => False) x tmp :=
  fun _ _ _ _ _ h => h.elim

theorem handles_action (x : Option String) (tmp : String) : Handles (handle behaves) x tmp := by
  intro P hP v hv
  show (textEnds behaves (fun _ _ => False) (armed x tmp v) 0 removeTemporary).Within _
  refine (remove_armed handles_none hP hv).mono ?_ (fun _ _ h => h) fun _ h => h
  rintro s k ⟨-, h⟩
  exact ⟨fun ht => (by cases ht), h⟩

/-! ## The steps -/

/-- The shell goes on with a volume that has the property. -/
def Armed (x : Option String) (tmp : String) (P : Storage → Prop) : Trapping Storage → Nat → Prop :=
  fun s _ => ∃ v, s = armed x tmp v ∧ P v

theorem armed_of_passing {s : Trapping Storage} {k : Nat} (h : Passing false x tmp P F s k) :
    Armed x tmp P s k := by
  obtain ⟨hk, v, rfl, hP, -⟩ := h
  exact ⟨v, rfl, hP (hk rfl)⟩

theorem Failing.imp {s : Trapping Storage} {k : Nat} {F' : Storage → Prop} (h : Failing x tmp F s k)
    (hF : ∀ v, F v → F' v) : Failing x tmp F' s k := by
  obtain ⟨hk, v, rfl, hv⟩ := h
  exact ⟨hk, v, rfl, hF v hv⟩

section Steps

variable {db : Database} {policy : RestorePolicy} {configFile : String}
  (ha : Apart db.path (Path.elements tmp))

theorem behaves_restore (hpath : hasPrefix db.path "-" = false) (htmp : tmp ≠ "") :
    behaves ("litestream" :: ("restore" :: policy.flags ++ (["-config", configFile] ++
      (some tmp).elim [] (fun o => ["-o", o]) ++ [db.path]))) "" v =
      v.restores (Path.elements tmp) := by
  rw [behaves, ofCall_restore hpath]
  exact if_neg (by simp [RestorePolicy.args, htmp])

/-- The restore leaves nothing but its output, and a complete one if it succeeds. -/
theorem restore_within (hpath : hasPrefix db.path "-" = false) (htmp : tmp ≠ "")
    (hv : Pending v₀ (Path.elements tmp) v) :
    ((Cmd.simple (plain "litestream" :: plain "restore" :: policy.flags.map lit ++
        [plain "-config", lit configFile, plain "-o", tmpVar, lit db.path])).ends behaves
        (handle behaves) false "" (armed x tmp v)).Within
      (post (Armed x tmp (Ready v₀ (Path.elements tmp)))
        (Failing x tmp (Pending v₀ (Path.elements tmp))) (Pending v₀ (Path.elements tmp))) := by
  have hpending : ∀ v', Beside [Path.elements tmp] v v' → Pending v₀ (Path.elements tmp) v' :=
    fun v' h => ⟨fun k hk => (h.nodes k hk).trans (hv.nodes k hk), h.renamed.trans hv.renamed⟩
  refine (program_armed (handles_action x tmp) (staged_expands rfl policy configFile db.path)
    litestream_program stable_ready stable_pending hv ?_ ?_).mono
    (fun _ _ => armed_of_passing) (fun _ _ h => h) fun _ h => h
  · intro e he
    rw [behaves_restore hpath htmp] at he
    refine ⟨fun hk => ⟨hpending _ he.1, fun n hn => ?_⟩, hpending _ he.1⟩
    have hout := he.2
    rw [if_pos hk] at hout
    rcases hout with ⟨bytes, -, hfile, hserved⟩ | ⟨hempty | hempty, -⟩
    · rw [hfile] at hn
      cases hn
      exact .inr ⟨bytes, by rw [hserved]; exact List.mem_cons_self, rfl⟩
    · rw [hempty] at hn
      cases hn
    · rw [hempty] at hn
      cases hn
      exact .inl rfl
  · intro w hw
    rw [behaves_restore hpath htmp] at hw
    exact hpending w hw.1

/-- The test for an output. -/
theorem test_within (hv : Ready v₀ (Path.elements tmp) v) :
    ((Cmd.simple [plain "[", plain "-s", tmpVar, plain "]"]).ends behaves (handle behaves) true ""
        (armed x tmp v)).Within
      (post (Passing true x tmp (Full v₀ (Path.elements tmp)) (Ready v₀ (Path.elements tmp)))
        (Failing x tmp (Ready v₀ (Path.elements tmp))) (Ready v₀ (Path.elements tmp))) := by
  have h1 : Expands (armed x tmp v).toState [plain "[", plain "-s"] ["[", "-s"] := rfl
  have h2 : Expands (armed x tmp v).toState [plain "]"] ["]"] := rfl
  have hwords : Expands (armed x tmp v).toState [plain "[", plain "-s", tmpVar, plain "]"]
    ["[", "-s", tmp, "]"] := h1.append ((Expands.var rfl).append h2)
  refine program_armed (handles_action x tmp) hwords (by decide) stable_full stable_ready hv ?_ ?_
  · intro e he
    obtain ⟨hw, hfilled⟩ : e.world = v ∧ (e.status = 0 → v.Filled (Path.elements tmp)) := he
    rw [hw]
    refine ⟨fun hk => ⟨hv.1, fun n hn => ?_⟩, hv⟩
    rcases hv.2 n hn with rfl | ⟨bytes, hb, rfl⟩
    · exact absurd hn (hfilled hk).2
    · refine ⟨bytes, hb, ?_, rfl⟩
      rintro rfl
      exact (hfilled hk).2 hn
  · intro w hw
    rw [show w = v from hw]
    exact hv

include ha

/-- The rename. -/
theorem replace_within (hother : v₀.nodes (Path.elements db.path) ≠ some .other)
    (hv : Full v₀ (Path.elements tmp) v) :
    ((Cmd.simple [plain "mv", tmpVar, lit db.path]).ends behaves (handle behaves) false ""
        (armed x tmp v)).Within
      (post (Armed x tmp (Replaced db.path))
        (Failing x tmp (Safe db.path v₀ (Path.elements tmp)))
        (Safe db.path v₀ (Path.elements tmp))) := by
  have h1 : Expands (armed x tmp v).toState [plain "mv"] ["mv"] := rfl
  have hwords : Expands (armed x tmp v).toState [plain "mv", tmpVar, lit db.path]
      ["mv", tmp, db.path] :=
    h1.append ((Expands.var rfl).append (Expands.lits (armed x tmp v).toState [db.path]))
  have htarget : v.nodes (Path.elements db.path) ≠ some .other := by
    rw [hv.1.nodes _ (by simpa using ha.database.symm)]
    exact hother
  have hbehaves : behaves ["mv", tmp, db.path] "" v =
      v.moves (Path.elements tmp) (Path.elements db.path) := if_neg htarget
  have hmoved : ∀ v', v.Moved (Path.elements tmp) (Path.elements db.path) v' →
      Replaced db.path v' := by
    rintro _ ⟨hne, hsome, rfl⟩
    obtain ⟨n, hn⟩ := Option.ne_none_iff_exists'.1 hsome
    obtain ⟨bytes, hb, hbne, rfl⟩ := hv.2 n hn
    refine ⟨List.mem_cons_self, bytes, hb, hbne, ?_⟩
    simp only [rename, Function.update_of_ne hne.symm, Function.update_self, hn]
  refine (program_armed (handles_action x tmp) hwords (by decide) (stable_replaced ha)
    (stable_safe ha) (.inl hv.1) ?_ ?_).mono (fun _ _ => armed_of_passing) (fun _ _ h => h)
    fun _ h => h
  · intro e he
    rw [hbehaves] at he
    rcases he with hm | ⟨hw, hk⟩
    · exact ⟨fun _ => hmoved _ hm, .inr (hmoved _ hm)⟩
    · exact ⟨fun h => absurd h hk, .inl (hw ▸ hv.1)⟩
  · intro w hw
    rw [hbehaves] at hw
    rcases hw with rfl | hm
    · exact .inl hv.1
    · exact .inr (hmoved _ hm)

/-- The removal of the companions. -/
theorem clear_within (habs : Path.isAbs db.path = true) (hv : Replaced db.path v) :
    ((Cmd.simple [plain "rm", plain "-f", lit (db.path ++ "-wal"), lit (db.path ++ "-shm"),
        lit (db.path ++ "-journal")]).ends behaves (handle behaves) false ""
        (armed x tmp v)).Within
      (post (Armed x tmp (Cleared db.path))
        (Failing x tmp (Safe db.path v₀ (Path.elements tmp)))
        (Safe db.path v₀ (Path.elements tmp))) := by
  have h1 : Expands (armed x tmp v).toState [plain "rm", plain "-f"] ["rm", "-f"] := rfl
  have hwords := h1.append (Expands.lits (armed x tmp v).toState
    [db.path ++ "-wal", db.path ++ "-shm", db.path ++ "-journal"])
  have hreplaced : ∀ v', v.Removed (companions db.path) v' → Replaced db.path v' := by
    intro v' hr
    rw [Replaced, hr.1.renamed, hr.1.nodes _ (database_not_companion habs), hr.2.2]
    exact hv
  refine (program_armed (handles_action x tmp) hwords (by decide) (stable_cleared ha)
    (stable_safe ha) (.inr hv) ?_ ?_).mono (fun _ _ => armed_of_passing) (fun _ _ h => h)
    fun _ h => h
  · intro e he
    exact ⟨fun hk => ⟨hreplaced _ he.1, he.2 hk⟩, .inr (hreplaced _ he.1)⟩
  · intro w hw
    exact .inr (hreplaced _ hw)

/-- The restore and what follows it. -/
theorem staged_within (habs : Path.isAbs db.path = true) (htmp : tmp ≠ "")
    (hother : v₀.nodes (Path.elements db.path) ≠ some .other)
    (hv : Pending v₀ (Path.elements tmp) v) {k : Nat} :
    (listEnds behaves (handle behaves) false "" (armed x tmp v) k
        ((stagedRestoreCmds policy.flags configFile db.path).drop 2)).Within
      (post (Armed x tmp (Done db.path v₀ (Path.elements tmp)))
        (Failing x tmp (Safe db.path v₀ (Path.elements tmp)))
        (Safe db.path v₀ (Path.elements tmp))) := by
  have hpath : hasPrefix db.path "-" = false := by
    obtain ⟨cs, hcs⟩ := Path.isAbs_iff.1 habs
    rw [← Bool.not_eq_true, hasPrefix_iff, hcs]
    simp
  refine within_cons ((restore_within hpath htmp hv).mono (fun _ _ h => h)
    (fun _ _ h => h.imp fun _ => .inl) fun _ => .inl) ?_
  rintro _ _ ⟨v₁, rfl, hready⟩
  refine within_one (within_ifThen (M := Passing true x tmp (Full v₀ (Path.elements tmp))
    (Ready v₀ (Path.elements tmp))) (within_one ((test_within hready).mono (fun _ _ h => h)
      (fun _ _ h => h.imp fun _ h => .inl h.1) fun _ h => .inl h.1)) ?_ ?_)
  · rintro _ ⟨-, v₂, rfl, hfull, -⟩
    refine within_cons (replace_within ha hother (hfull rfl)) ?_
    rintro _ _ ⟨v₃, rfl, hreplaced⟩
    refine within_one ((clear_within ha habs hreplaced).mono ?_ (fun _ _ h => h) fun _ h => h)
    rintro _ _ ⟨v₄, rfl, hcleared⟩
    exact ⟨v₄, rfl, .inr hcleared⟩
  · rintro _ _ ⟨-, v₂, rfl, -, hready⟩
    exact ⟨v₂, rfl, .inl hready.1⟩

/-- A program that changes no file. -/
theorem looks_within {ws : List Word} {name : String} {args : List String} {b : Prop}
    (hw : Expands (armed x tmp v).toState ws (name :: args))
    (hname : name ≠ "set" ∧ name ≠ "exit" ∧ name ≠ "trap")
    (hb : behaves (name :: args) "" v = v.looks b)
    (hv : Done db.path v₀ (Path.elements tmp) v) :
    ((Cmd.simple ws).ends behaves (handle behaves) tested "" (armed x tmp v)).Within
      (post (Armed x tmp (Done db.path v₀ (Path.elements tmp)))
        (Failing x tmp (Safe db.path v₀ (Path.elements tmp)))
        (Safe db.path v₀ (Path.elements tmp))) := by
  refine (program_armed (P := Done db.path v₀ (Path.elements tmp)) (handles_action x tmp) hw hname
    (stable_done ha) (stable_done ha) hv ?_ ?_).mono ?_
    (fun _ _ h => h.imp fun _ => Done.safe) fun _ => Done.safe
  · intro e he
    rw [hb] at he
    rw [he.1]
    exact ⟨fun _ => hv, hv⟩
  · intro w hw
    rw [hb] at hw
    rw [show w = v from hw]
    exact hv
  · rintro _ _ ⟨-, v', rfl, -, hv'⟩
    exact ⟨v', rfl, hv'⟩

theorem chmodCmd_within {mode : String} (hm : IsMode mode) (file : String)
    (hv : Done db.path v₀ (Path.elements tmp) v) :
    ((chmodCmd mode file).ends behaves (handle behaves) false "" (armed x tmp v)).Within
      (post (Armed x tmp (Done db.path v₀ (Path.elements tmp)))
        (Failing x tmp (Safe db.path v₀ (Path.elements tmp)))
        (Safe db.path v₀ (Path.elements tmp))) := by
  have hplain : '*' ∉ mode.toList ∧ '?' ∉ mode.toList := by
    constructor <;> intro hc <;> exact absurd (List.all_eq_true.1 hm.2 _ hc) (by decide)
  have hname : Expands (armed x tmp v).toState [plain "chmod"] ["chmod"] := rfl
  have hmode : Expands (armed x tmp v).toState [plain mode, lit file] [mode, file] := by
    have h := (Expands.lits (armed x tmp v).toState [file]).cons (expand_plain _ hplain)
    rwa [String.ofList_toList] at h
  refine within_ifThen (M := Armed x tmp (Done db.path v₀ (Path.elements tmp)))
    (within_one (within_not (looks_within ha (hname.append hmode) (by decide) rfl hv))) ?_ ?_
  · rintro _ ⟨v₁, rfl, hv₁⟩
    have hecho : Expands (armed x tmp v₁).toState
        [plain "echo", lit "error: unable to apply Litestream permissions"]
        ["echo", "error: unable to apply Litestream permissions"] :=
      (show Expands (armed x tmp v₁).toState [plain "echo"] ["echo"] from rfl).append
        (Expands.lits (armed x tmp v₁).toState ["error: unable to apply Litestream permissions"])
    refine within_cons (within_duplicate (fun _ => rfl)
      (looks_within ha hecho (by decide) rfl hv₁)) ?_
    rintro _ _ ⟨v₂, rfl, hv₂⟩
    have hexit : Expands (armed x tmp v₂).toState [plain "exit", plain "1"] ["exit", "1"] := rfl
    refine within_one (within_simple hexit hv₂.safe ?_)
    exact within_only ⟨Nat.one_ne_zero, v₂, rfl, hv₂.safe⟩
  · rintro _ _ ⟨v₁, rfl, hv₁⟩
    exact ⟨v₁, rfl, hv₁⟩

theorem chmodCmds_within {perms : PermissionsSpec} (hm : ValidModes db perms) {k : Nat}
    (hv : Done db.path v₀ (Path.elements tmp) v) :
    (listEnds behaves (handle behaves) false "" (armed x tmp v) k (chmodCmds db perms)).Within
      (post (Armed x tmp (Done db.path v₀ (Path.elements tmp)))
        (Failing x tmp (Safe db.path v₀ (Path.elements tmp)))
        (Safe db.path v₀ (Path.elements tmp))) := by
  have hall : ∀ (ms : List (String × String)) (v : Storage) (k : Nat), (∀ m ∈ ms, IsMode m.1) →
      Done db.path v₀ (Path.elements tmp) v →
      (listEnds behaves (handle behaves) false "" (armed x tmp v) k
        (ms.map fun m => chmodCmd m.1 m.2)).Within
      (post (Armed x tmp (Done db.path v₀ (Path.elements tmp)))
        (Failing x tmp (Safe db.path v₀ (Path.elements tmp)))
        (Safe db.path v₀ (Path.elements tmp))) := by
    intro ms
    induction ms with
    | nil => exact fun v k _ hv => within_nil ⟨v, rfl, hv⟩
    | cons m ms ih =>
      intro v k hms hv
      refine within_cons (chmodCmd_within ha (hms m List.mem_cons_self) m.2 hv) ?_
      rintro _ k' ⟨v', rfl, hv'⟩
      exact ih v' k' (fun m hm => hms m (List.mem_cons_of_mem _ hm)) hv'
  unfold chmodCmds
  split
  · exact within_nil ⟨v, rfl, hv⟩
  · have h1 : Expands (armed x tmp v).toState [plain "[", plain "-e"] ["[", "-e"] := rfl
    have h2 : Expands (armed x tmp v).toState [plain "]"] ["]"] := rfl
    have hwords := h1.append ((Expands.lits (armed x tmp v).toState [db.path]).append h2)
    refine within_one (within_ifThen (M := Armed x tmp (Done db.path v₀ (Path.elements tmp)))
      (within_one (looks_within ha hwords (by decide) rfl hv)) ?_ ?_)
    · rintro _ ⟨v₁, rfl, hv₁⟩
      exact hall _ v₁ 0 (isMode_modes hm) hv₁
    · rintro _ _ ⟨v₁, rfl, hv₁⟩
      exact ⟨v₁, rfl, hv₁⟩

end Steps

/-! ## The beginning -/

/-- The shell after `set -eu`. -/
def begun (vars : List (String × String)) (v : Storage) : Trapping Storage where
  errexit := true
  nounset := true
  vars := vars
  world := v

theorem settled_begun {vars : List (String × String)} {k : Nat} {out : Output} {K : Storage → Prop}
    {N X : Trapping Storage → Nat → Prop} (hv : K v) (hN : k = 0 → N (begun vars v) 0)
    (hX : k ≠ 0 → X (begun vars v) k) :
    (settled (handle behaves) false (begun vars v) k out).Within (post N X K) := by
  refine within_settled_untrapped rfl ?_ hv
  unfold settle
  split
  · rename_i hk
    exact hX hk.1
  · rename_i hk
    have h0 : k = 0 := by
      by_contra hne
      exact hk ⟨hne, rfl, rfl⟩
    subst h0
    exact hN rfl

theorem set_within (v : Storage) :
    (setCmd.ends behaves (handle behaves) false "" { world := v }).Within
      (post (fun s _ => s = begun [] v) (fun _ _ => False) (· = v)) := by
  have hwords : Expands ({ world := v } : Trapping Storage).toState [plain "set", plain "-eu"]
    ["set", "-eu"] := rfl
  exact within_simple hwords rfl (settled_begun rfl (fun _ => rfl) fun h => absurd rfl h)

/-- What may be there when the temporary file is to be created. -/
def Creating (template : String) (v w : Storage) : Prop :=
  w = v ∨ ∃ tmp, v.Created template tmp w

theorem captured_drawn {template tmp : String} (h : Drawn template tmp) :
    captured [(1, tmp), (1, "\n")] = tmp := by
  obtain ⟨base, six, -, rfl, hlen, hsix⟩ := h
  obtain ⟨cs, c, hcs⟩ : ∃ cs c, six.toList = cs ++ [c] :=
    ⟨_, _, (List.dropLast_append_getLast (List.ne_nil_of_length_eq_add_one hlen)).symm⟩
  have hne : c ≠ '\n' := by
    rintro rfl
    rw [hcs] at hsix
    simp at hsix
  apply String.toList_injective
  simp [captured, printed, hcs, String.join, hne]

theorem mktemp_within (template : String) (v : Storage) :
    ((Cmd.capture "restore_tmp" [.simple [plain "mktemp", lit template]]).ends behaves
        (handle behaves) false "" (begun [] v)).Within
      (post (fun s _ => ∃ tmp w, v.Created template tmp w ∧ s = begun [("restore_tmp", tmp)] w)
        (fun s k => k ≠ 0 ∧ s.onExit = none ∧ Creating template v s.world)
        (Creating template v)) := by
  have h1 : Expands (begun [] v).inner.toState [plain "mktemp"] ["mktemp"] := rfl
  have hwords := h1.append (Expands.lits (begun [] v).inner.toState [template])
  refine within_capture (R := fun w k out => Creating template v w ∧
    (k = 0 → ∃ tmp, v.Created template tmp w ∧ out = [(1, tmp), (1, "\n")])) ?_ ?_
  · refine within_program hwords (by decide) (.inl rfl) (fun e he => ?_) fun w hw => hw
    have hR : Creating template v e.world ∧
        (e.status = 0 → ∃ tmp, v.Created template tmp e.world ∧ e.out = [(1, tmp), (1, "\n")]) := by
      have he : v.creates template (.ended e) := he
      simp only [creates] at he
      split at he
      · obtain ⟨tmp, hc, hout⟩ := he
        exact ⟨.inr ⟨tmp, hc⟩, fun _ => ⟨tmp, hc, hout⟩⟩
      · rename_i hk
        exact ⟨he, fun h => absurd h hk⟩
    exact within_settled_untrapped rfl (inner_settle hR) hR.1
  · rintro w k out ⟨hw, hout⟩
    refine settled_begun hw (fun hk => ?_) fun hk => ⟨hk, rfl, hw⟩
    obtain ⟨tmp, hc, rfl⟩ := hout hk
    refine ⟨tmp, w, hc, ?_⟩
    rw [captured_drawn hc.1]
    rfl

theorem Created.pending {template tmp : String} {w : Storage} (h : v.Created template tmp w) :
    Pending v (Path.elements tmp) w := by
  obtain ⟨-, -, rfl⟩ := h
  refine ⟨fun k hk => ?_, rfl⟩
  exact Function.update_of_ne (fun he => hk (List.mem_singleton.2 he)) _ _

theorem trap_within {w : Storage} (hw : Pending v (Path.elements tmp) w) :
    ((Cmd.simple [plain "trap", lit "rm -f \"$restore_tmp\"", plain "EXIT", plain "HUP",
        plain "INT", plain "TERM"]).ends behaves (handle behaves) false ""
          (begun [("restore_tmp", tmp)] w)).Within
      (post (Armed (some removeTemporary) tmp (Pending v (Path.elements tmp)))
        (Failing (some removeTemporary) tmp (Pending v (Path.elements tmp)))
        (Pending v (Path.elements tmp))) := by
  have h1 : Expands (begun [("restore_tmp", tmp)] w).toState [plain "trap"] ["trap"] := rfl
  have h2 : Expands (begun [("restore_tmp", tmp)] w).toState
    [plain "EXIT", plain "HUP", plain "INT", plain "TERM"] ["EXIT", "HUP", "INT", "TERM"] := rfl
  have hwords := h1.append ((Expands.lits (begun [("restore_tmp", tmp)] w).toState
    ["rm -f \"$restore_tmp\""]).append h2)
  refine within_simple hwords hw ?_
  have harmed : trapAction (begun [("restore_tmp", tmp)] w) removeTemporary
      ["EXIT", "HUP", "INT", "TERM"] = armed (some removeTemporary) tmp w := by
    simp [trapAction, begun, armed]
  show (settled (handle behaves) false (trapAction (begun [("restore_tmp", tmp)] w) removeTemporary
    ["EXIT", "HUP", "INT", "TERM"]) 0 []).Within _
  rw [harmed]
  exact (settled_armed (handles_action _ tmp) stable_pending stable_pending (fun _ => hw) hw).mono
    (fun _ _ => armed_of_passing) (fun _ _ h => h) fun _ h => h

/-! ## Whole scripts -/

/-- What may have become of a database and its companions: if no rename has replaced it, nothing;
otherwise it is the complete output of a restore that has succeeded. -/
structure Preserved (path : String) (v v' : Storage) : Prop where
  kept : Path.elements path ∉ v'.renamed →
    v'.nodes (Path.elements path) = v.nodes (Path.elements path) ∧
      ∀ k ∈ companions path, v'.nodes k = v.nodes k
  replaced : Path.elements path ∈ v'.renamed →
    ∃ bytes ∈ v'.served, bytes ≠ [] ∧ v'.nodes (Path.elements path) = some (.file bytes)

/-- Whatever becomes of the script, the database is preserved; and if the script has succeeded and
replaced it, its companions are gone. -/
def NeverLoses (text path : String) (v : Storage) : Prop :=
  (∀ v', scriptEnds behaves text v (.killed v') → Preserved path v v') ∧
  ∀ status v', scriptEnds behaves text v (.ended status v') → Preserved path v v' ∧
    (status = 0 → Path.elements path ∈ v'.renamed → ∀ k ∈ companions path, v'.nodes k = none)

theorem Safe.preserved (ha : Apart path t) (hv : Path.elements path ∉ v₀.renamed)
    (h : Safe path v₀ t v) : Preserved path v₀ v := by
  rcases h with hp | hr
  · refine ⟨fun _ => ⟨hp.nodes _ ?_, fun k hk => hp.nodes k ?_⟩, fun hm => ?_⟩
    · rw [List.mem_singleton]
      exact ha.database.symm
    · rw [List.mem_singleton]
      rintro rfl
      exact ha.companion hk
    · rw [hp.renamed] at hm
      exact absurd hm hv
  · exact ⟨fun hm => absurd hr.1 hm, fun _ => hr.2⟩

theorem Creating.preserved (hv : Path.elements path ∉ v.renamed) {template : String}
    (ha : ∀ tmp w, v.Created template tmp w → Apart path (Path.elements tmp)) {w : Storage}
    (h : Creating template v w) : Preserved path v w := by
  rcases h with rfl | ⟨tmp, hc⟩
  · exact ⟨fun _ => ⟨rfl, fun _ _ => rfl⟩, fun hm => absurd hm hv⟩
  · exact Safe.preserved (ha tmp w hc) hv (.inl (Created.pending hc))

/-- The end of the shell removes the temporary file, and has its own status if that fails. -/
theorem leave_armed (hP : Stable (Path.elements tmp) P) (hv : P v) {k : Nat} {f : Final Storage}
    (h : leaveEnds behaves (armed (some removeTemporary) tmp v) k f) :
    (∃ k' w, f = .ended k' w ∧ (k' = 0 → k = 0) ∧ P w) ∨ ∃ w, f = .killed w ∧ P w := by
  obtain ⟨o, ho, rfl⟩ := h
  have ho := remove_armed (handles_action none tmp) hP hv o ho
  cases o with
  | next s k' out =>
    obtain ⟨-, w, rfl, -, hw⟩ := ho
    exact .inl ⟨k, w, rfl, id, hw⟩
  | exit s k' out =>
    obtain ⟨hk', w, rfl, hw⟩ := ho
    exact .inl ⟨k', w, rfl, fun h => absurd h hk', hw⟩
  | killed w => exact .inr ⟨w, rfl, ho⟩

section Script

variable {db : Database} {policy : RestorePolicy} {configFile : String}

/-- Where the commands of an overwriting restore may end. -/
theorem overwrite_within {perms : PermissionsSpec} (habs : Path.isAbs db.path = true)
    (hm : ValidModes db perms) (hother : v.nodes (Path.elements db.path) ≠ some .other)
    (hnew : Path.elements db.path ∉ v.renamed)
    (ha : ∀ tmp w, v.Created (restoreTemplate db.path) tmp w → Apart db.path (Path.elements tmp)) :
    (listEnds behaves (handle behaves) false "" { world := v } 0
        (setCmd :: (stagedRestoreCmds policy.flags configFile db.path ++
          chmodCmds db perms))).Within
      (post
        (fun s k => ∃ tmp, Apart db.path (Path.elements tmp) ∧
          Armed (some removeTemporary) tmp (Done db.path v (Path.elements tmp)) s k)
        (fun s k => k ≠ 0 ∧ ((∃ tmp, Apart db.path (Path.elements tmp) ∧
          Armed (some removeTemporary) tmp (Safe db.path v (Path.elements tmp)) s k) ∨
          s.onExit = none ∧ Preserved db.path v s.world))
        (Preserved db.path v)) := by
  have hcreating : ∀ w, Creating (restoreTemplate db.path) v w → Preserved db.path v w :=
    fun w h => Creating.preserved hnew ha h
  refine within_cons ((set_within v).mono (fun _ _ h => h) (fun _ _ h => h.elim)
    fun w hw => hcreating w (.inl hw)) ?_
  rintro _ _ rfl
  refine within_cons ((mktemp_within (restoreTemplate db.path) v).mono (fun _ _ h => h) ?_
    fun w hw => hcreating w hw) ?_
  · rintro s k ⟨hk, hexit, hw⟩
    exact ⟨hk, .inr ⟨hexit, hcreating _ hw⟩⟩
  rintro _ _ ⟨tmp, w, hc, rfl⟩
  have hapart := ha tmp w hc
  have htmp : tmp ≠ "" := by
    rintro rfl
    obtain ⟨base, six, -, he, hlen, -⟩ := hc.1
    have := congrArg (fun s => s.toList.length) he
    simp [hlen] at this
  -- from here on the action is set
  have hsafe : ∀ w, Safe db.path v (Path.elements tmp) w → Preserved db.path v w :=
    fun w => Safe.preserved hapart hnew
  have hfail : ∀ {F : Storage → Prop} (_ : ∀ w, F w → Safe db.path v (Path.elements tmp) w) s k,
      Failing (some removeTemporary) tmp F s k → k ≠ 0 ∧
        ((∃ tmp, Apart db.path (Path.elements tmp) ∧
          Armed (some removeTemporary) tmp (Safe db.path v (Path.elements tmp)) s k) ∨
          s.onExit = none ∧ Preserved db.path v s.world) := by
    rintro F hF s k ⟨hk, w, rfl, hw⟩
    exact ⟨hk, .inl ⟨tmp, hapart, w, rfl, hF w hw⟩⟩
  refine within_cons ((trap_within (Created.pending hc)).mono (fun _ _ h => h)
    (hfail fun _ => .inl) fun w hw => hsafe w (.inl hw)) ?_
  rintro _ _ ⟨w₁, rfl, hw₁⟩
  refine within_append ((staged_within hapart habs htmp hother hw₁).mono (fun _ _ h => h)
    (hfail fun _ h => h) hsafe) ?_
  rintro _ _ ⟨w₂, rfl, hw₂⟩
  refine (chmodCmds_within hapart hm hw₂).mono ?_ (hfail fun _ h => h) hsafe
  intro s k hs
  exact ⟨tmp, hapart, hs⟩

variable {perms : PermissionsSpec} {configFileName text : String}
  (hm : ValidModes db perms) (hover : policy.ifDatabaseExists = .overwrite)
  (htext : buildSingleRestoreScript db perms configFileName policy = .ok text)
include hm hover htext

theorem textEnds_overwrite (s : Trapping Storage) (k : Nat) :
    textEnds behaves (handle behaves) s k text = listEnds behaves (handle behaves) false "" s k
      (setCmd :: (stagedRestoreCmds policy.flags (configPath configFileName) db.path ++
        chmodCmds db perms)) := by
  rw [textEnds, parse_single hm htext, buildRestoreCmds, if_pos hover]

/-- A temporary file that is always another one than the database. -/
theorem neverLoses_of_apart (habs : Path.isAbs db.path = true)
    (hother : v.nodes (Path.elements db.path) ≠ some .other)
    (hnew : Path.elements db.path ∉ v.renamed)
    (ha : ∀ tmp w, v.Created (restoreTemplate db.path) tmp w → Apart db.path (Path.elements tmp)) :
    NeverLoses text db.path v := by
  have hends : ∀ f, scriptEnds behaves text v f → (∃ w, f = .killed w ∧ Preserved db.path v w) ∨
      ∃ k w, f = .ended k w ∧ Preserved db.path v w ∧
        (k = 0 → Path.elements db.path ∈ w.renamed → ∀ c ∈ companions db.path,
          w.nodes c = none) := by
    rintro f ⟨o, ho, hf⟩
    rw [textEnds_overwrite hm hover htext] at ho
    have h := overwrite_within habs hm hother hnew ha o ho
    cases o with
    | killed w =>
      cases hf
      exact .inl ⟨w, rfl, h⟩
    | next s k out =>
      obtain ⟨tmp, hapart, w, rfl, hdone⟩ := h
      rcases leave_armed (stable_done hapart) hdone hf with ⟨k', w', rfl, -, hw'⟩ | ⟨w', rfl, hw'⟩
      · refine .inr ⟨k', w', rfl, hw'.safe.preserved hapart hnew, fun _ hmem => ?_⟩
        rcases hw' with hp | hc
        · rw [hp.renamed] at hmem
          exact absurd hmem hnew
        · exact hc.2
      · exact .inl ⟨w', rfl, hw'.safe.preserved hapart hnew⟩
    | exit s k out =>
      obtain ⟨hk, ⟨tmp, hapart, w, rfl, hsafe⟩ | ⟨hexit, hp⟩⟩ := h
      · rcases leave_armed (stable_safe hapart) hsafe hf with
          ⟨k', w', rfl, h0, hw'⟩ | ⟨w', rfl, hw'⟩
        · exact .inr ⟨k', w', rfl, hw'.preserved hapart hnew, fun h => absurd (h0 h) hk⟩
        · exact .inl ⟨w', rfl, hw'.preserved hapart hnew⟩
      · simp only [leaveEnds, hexit] at hf
        exact .inr ⟨k, s.world, hf, hp, fun h => absurd h hk⟩
  constructor
  · intro v' hv'
    rcases hends _ hv' with ⟨w, he, hp⟩ | ⟨k, w, he, -⟩
    · cases he
      exact hp
    · cases he
  · intro k v' hv'
    rcases hends _ hv' with ⟨w, he, -⟩ | ⟨k, w, he, hp⟩
    · cases he
    · cases he
      exact hp

/-- A temporary file in the place of the database: killed when the file was created, the script
leaves an empty database where there was none. -/
theorem not_neverLoses_of_drawn (hnone : v.nodes (Path.elements db.path) = none)
    (hnew : Path.elements db.path ∉ v.renamed) {tmp : String}
    (hdrawn : Drawn (restoreTemplate db.path) tmp)
    (htmp : Path.elements tmp = Path.elements db.path) : ¬ NeverLoses text db.path v := by
  intro h
  have hcreated : v.Created (restoreTemplate db.path) tmp
      (v.put (Path.elements db.path) (some (.file []))) := ⟨hdrawn, htmp ▸ hnone, by rw [htmp]⟩
  have hrun : scriptEnds behaves text v
      (.killed (v.put (Path.elements db.path) (some (.file [])))) := by
    refine ⟨.killed _, ?_, rfl⟩
    rw [textEnds_overwrite hm hover htext, listEnds]
    refine ⟨.next (begun [] v) 0 [], ?_, .killed _, ?_, rfl⟩
    · rw [setCmd, Cmd.ends]
      exact .inr (.inl rfl)
    · beta_reduce
      rw [stagedRestoreCmds, List.cons_append, listEnds]
      refine ⟨.killed _, ?_, rfl⟩
      rw [Cmd.ends]
      refine ⟨.killed _, ?_, rfl⟩
      rw [listEnds]
      refine ⟨.killed _, ?_, rfl⟩
      rw [Cmd.ends]
      refine .inr ?_
      have h1 : Expands (begun [] v).inner.toState [plain "mktemp"] ["mktemp"] := rfl
      rw [show expandAll (begun [] v).inner.toState
          [plain "mktemp", lit (restoreTemplate db.path)] =
        some (some ["mktemp", restoreTemplate db.path]) from
        h1.append (Expands.lits (begun [] v).inner.toState [restoreTemplate db.path])]
      simp only []
      rw [callEnds_program (by decide)]
      exact ⟨.killed _, .inr ⟨tmp, hcreated⟩, rfl⟩
  have hkept := ((h.1 _ hrun).kept hnew).1
  simp only [put, Function.update_self, hnone, reduceCtorEq] at hkept

end Script

/-- An overwriting restore never loses the database exactly if the database exists or its path is
none that `mktemp` may draw for the temporary file. -/
theorem overwrite_neverLoses_iff {P : Parsers} {R : Replicas} {spec : LitestreamSpec}
    {input : Input} {db : Database} {configFileName text : String} {policy : RestorePolicy}
    (h : resolve P R spec = .ok input) (hv : validateInput input = .ok ())
    (hdb : db ∈ input.databases) (hover : policy.ifDatabaseExists = .overwrite)
    (htext : buildSingleRestoreScript db input.injection.permissions configFileName policy =
      .ok text)
    {nodes : Entry → Option Node} (hother : nodes (Path.elements db.path) ≠ some .other) :
    NeverLoses text db.path { nodes } ↔ nodes (Path.elements db.path) ≠ none ∨
      ∀ tmp, Drawn (restoreTemplate db.path) tmp → Path.elements tmp ≠ Path.elements db.path := by
  have habs := absolute_of_resolve h hdb
  have hm := (placed_of_resolve h (validateInput_ok hv) hdb).modes
  constructor
  · intro hnl
    by_contra hc
    rw [not_or, not_not, not_forall] at hc
    obtain ⟨hnone, tmp, htmp⟩ := hc
    rw [Classical.not_imp, not_not] at htmp
    exact not_neverLoses_of_drawn hm hover htext hnone List.not_mem_nil htmp.1 htmp.2 hnl
  · intro hcond
    refine neverLoses_of_apart hm hover htext habs hother List.not_mem_nil fun tmp w hc => ?_
    refine apart_drawn habs hc.1 fun he => ?_
    rcases hcond with hsome | hname
    · exact hsome (he ▸ hc.2.1)
    · exact hname tmp hc.1 he

/-! ## A restore that overwrites -/

namespace Interrupted

def spec (path : String) : LitestreamSpec where
  databases := [{ name := "a", path := path,
                  restore := some { replicaRef := "src", ifDatabaseExists := .overwrite } }]

def db (path : String) : Database where
  name := "a"
  path := path
  restore := some (Overwrite.source .overwrite)

def input (path : String) : Input := { databases := [db path] }

def policy : RestorePolicy := restorePolicyFromSpec (Overwrite.source .overwrite)

/-- A path that `mktemp` may draw. -/
def drawnPath : String := "/data/.litestream-restore-aaaaaa"

/-- There is no file but the database. -/
def nodes : Entry → Option Node := fun e =>
  if e = Path.elements "/data/a" then some (.file [1]) else none

end Interrupted

/-- A database that exists is kept. -/
theorem overwrite_neverLoses_existing : ∃ text,
    buildSingleRestoreScript (Interrupted.db "/data/a") {} (restoreConfigFileName "a")
      Interrupted.policy = .ok text ∧
    NeverLoses text "/data/a" { nodes := Interrupted.nodes } := by
  have h : resolve .lenient (fileReplicas ["src"]) (Interrupted.spec "/data/a") =
      .ok (Interrupted.input "/data/a") := rfl
  have hdb : Interrupted.db "/data/a" ∈ (Interrupted.input "/data/a").databases :=
    List.mem_cons_self
  obtain ⟨text, htext⟩ : ∃ text, buildSingleRestoreScript (Interrupted.db "/data/a") {}
      (restoreConfigFileName "a") Interrupted.policy = .ok text := ⟨_, rfl⟩
  have hfile : Interrupted.nodes (Path.elements (Interrupted.db "/data/a").path) =
      some (.file [1]) := if_pos rfl
  exact ⟨text, htext, (overwrite_neverLoses_iff h rfl hdb rfl htext (by simp [hfile])).2
    (.inl (by simp [hfile]))⟩

/-- A database that does not exist, under a path that `mktemp` may draw. -/
theorem drawnPath_loses : ∃ text,
    resolve .lenient (fileReplicas ["src"]) (Interrupted.spec Interrupted.drawnPath) =
      .ok (Interrupted.input Interrupted.drawnPath) ∧
    validateInput (Interrupted.input Interrupted.drawnPath) = .ok () ∧
    buildSingleRestoreScript (Interrupted.db Interrupted.drawnPath) {} (restoreConfigFileName "a")
      Interrupted.policy = .ok text ∧
    ¬ NeverLoses text Interrupted.drawnPath { nodes := fun _ => none } := by
  have h : resolve .lenient (fileReplicas ["src"]) (Interrupted.spec Interrupted.drawnPath) =
      .ok (Interrupted.input Interrupted.drawnPath) := rfl
  have hv : validateInput (Interrupted.input Interrupted.drawnPath) = .ok () := rfl
  have hm := (placed_of_resolve h (validateInput_ok hv) List.mem_cons_self).modes
  have hdrawn : Drawn (restoreTemplate Interrupted.drawnPath) Interrupted.drawnPath :=
    ⟨"/data/.litestream-restore-", "aaaaaa", by decide, by decide, by decide, by decide⟩
  obtain ⟨text, htext⟩ : ∃ text, buildSingleRestoreScript (Interrupted.db Interrupted.drawnPath) {}
      (restoreConfigFileName "a") Interrupted.policy = .ok text := ⟨_, rfl⟩
  exact ⟨text, h, hv, htext,
    not_neverLoses_of_drawn hm rfl htext rfl List.not_mem_nil hdrawn rfl⟩

end Controller.Config
