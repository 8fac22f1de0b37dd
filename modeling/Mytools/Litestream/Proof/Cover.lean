import Mytools.Litestream.Replica

/-!
# What the files of a plan and of a level cover

A successful loop over a plan or a listing is the fold of `addFile` over the archive's own indexes
and headers (`buildSnapshotLoop_ok`, `pollLevelLoop_ok`). The two folds keep

* `Image A files t I`: `I` designates, for every page of the image at `t`, a copy of its content
  at `t` (a plan, `image_addFile`);
* `Cover A files b t I`: `I` designates the last copies of the pages that the transactions of
  `(b, t]` wrote (a level, `LevelInv`), from the level's cursor, or from the file that reset it.
-/

namespace Litestream

open Lib

variable {α : Type} {A : Archive α} {c : ReplicaClient} {files : List FileInfo}

/-! ## Fetches -/

theorem fetchChecked_ok (hc : Serves c A files) {pageSize : Nat} {info : FileInfo}
    {x : PageIndex × Header} (h : fetchChecked c pageSize info = .ok x) :
    x = (A.pageIndex info, A.header info) := by
  unfold fetchChecked at h
  cases hi : c.fetchPageIndex info with
  | error e => simp [hi] at h
  | ok idx =>
    cases hh : c.fetchLTXHeader info with
    | error e => simp [hi, hh] at h
    | ok hdr =>
      simp only [hi, hh] at h
      split at h
      · cases h
      · split at h
        · cases h
        · cases h
          rw [hc.index _ _ hi, hc.header _ _ hh]

/-! ## Copies -/

/-- `e` designates the copy of `p` in one of the files, and nothing has written `p` since then, up
to `t`. -/
structure Archive.Newest (A : Archive α) (files : List FileInfo) (p : Nat) (e : PageIndexElem)
    (t : Nat) : Prop where
  designates : A.Designates files p e
  le : e.maxTXID ≤ t
  unwritten : A.hist.latest e.maxTXID t p = none

theorem Archive.Newest.later {p t t' : Nat} {e : PageIndexElem} (h : A.Newest files p e t)
    (hle : t ≤ t') (hn : A.hist.latest t t' p = none) : A.Newest files p e t' := by
  refine ⟨h.designates, Nat.le_trans h.le hle, ?_⟩
  rw [History.latest_trans h.le hle, hn, h.unwritten, Option.none_or]

theorem Archive.Designates.isSome {p : Nat} {e : PageIndexElem} (h : A.Designates files p e) :
    (A.copy e p).isSome := by
  obtain ⟨info, -, hh, rfl⟩ := h
  exact hh.2

theorem Archive.Designates.lt {p : Nat} {e : PageIndexElem} (h : A.Designates files p e) :
    e.minTXID - 1 < e.maxTXID := by
  by_contra hle
  have hs := h.isSome
  rw [Archive.copy, History.latest_of_le (Nat.not_lt.1 hle)] at hs
  cases hs

theorem newest_entry {info : FileInfo} {p : Nat} (hm : info ∈ files) (hh : A.Has info p) :
    A.Newest files p (A.entry info p) info.maxTXID :=
  ⟨⟨info, hm, hh, rfl⟩, Nat.le_refl _, History.latest_self⟩

/-- The newest copy holds the last content written since any earlier transaction. -/
theorem Archive.Newest.copy_eq {p b t : Nat} {e : PageIndexElem} (h : A.Newest files p e t)
    (hb : b ≤ e.minTXID - 1) : A.copy e p = A.hist.latest b t p := by
  have hlt := h.designates.lt
  obtain ⟨x, hx⟩ := Option.isSome_iff_exists.1 h.designates.isSome
  rw [History.latest_trans (m := e.maxTXID) (by omega) h.le, h.unwritten, Option.none_or,
    History.latest_trans hb (Nat.le_of_lt hlt), hx]
  rw [Archive.copy] at hx
  rw [hx, Option.some_or]

/-! ## Plans -/

/-- Every page of the image at `t` has an entry whose copy holds its content at `t`. -/
def Image (A : Archive α) (files : List FileInfo) (t : Nat) (I : PageIndex) : Prop :=
  ∀ p, 1 ≤ p → p ≤ A.hist.size t →
    ∃ e, I[p]? = some e ∧ A.Designates files p e ∧ A.copy e p = A.hist.latest 0 t p

theorem image_zero (I : PageIndex) : Image A files 0 I := by
  intro p h1 hp
  rw [A.wf.size_zero] at hp
  omega

theorem Archive.Designates.mono {files' : List FileInfo} {p : Nat} {e : PageIndexElem}
    (h : A.Designates files p e) (hs : files ⊆ files') : A.Designates files' p e := by
  obtain ⟨info, hm, hh⟩ := h
  exact ⟨info, hs hm, hh⟩

/-- A file that starts at or before the next transaction carries the image to its end. -/
theorem image_addFile {t : Nat} {I : PageIndex} {info : FileInfo} (hI : Image A files t I)
    (hm : info ∈ files) (h1 : info.minTXID - 1 ≤ t) (h2 : t ≤ info.maxTXID) :
    Image A files info.maxTXID (I ∪ A.pageIndex info) := by
  intro p hp1 hp
  rw [Std.ExtTreeMap.getElem?_union, Archive.getElem?_pageIndex]
  by_cases hh : A.Has info p
  · refine ⟨A.entry info p, by simp [hh], ⟨info, hm, hh, rfl⟩, ?_⟩
    obtain ⟨x, hx⟩ := Option.isSome_iff_exists.1 hh.2
    rw [Archive.copy_entry, hx]
    rw [Archive.stored] at hx
    rw [History.latest_trans (Nat.zero_le _) (Nat.le_trans h1 h2), hx, Option.some_or]
  · -- the file does not hold the page, so nothing wrote it since `t`
    have hn : A.hist.latest (info.minTXID - 1) info.maxTXID p = none := by
      simpa [Archive.Has, Archive.stored, hp] using hh
    have hn' := History.latest_none_of_trans h1 h2 hn
    obtain ⟨e, hi, hd, hc⟩ := hI p hp1 (A.wf.le_size h2 hp hn')
    refine ⟨e, by simp [hh, hi], hd, ?_⟩
    rw [hc, History.latest_trans (Nat.zero_le _) h2, hn', Option.none_or]

/-- The snapshot of the files of a plan. -/
def ReplicaSnapshot.addFiles (A : Archive α) (s : ReplicaSnapshot) (infos : List FileInfo) :
    ReplicaSnapshot :=
  infos.foldl (fun s info => s.addFile info (A.pageIndex info) (A.header info)) s

@[simp] theorem ReplicaSnapshot.addFiles_cons (s : ReplicaSnapshot) (info : FileInfo)
    (infos : List FileInfo) : s.addFiles A (info :: infos) =
      (s.addFile info (A.pageIndex info) (A.header info)).addFiles A infos := rfl

theorem ReplicaSnapshot.addFile_pos {s : ReplicaSnapshot} {info : FileInfo}
    (h : s.pos.txid < info.maxTXID) :
    (s.addFile info (A.pageIndex info) (A.header info)).pos = info.pos := by
  simp [ReplicaSnapshot.addFile, h]

theorem PlanFrom.le_pos {infos : List FileInfo} {s : ReplicaSnapshot}
    (h : PlanFrom s.pos.txid infos) : s.pos.txid ≤ (s.addFiles A infos).pos.txid := by
  induction infos generalizing s with
  | nil => exact Nat.le_refl _
  | cons info infos ih =>
    obtain ⟨-, -, hlt, hp⟩ := h
    have hpos := ReplicaSnapshot.addFile_pos (A := A) hlt
    refine Nat.le_trans ?_ (ih (by rw [hpos]; exact hp))
    rw [hpos]
    exact Nat.le_of_lt hlt

theorem buildSnapshotLoop_ok (hc : Serves c A files) {pageSize : Nat} :
    ∀ {infos : List FileInfo} {s s' : ReplicaSnapshot},
      buildSnapshotLoop c pageSize infos s = .ok s' → s' = s.addFiles A infos
  | [], s, s', h => by cases h; rfl
  | info :: infos, s, s', h => by
    unfold buildSnapshotLoop at h
    cases hf : fetchChecked c pageSize info with
    | error e => simp [hf] at h
    | ok x =>
      cases fetchChecked_ok hc hf
      simp only [hf] at h
      rw [ReplicaSnapshot.addFiles_cons, buildSnapshotLoop_ok hc h]

/-- A snapshot of the image at its position. -/
structure SnapshotOk (A : Archive α) (files : List FileInfo) (s : ReplicaSnapshot) : Prop where
  image : Image A files s.pos.txid s.index
  commit : s.commit = A.hist.size s.pos.txid
  maxTXID1 : s.maxTXID1 ≤ s.pos.txid

theorem SnapshotOk.addFiles : ∀ {infos : List FileInfo} {s : ReplicaSnapshot},
    SnapshotOk A files s → PlanFrom s.pos.txid infos → infos ⊆ files →
      SnapshotOk A files (s.addFiles A infos)
  | [], _, h, _, _ => h
  | info :: infos, s, h, hp, hs => by
    obtain ⟨-, hmin, hmax, hrest⟩ := hp
    have hm : info ∈ files := hs List.mem_cons_self
    have hpos := ReplicaSnapshot.addFile_pos (A := A) hmax
    have hstep : SnapshotOk A files (s.addFile info (A.pageIndex info) (A.header info)) := by
      constructor
      · rw [hpos]
        exact image_addFile h.image hm (by omega) (by omega)
      · rw [hpos]; rfl
      · have h1 := h.maxTXID1
        rw [hpos]
        simp only [ReplicaSnapshot.addFile, FileInfo.pos]
        split <;> omega
    rw [ReplicaSnapshot.addFiles_cons]
    refine SnapshotOk.addFiles hstep ?_ fun x hx => hs (List.mem_cons_of_mem _ hx)
    rw [hpos]
    exact hrest

/-- The snapshot built from a served plan. -/
theorem buildSnapshot_ok (hc : Serves c A files) {infos : List FileInfo} {pageSize : Nat}
    {s : ReplicaSnapshot} (hp : c.calcRestorePlan = .ok infos)
    (h : buildSnapshot c infos pageSize = .ok s) : SnapshotOk A files s := by
  obtain ⟨hplan, hsub⟩ := hc.plan _ hp
  rw [buildSnapshotLoop_ok hc h]
  refine SnapshotOk.addFiles ⟨image_zero _, ?_, Nat.le_refl _⟩ hplan hsub
  exact A.wf.size_zero.symm

/-! ## Levels -/

/-- Contiguous files from `prev` on. -/
def Chain : Nat → List FileInfo → Prop
  | _, [] => True
  | prev, info :: infos => info.Follows prev ∧ Chain info.maxTXID infos

/-- The last transaction of contiguous files from `prev` on. -/
def endOf : Nat → List FileInfo → Nat
  | prev, [] => prev
  | _, info :: infos => endOf info.maxTXID infos

/-- No file of the list resets the level: none starts at transaction 1, none shrinks the
database. -/
def Quiet (A : Archive α) : Nat → List FileInfo → Prop
  | _, [] => True
  | commit, info :: infos =>
    commit ≤ A.hist.size info.maxTXID ∧ info.minTXID ≠ 1 ∧ Quiet A (A.hist.size info.maxTXID) infos

theorem le_endOf : ∀ {infos : List FileInfo} {prev : Nat}, Chain prev infos →
    prev ≤ endOf prev infos
  | [], _, _ => Nat.le_refl _
  | info :: infos, prev, h => by
    have := le_endOf h.2
    have := h.1.1
    have := h.1.2
    simp only [endOf]
    omega

/-- The level's result after the files. -/
def PollLevelResult.addFiles (A : Archive α) (r : PollLevelResult) (infos : List FileInfo) :
    PollLevelResult :=
  infos.foldl (fun r info => r.addFile info (A.pageIndex info) (A.header info)) r

@[simp] theorem PollLevelResult.addFiles_cons (r : PollLevelResult) (info : FileInfo)
    (infos : List FileInfo) : r.addFiles A (info :: infos) =
      (r.addFile info (A.pageIndex info) (A.header info)).addFiles A infos := rfl

theorem PollLevelResult.addFiles_gapAt (r : PollLevelResult) : ∀ (infos : List FileInfo),
    (r.addFiles A infos).gapAt = r.gapAt := by
  intro infos
  induction infos generalizing r with
  | nil => rfl
  | cons info infos ih => exact ih _

theorem PollLevelResult.addFiles_maxTXID (r : PollLevelResult) : ∀ (infos : List FileInfo),
    (r.addFiles A infos).maxTXID = endOf r.maxTXID infos := by
  intro infos
  induction infos generalizing r with
  | nil => rfl
  | cons info infos ih => exact ih _

/-- The loop consumes contiguous files up to the end of the listing, or up to a gap. -/
theorem pollLevelLoop_ok (hc : Serves c A files) {pageSize level : Nat} :
    ∀ {infos : List FileInfo} {r r' : PollLevelResult} {left : Bool},
      infos ⊆ files → pollLevelLoop c pageSize level infos r = .ok (r', left) →
      ∃ used rest, infos = used ++ rest ∧ Chain r.maxTXID used ∧
        (left = false → rest = [] ∧ r' = r.addFiles A used) ∧
        (left = true → level = 0 ∧ ∃ g gs, rest = g :: gs ∧
          endOf r.maxTXID used + 1 < g.minTXID ∧
          r' = { r.addFiles A used with gapAt := g.minTXID })
  | [], r, r', left, _, h => by
    cases h
    exact ⟨[], [], rfl, trivial, fun _ => ⟨rfl, rfl⟩, by simp⟩
  | info :: infos, r, r', left, hs, h => by
    unfold pollLevelLoop at h
    split at h
    · split at h
      · rename_i hgap
        cases h
        exact ⟨[], info :: infos, rfl, trivial, by simp,
          fun _ => ⟨hgap.1, info, infos, rfl, hgap.2, rfl⟩⟩
      · cases h
    · rename_i hmin
      cases hf : fetchChecked c pageSize info with
      | error e => simp [hf] at h
      | ok x =>
        cases fetchChecked_ok hc hf
        simp only [hf] at h
        obtain ⟨used, rest, he, hch, h0, h1⟩ :=
          pollLevelLoop_ok hc (fun x hx => hs (List.mem_cons_of_mem _ hx)) h
        have hfol : info.Follows r.maxTXID :=
          ⟨by omega, (hc.range info (hs List.mem_cons_self)).2⟩
        exact ⟨info :: used, rest, by rw [he]; rfl, ⟨hfol, hch⟩, h0, h1⟩

/-- `I` designates the last copies of what the transactions of `(b, t]` wrote. -/
structure Cover (A : Archive α) (files : List FileInfo) (b t : Nat) (I : PageIndex) : Prop where
  hit : ∀ p e, I[p]? = some e → A.Newest files p e t ∧ b < e.minTXID
  miss : ∀ p, I[p]? = none → p ≤ A.hist.size t → A.hist.latest b t p = none

theorem cover_empty (t : Nat) : Cover A files t t ∅ := by
  constructor
  · intro p e h
    simp at h
  · intro p _ _
    exact History.latest_self

/-- The result of a level that started at `start` with the size `base`. -/
structure LevelInv (A : Archive α) (files : List FileInfo) (start : Nat) (base : Nat)
    (r : PollLevelResult) : Prop where
  le : start ≤ r.maxTXID
  bound : ∀ p e, r.index[p]? = some e → p ≤ r.commit
  commit : r.commit = if r.maxTXID = start then base else A.hist.size r.maxTXID
  cover : ∃ b, start ≤ b ∧ b ≤ r.maxTXID ∧ Cover A files b r.maxTXID r.index ∧
    (r.replace = false → b = start) ∧ (r.fromRoot = true → b = 0)

/-- A file's index covers the file's own range. -/
theorem cover_pageIndex {info : FileInfo} {prev : Nat} (hm : info ∈ files)
    (hf : info.Follows prev) : Cover A files prev info.maxTXID (∅ ∪ A.pageIndex info) := by
  have hprev : info.minTXID - 1 = prev := by have := hf.1; omega
  constructor
  · intro p e he
    simp only [Std.ExtTreeMap.getElem?_union, Archive.getElem?_pageIndex] at he
    by_cases hh : A.Has info p
    · have he : A.entry info p = e := by simpa [hh] using he
      subst he
      exact ⟨newest_entry hm hh, hf.lt⟩
    · simp [hh] at he
  · intro p hi hp
    simp only [Std.ExtTreeMap.getElem?_union, Archive.getElem?_pageIndex] at hi
    by_cases hh : A.Has info p
    · simp [hh] at hi
    · simpa [Archive.Has, Archive.stored, hp, hprev] using hh

/-- A following file that does not shrink the database extends the cover. -/
theorem Cover.addFile {b t : Nat} {I : PageIndex} {info : FileInfo} (h : Cover A files b t I)
    (hb : b ≤ t) (hm : info ∈ files) (hf : info.Follows t)
    (hbound : ∀ p e, I[p]? = some e → p ≤ A.hist.size info.maxTXID) :
    Cover A files b info.maxTXID (I ∪ A.pageIndex info) := by
  have ht : info.minTXID - 1 = t := by have := hf.1; omega
  have hle : t ≤ info.maxTXID := by have := hf.1; have := hf.2; omega
  have hmiss : ∀ p, p ≤ A.hist.size info.maxTXID → ¬ A.Has info p →
      A.hist.latest t info.maxTXID p = none := by
    intro p hp hh
    simpa [Archive.Has, Archive.stored, hp, ht] using hh
  constructor
  · intro p e he
    rw [Std.ExtTreeMap.getElem?_union, Archive.getElem?_pageIndex] at he
    by_cases hh : A.Has info p
    · have he : A.entry info p = e := by simpa [hh] using he
      subst he
      exact ⟨newest_entry hm hh, Nat.lt_of_le_of_lt hb hf.lt⟩
    · have hI : I[p]? = some e := by simpa [hh] using he
      obtain ⟨hnew, hlt⟩ := h.hit p e hI
      exact ⟨hnew.later hle (hmiss p (hbound p e hI) hh), hlt⟩
  · intro p hi hp
    rw [Std.ExtTreeMap.getElem?_union, Archive.getElem?_pageIndex] at hi
    by_cases hh : A.Has info p
    · simp [hh] at hi
    · have hn := hmiss p hp hh
      have hI : I[p]? = none := by simpa [hh] using hi
      rw [History.latest_trans hb hle, hn, h.miss p hI (A.wf.le_size hle hp hn), Option.none_or]

theorem LevelInv.addFile {start : Nat} {base : Nat} {r : PollLevelResult} {info : FileInfo}
    (h : LevelInv A files start base r) (hm : info ∈ files) (hf : info.Follows r.maxTXID) :
    LevelInv A files start base (r.addFile info (A.pageIndex info) (A.header info)) := by
  obtain ⟨b, hsb, hb, hcov, hrep, hroot⟩ := h.cover
  have hlt : r.maxTXID < info.maxTXID := by have := hf.1; have := hf.2; omega
  have hidx : ∀ p e, (A.pageIndex info)[p]? = some e → p ≤ A.hist.size info.maxTXID := by
    intro p e he
    rw [Archive.getElem?_pageIndex] at he
    split at he
    · rename_i hh; exact hh.1
    · cases he
  by_cases hreset : A.hist.size info.maxTXID < r.commit ∨ info.minTXID = 1
  · -- the index restarts with this file
    have he : r.addFile info (A.pageIndex info) (A.header info) =
        { r with replace := true, fromRoot := info.minTXID == 1, index := ∅ ∪ A.pageIndex info,
                 commit := A.hist.size info.maxTXID, maxTXID := info.maxTXID } := by
      simp [PollLevelResult.addFile, Archive.header, hreset]
    rw [he]
    refine ⟨by have := h.le; simp only; omega, ?_, ?_, r.maxTXID, h.le, by simp only; omega,
      cover_pageIndex hm hf, by simp, ?_⟩
    · intro p e hp
      simp only [Std.ExtTreeMap.getElem?_union] at hp
      exact hidx p e (by simpa using hp)
    · have := h.le
      simp only
      rw [if_neg (by omega)]
    · intro h1
      have h1 : info.minTXID = 1 := by simpa using h1
      have := hf.1
      omega
  · have he : r.addFile info (A.pageIndex info) (A.header info) =
        { r with index := r.index ∪ A.pageIndex info,
                 commit := A.hist.size info.maxTXID, maxTXID := info.maxTXID } := by
      simp [PollLevelResult.addFile, Archive.header, hreset]
    have hmono : r.commit ≤ A.hist.size info.maxTXID := by omega
    rw [he]
    refine ⟨by have := h.le; simp only; omega, ?_, ?_, b, hsb, by simp only; omega,
      hcov.addFile hb hm hf ?_, hrep, hroot⟩
    · intro p e hp
      simp only [Std.ExtTreeMap.getElem?_union, Option.or_eq_some_iff] at hp
      rcases hp with hp | ⟨-, hp⟩
      · exact hidx p e hp
      · exact Nat.le_trans (h.bound p e hp) hmono
    · have := h.le
      simp only
      rw [if_neg (by omega)]
    · intro p e hp
      exact Nat.le_trans (h.bound p e hp) hmono

theorem LevelInv.addFiles {start : Nat} {base : Nat} : ∀ {infos : List FileInfo}
    {r : PollLevelResult}, LevelInv A files start base r → Chain r.maxTXID infos → infos ⊆ files →
      LevelInv A files start base (r.addFiles A infos)
  | [], _, h, _, _ => h
  | info :: infos, r, h, hch, hs => by
    have h' := h.addFile (hs List.mem_cons_self) hch.1
    rw [PollLevelResult.addFiles_cons]
    exact LevelInv.addFiles h' hch.2 fun x hx => hs (List.mem_cons_of_mem _ hx)

/-- A level was reset exactly when one of its files starts at transaction 1 or shrinks the
database. -/
theorem PollLevelResult.addFiles_replace : ∀ (infos : List FileInfo) (r : PollLevelResult),
    (r.addFiles A infos).replace = false ↔ r.replace = false ∧ Quiet A r.commit infos
  | [], r => by simp [PollLevelResult.addFiles, Quiet]
  | info :: infos, r => by
    have ih := addFiles_replace infos (r.addFile info (A.pageIndex info) (A.header info))
    refine ih.trans ?_
    by_cases hreset : A.hist.size info.maxTXID < r.commit ∨ info.minTXID = 1
    · have : ¬ (r.commit ≤ A.hist.size info.maxTXID ∧ info.minTXID ≠ 1) := by omega
      simp only [PollLevelResult.addFile, Archive.header, hreset, Quiet]
      simp only [if_true]
      constructor
      · simp
      · rintro ⟨-, h1, h2, -⟩
        exact absurd ⟨h1, h2⟩ this
    · have : r.commit ≤ A.hist.size info.maxTXID ∧ info.minTXID ≠ 1 := by omega
      simp [PollLevelResult.addFile, Archive.header, Quiet, this]

end Litestream
