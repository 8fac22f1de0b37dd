import Mytools.Litestream.Proof.Cover

/-!
# Live-follow content

`Correct A files f`: the visible state of `f` is the image at its position. A poll keeps it
(`Live.poll`), except a *stale* one: an L1 file that ends before the position is merged without a
rebuild, and its pages or its size are not those of the position. A poll that succeeds from a live
file ends in a correct file exactly when it is not stale (`Live.poll_correct_iff`).
-/

namespace Litestream

open Lib

variable {α : Type} {A : Archive α} {C : PageCache} {c : ReplicaClient} {files : List FileInfo}

/-- `commit` is the size of the database at the position, and every page up to it is designated by
its newest version at the position. -/
def Correct (A : Archive α) (files : List FileInfo) (f : ReplicaFile C) : Prop :=
  f.commit = A.hist.size f.pos.txid ∧ ∀ p, 1 ≤ p → p ≤ f.commit →
    ∃ e, f.index[p]? = some e ∧ A.Designates files p e ∧
      A.copy e p = A.hist.latest 0 f.pos.txid p

/-- A correct file between polls with no lock held. -/
structure Live (A : Archive α) (files : List FileInfo) (f : ReplicaFile C) : Prop where
  correct : Correct A files f
  pos : 0 < f.pos.txid
  maxTXID1 : f.maxTXID1 ≤ f.pos.txid
  lock : f.lock = .none
  pending : f.pending = none
  pollPos : f.pollPos = f.pos
  pollMaxTXID1 : f.pollMaxTXID1 = f.maxTXID1
  pollCommit : f.pollCommit = f.commit

theorem Correct.image {f : ReplicaFile C} (h : Correct A files f) :
    Image A files f.pos.txid f.index := by
  intro p h1 hp
  exact h.2 p h1 (by rw [h.1]; exact hp)

theorem Correct.mono {files' : List FileInfo} {f : ReplicaFile C} (h : Correct A files f)
    (hs : files ⊆ files') : Correct A files' f := by
  refine ⟨h.1, fun p h1 hp => ?_⟩
  obtain ⟨e, hi, hd, hc⟩ := h.2 p h1 hp
  exact ⟨e, hi, hd.mono hs, hc⟩

theorem Live.mono {files' : List FileInfo} {f : ReplicaFile C} (h : Live A files f)
    (hs : files ⊆ files') : Live A files' f :=
  { h with correct := h.correct.mono hs }

/-! ## The two levels -/

theorem Chain.not_gap {used gs : List FileInfo} {g : FileInfo} {prev : Nat}
    (h : Chain prev (used ++ g :: gs)) : g.minTXID = endOf prev used + 1 := by
  induction used generalizing prev with
  | nil => exact h.1.1
  | cons info used ih => exact ih h.2

theorem endOf_eq_iff {infos : List FileInfo} {prev : Nat} (h : Chain prev infos) :
    endOf prev infos = prev ↔ infos = [] := by
  cases infos with
  | nil => simp [endOf]
  | cons info infos =>
    have h1 := le_endOf h.2
    have h2 := h.1.lt
    have h3 := h.1.2
    simp only [endOf, reduceCtorEq, iff_false]
    omega

/-- A level's result: contiguous files of its listing, to the end of it or to a gap. -/
structure LevelOk (A : Archive α) (files : List FileInfo) (level prev base : Nat)
    (r : PollLevelResult) (used : List FileInfo) : Prop where
  chain : Chain prev used
  maxTXID : r.maxTXID = endOf prev used
  inv : LevelInv A files prev base r
  quiet : r.replace = false ↔ Quiet A base used
  gap : (r.gapAt = 0 ∧ used = listed files level (prev + 1)) ∨
    (level = 0 ∧ r.maxTXID + 1 < r.gapAt ∧ ¬ Chain prev (listed files level (prev + 1)))

theorem mem_of_mem_listed {level seek : Nat} {info : FileInfo}
    (h : info ∈ listed files level seek) : info ∈ files := (List.mem_filter.1 h).1

theorem pollLevel_ok (hc : Serves c A files) {pageSize level prev base : Nat}
    {r : PollLevelResult} (h : pollLevel c pageSize level prev base = .ok r) :
    ∃ used, LevelOk A files level prev base r used := by
  unfold pollLevel at h
  cases hl : c.ltxFiles level (prev + 1) with
  | error e => simp [hl] at h
  | ok itr =>
    simp only [hl] at h
    obtain ⟨hpre, hall⟩ := hc.listing _ _ _ hl
    have hsub : itr.items ⊆ files := fun x hx => mem_of_mem_listed (hpre.subset hx)
    cases hlp : pollLevelLoop c pageSize level itr.items { maxTXID := prev, commit := base } with
    | error e => simp [hlp] at h
    | ok x =>
      obtain ⟨r', left⟩ := x
      obtain ⟨used, rest, he, hch, hend, hgap⟩ := pollLevelLoop_ok hc hsub hlp
      have hused : used ⊆ files := fun x hx => hsub (he ▸ List.mem_append_left rest hx)
      have hinv : LevelInv A files prev base
          (({ maxTXID := prev, commit := base } : PollLevelResult).addFiles A used) := by
        refine LevelInv.addFiles ⟨Nat.le_refl _, by simp, by simp, prev, Nat.le_refl _,
          Nat.le_refl _, cover_empty prev, by simp, by simp⟩ hch hused
      have hmax := PollLevelResult.addFiles_maxTXID (A := A)
        { maxTXID := prev, commit := base } used
      have hquiet := PollLevelResult.addFiles_replace (A := A) used
        { maxTXID := prev, commit := base }
      have hgap0 := PollLevelResult.addFiles_gapAt (A := A)
        { maxTXID := prev, commit := base } used
      simp only [hlp] at h
      cases left with
      | false =>
        obtain ⟨rfl, rfl⟩ := hend rfl
        simp only [Bool.false_eq_true, if_false] at h
        split at h
        · cases h
        · cases h
        · cases h
          rename_i herr _
          refine ⟨used, hch, hmax, hinv, by simpa using hquiet, .inl ⟨hgap0, ?_⟩⟩
          rw [← hall herr, he, List.append_nil]
      | true =>
        obtain ⟨h0, g, gs, rfl, hlt, rfl⟩ := hgap rfl
        simp only [if_true] at h
        split at h
        · cases h
        · cases h
        · cases h
          refine ⟨used, hch, hmax, ⟨hinv.le, hinv.bound, hinv.commit, hinv.cover⟩,
            by simpa using hquiet, .inr ⟨h0, ?_, ?_⟩⟩
          · simp only [hmax]
            exact hlt
          · intro hchain
            obtain ⟨tail, ht⟩ := hpre
            rw [← ht, he, List.append_assoc, List.cons_append] at hchain
            have := hchain.not_gap
            simp only at hlt
            omega

/-! ## Merging the levels -/

section Merge

variable {pos : Pos} {m n t t0 e1 b0 p : Nat} {l0 l1 : PollLevelResult} {I : PageIndex}

/-- A merged entry is the L1 one unless the L0 one ends later. -/
theorem merge_cases (pos : Pos) (m n : Nat) (l0 l1 : PollLevelResult) (p : Nat) :
    let u := (mergePollLevelResults pos m n l0 l1).index
    (∃ e, u[p]? = some e ∧ l1.index[p]? = some e ∧
        ∀ e', l0.index[p]? = some e' → e'.maxTXID ≤ e.maxTXID) ∨
      (∃ e, u[p]? = some e ∧ l0.index[p]? = some e ∧
        ∀ e', l1.index[p]? = some e' → e'.maxTXID < e.maxTXID) ∨
      (u[p]? = none ∧ l0.index[p]? = none ∧ l1.index[p]? = none) := by
  simp only [mergePollLevelResults, Std.ExtTreeMap.getElem?_union,
    Std.ExtTreeMap.getElem?_filter']
  cases h1 : l1.index[p]? with
  | none => cases h0 : l0.index[p]? <;> simp
  | some x =>
    cases h0 : l0.index[p]? with
    | none => simp
    | some y =>
      by_cases hle : y.maxTXID ≤ x.maxTXID
      · exact .inl ⟨x, by simp [Option.filter, hle], rfl, by simpa using hle⟩
      · exact .inr (.inl ⟨y, by simp [Option.filter, hle], rfl,
          by simpa using Nat.lt_of_not_le hle⟩)

/-- A level has no entry for a page that nothing wrote in its range. -/
theorem Cover.none_of_unwritten {b : Nat} (h : Cover A files b t I)
    (hn : A.hist.latest b t p = none) : I[p]? = none := by
  cases hI : I[p]? with
  | none => rfl
  | some e =>
    obtain ⟨hnew, hb⟩ := h.hit p e hI
    have hs := hnew.designates.isSome
    rw [hnew.copy_eq (b := b) (by omega), hn] at hs
    cases hs

/-- Where L1 reaches at least as far as L0, a page of L1 gets its newest copy. -/
theorem merge_newest (pos : Pos) (m n : Nat) (h0 : Cover A files b0 t0 l0.index) (hle : t0 ≤ e1)
    {e : PageIndexElem} (hi : l1.index[p]? = some e) (hnew : A.Newest files p e e1) :
    ∃ e', (mergePollLevelResults pos m n l0 l1).index[p]? = some e' ∧
      A.Newest files p e' e1 := by
  rcases merge_cases pos m n l0 l1 p with ⟨x, hu, hx, -⟩ | ⟨x, hu, hx, hlt⟩ | ⟨-, -, hx⟩
  · rw [hi] at hx
    cases hx
    exact ⟨e, hu, hnew⟩
  · -- the L0 copy ends after `e`, and nothing wrote the page after `e`
    have hx0 := (h0.hit p x hx).1
    refine ⟨x, hu, hx0.designates, Nat.le_trans hx0.le hle, ?_⟩
    exact History.latest_none_of_trans (Nat.le_of_lt (hlt e hi)) (Nat.le_trans hx0.le hle)
      hnew.unwritten
  · rw [hi] at hx
    cases hx

/-- L1 reaches beyond L0: the merge carries the image to the end of L1. -/
theorem merge_image_ahead (hI : Image A files t I) (h0 : Cover A files t t0 l0.index)
    (h1 : Cover A files m e1 l1.index) (hmt : m ≤ t) (htt : t ≤ t0) (hle : t0 ≤ e1) :
    Image A files e1 (I ∪ (mergePollLevelResults pos m n l0 l1).index) := by
  intro p hp1 hp
  rw [Std.ExtTreeMap.getElem?_union]
  cases hi : l1.index[p]? with
  | some e =>
    obtain ⟨x, hu, hx⟩ := merge_newest pos m n h0 hle hi (h1.hit p e hi).1
    exact ⟨x, by rw [hu, Option.some_or], hx.designates, hx.copy_eq (Nat.zero_le _)⟩
  | none =>
    have hn := h1.miss p hi hp
    have hnt : A.hist.latest t e1 p = none :=
      History.latest_none_of_trans hmt (Nat.le_trans htt hle) hn
    have hi0 := h0.none_of_unwritten (History.latest_none_of_trans_left htt hle hnt)
    have hu : (mergePollLevelResults pos m n l0 l1).index[p]? = none := by
      rcases merge_cases pos m n l0 l1 p with ⟨x, -, hx, -⟩ | ⟨x, -, hx, -⟩ | ⟨hu, -⟩
      · rw [hi] at hx; cases hx
      · rw [hi0] at hx; cases hx
      · exact hu
    obtain ⟨e, he, hd, hc⟩ := hI p hp1 (A.wf.le_size (Nat.le_trans htt hle) hp hnt)
    refine ⟨e, by rw [hu, he, Option.none_or], hd, ?_⟩
    rw [hc, History.latest_trans (Nat.zero_le _) (Nat.le_trans htt hle), hnt, Option.none_or]

/-- L1 ends at or before L0: the merge carries the image to the end of L0, if the L1 copies of the
pages that L0 did not write hold their content. -/
theorem merge_image_behind (hI : Image A files t I) (h0 : Cover A files t t0 l0.index)
    (h1 : Cover A files m e1 l1.index) (htt : t ≤ t0) (hle : e1 ≤ t0)
    (hold : ∀ p, 1 ≤ p → p ≤ A.hist.size t0 → A.hist.latest t t0 p = none →
      ∀ e, l1.index[p]? = some e → A.copy e p = A.hist.latest 0 t p) :
    Image A files t0 (I ∪ (mergePollLevelResults pos m n l0 l1).index) := by
  intro p hp1 hp
  rw [Std.ExtTreeMap.getElem?_union]
  rcases merge_cases pos m n l0 l1 p with ⟨x, hu, hx, hge⟩ | ⟨x, hu, hx, -⟩ | ⟨hu, h0n, -⟩
  · have hx1 := (h1.hit p x hx).1
    refine ⟨x, by rw [hu, Option.some_or], hx1.designates, ?_⟩
    cases hi0 : l0.index[p]? with
    | none =>
      have hn := h0.miss p hi0 hp
      rw [hold p hp1 hp hn x hx, History.latest_trans (Nat.zero_le _) htt, hn, Option.none_or]
    | some y =>
      have hy := (h0.hit p y hi0).1
      have hle' := Nat.le_trans hx1.le hle
      have hnew : A.Newest files p x t0 :=
        ⟨hx1.designates, hle', History.latest_none_of_trans (hge y hi0) hle' hy.unwritten⟩
      exact hnew.copy_eq (Nat.zero_le _)
  · have hx0 := (h0.hit p x hx).1
    exact ⟨x, by rw [hu, Option.some_or], hx0.designates, hx0.copy_eq (Nat.zero_le _)⟩
  · have hn := h0.miss p h0n hp
    obtain ⟨e, he, hd, hc⟩ := hI p hp1 (A.wf.le_size htt hp hn)
    refine ⟨e, by rw [hu, he, Option.none_or], hd, ?_⟩
    rw [hc, History.latest_trans (Nat.zero_le _) htt, hn, Option.none_or]

end Merge

/-! ## The update of a poll -/

/-- What a poll stages: a rebuild of the latest plan, or the merge of the two levels. -/
theorem pollUpdate_ok (hc : Serves c A files) {pageSize m n : Nat} {pos : Pos} {u : ReplicaUpdate}
    (h : pollUpdate c pageSize pos m n = .ok u) :
    ∃ l0 l1 used0 used1, LevelOk A files 0 pos.txid n l0 used0 ∧
      LevelOk A files 1 m l0.commit l1 used1 ∧
      ((rebuildLatest c pageSize = .ok u ∧ (needRebuild l0 l1 = true ∨ l1.maxTXID = m)) ∨
        (needRebuild l0 l1 = false ∧
          u = { mergePollLevelResults pos m n l0 l1 with
            replace := safeBridgedReplace l0 l1 })) := by
  unfold pollUpdate at h
  cases h0 : pollLevel c pageSize 0 pos.txid n with
  | error e => simp [h0] at h
  | ok l0 =>
    cases h1 : pollLevel c pageSize 1 m l0.commit with
    | error e => simp [h0, h1] at h
    | ok l1 =>
      simp only [h0, h1] at h
      obtain ⟨used0, hl0⟩ := pollLevel_ok hc h0
      obtain ⟨used1, hl1⟩ := pollLevel_ok hc h1
      refine ⟨l0, l1, used0, used1, hl0, hl1, ?_⟩
      cases hn : needRebuild l0 l1 with
      | true =>
        rw [if_pos hn] at h
        exact .inl ⟨h, .inl rfl⟩
      | false =>
        have hu : (if safeBridgedReplace l0 l1 = true then
              { mergePollLevelResults pos m n l0 l1 with replace := true }
            else mergePollLevelResults pos m n l0 l1) =
            { mergePollLevelResults pos m n l0 l1 with replace := safeBridgedReplace l0 l1 } := by
          cases safeBridgedReplace l0 l1 <;> rfl
        rw [if_neg (by simp [hn]), hu] at h
        split at h
        · rename_i hnoop
          have hm : l1.maxTXID = m := by
            simp only [isNoopPollUpdate, Bool.and_eq_true, beq_iff_eq] at hnoop
            exact hnoop.1.2
          cases hs : hasSupersedingSnapshot c pos.txid with
          | error e => simp [hs] at h
          | ok b =>
            cases b with
            | true => exact .inl ⟨by simpa [hs] using h, .inr hm⟩
            | false => exact .inr ⟨rfl, by simpa [hs, eq_comm] using h⟩
        · exact .inr ⟨rfl, by simpa [eq_comm] using h⟩

/-- A snapshot built from a plan that is not empty has a position. -/
theorem buildSnapshot_pos (hc : Serves c A files) {info : FileInfo} {infos : List FileInfo}
    {pageSize : Nat} {s : ReplicaSnapshot} (hp : c.calcRestorePlan = .ok (info :: infos))
    (h : buildSnapshot c (info :: infos) pageSize = .ok s) : 0 < s.pos.txid := by
  obtain ⟨⟨-, -, hlt, hplan⟩, -⟩ := hc.plan _ hp
  have hpos := ReplicaSnapshot.addFile_pos (A := A) (s := {}) hlt
  rw [buildSnapshotLoop_ok hc h, ReplicaSnapshot.addFiles_cons]
  refine Nat.lt_of_lt_of_le hlt (Nat.le_trans ?_ (PlanFrom.le_pos (by rw [hpos]; exact hplan)))
  rw [hpos]
  exact Nat.le_refl _

/-- An update that takes an index to the image at the update's position. -/
structure UpdateOk (A : Archive α) (files : List FileInfo) (I : PageIndex) (u : ReplicaUpdate) :
    Prop where
  image : Image A files u.pos.txid (if u.replace then u.index else I ∪ u.index)
  commit : u.commit = A.hist.size u.pos.txid
  maxTXID1 : u.maxTXID1 ≤ u.pos.txid
  pos : 0 < u.pos.txid

theorem rebuildLatest_ok (hc : Serves c A files) {pageSize : Nat} {u : ReplicaUpdate}
    (h : rebuildLatest c pageSize = .ok u) (I : PageIndex) : UpdateOk A files I u := by
  unfold rebuildLatest at h
  cases hp : c.calcRestorePlan with
  | error e => simp [hp] at h
  | ok infos =>
    cases infos with
    | nil => simp [hp] at h
    | cons info infos =>
      simp only [hp] at h
      cases hs : buildSnapshot c (info :: infos) pageSize with
      | error e => simp [hs] at h
      | ok s =>
        simp only [hs] at h
        cases h
        have hok := buildSnapshot_ok hc hp hs
        exact ⟨by simpa using hok.image, hok.commit, hok.maxTXID1, buildSnapshot_pos hc hp hs⟩

/-! ## Stale merges -/

/-- With the position `t` and the L1 cursor `m`, the new L1 files end before `t`, neither level
asks for a rebuild, and the pages or the size that the merge takes from L1 are not those of the
position it ends at. -/
structure Stale (A : Archive α) (files : List FileInfo) (t m : Nat) : Prop where
  contiguous0 : Chain t (listed files 0 (t + 1))
  contiguous1 : Chain m (listed files 1 (m + 1))
  fresh : m < endOf m (listed files 1 (m + 1))
  late : endOf m (listed files 1 (m + 1)) < t
  quiet0 : Quiet A (A.hist.size t) (listed files 0 (t + 1))
  quiet1 : Quiet A (A.hist.size (endOf t (listed files 0 (t + 1)))) (listed files 1 (m + 1))
  differs :
    let t0 := endOf t (listed files 0 (t + 1))
    let e1 := endOf m (listed files 1 (m + 1))
    (t0 = t ∧ A.hist.size e1 ≠ A.hist.size t) ∨
      ∃ p, 1 ≤ p ∧ p ≤ A.hist.size e1 ∧ p ≤ A.hist.size t0 ∧ A.hist.latest t t0 p = none ∧
        (A.hist.latest m e1 p).isSome ∧ A.hist.latest m e1 p ≠ A.hist.latest 0 t p

section Levels

variable {pos : Pos} {t m n : Nat} {l0 l1 : PollLevelResult} {used0 used1 : List FileInfo}
  {I : PageIndex}

theorem LevelOk.used_eq {prev base : Nat} (h : LevelOk A files 1 prev base l1 used1) :
    used1 = listed files 1 (prev + 1) := by
  rcases h.gap with ⟨-, h⟩ | ⟨h, -⟩
  · exact h
  · cases h

theorem LevelOk.gap_lt (h : LevelOk A files 0 t n l0 used0) (hg : l0.gapAt ≠ 0) :
    l0.maxTXID + 1 < l0.gapAt := by
  rcases h.gap with ⟨h, -⟩ | ⟨-, h, -⟩
  · exact absurd h hg
  · exact h

theorem LevelOk.cover {level prev base : Nat} {r : PollLevelResult} {used : List FileInfo}
    (h : LevelOk A files level prev base r used) (hr : r.replace = false) :
    Cover A files prev r.maxTXID r.index := by
  obtain ⟨b, -, -, hcov, hb, -⟩ := h.inv.cover
  exact hb hr ▸ hcov

theorem LevelOk.commit (h : LevelOk A files 0 t (A.hist.size t) l0 used0) :
    l0.commit = A.hist.size l0.maxTXID := by
  rw [h.inv.commit]
  split
  · rename_i he; rw [he]
  · rfl

/-- A level that did not move has no entries. -/
theorem Cover.isEmpty (h : Cover A files t t I) : I.isEmpty = true := by
  rw [Std.ExtTreeMap.isEmpty_iff]
  apply Std.ExtTreeMap.ext_getElem?
  intro p
  rw [h.none_of_unwritten History.latest_self]
  simp

theorem needRebuild_eq_false (h : needRebuild l0 l1 = false) :
    (l0.gapAt = 0 ∨ gapBridged l0 l1 = true) ∧
      (safeBridgedReplace l0 l1 = true ∨ (l0.replace = false ∧ l1.replace = false)) := by
  simp only [needRebuild, Bool.or_eq_false_iff, Bool.and_eq_false_iff] at h
  obtain ⟨h1, h2⟩ := h
  constructor
  · rcases h1 with h1 | h1
    · exact .inl (by simpa using h1)
    · exact .inr (by simpa using h1)
  · rcases h2 with h2 | h2
    · exact .inr h2
    · exact .inl (by simpa using h2)

/-- An L1 level that bridges the gap of L0 ends after it. -/
theorem gapBridged_lt (h0 : LevelOk A files 0 t n l0 used0) (h : gapBridged l0 l1 = true) :
    l0.maxTXID < l1.maxTXID := by
  simp only [gapBridged, ne_eq, decide_not, ge_iff_le, Bool.decide_and, Bool.and_eq_true,
    Bool.not_eq_true', decide_eq_false_iff_not, decide_eq_true_eq] at h
  have := h0.gap_lt h.1
  omega

/-- The merge where L1 ends after L0: its size is that of the end of L1. -/
theorem merge_commit_ahead (h0 : LevelOk A files 0 t (A.hist.size t) l0 used0)
    (h1 : LevelOk A files 1 m l0.commit l1 used1) (hmt : m ≤ t) (hlt : l0.maxTXID < l1.maxTXID) :
    (mergePollLevelResults pos m n l0 l1).commit = A.hist.size l1.maxTXID := by
  have hle := h0.inv.le
  simp only [mergePollLevelResults]
  rw [if_neg (by omega), if_pos (.inl (by omega)), h1.inv.commit, if_neg (by omega)]

/-- The merge where L1 ends at or before L0. -/
theorem merge_commit_behind (hpos : pos.txid = t)
    (h0 : LevelOk A files 0 t (A.hist.size t) l0 used0)
    (h1 : LevelOk A files 1 m l0.commit l1 used1)
    (hr0 : l0.replace = false) (hr1 : l1.replace = false) (hle : l1.maxTXID ≤ l0.maxTXID) :
    (mergePollLevelResults pos m (A.hist.size t) l0 l1).commit =
      if t < l0.maxTXID then A.hist.size l0.maxTXID
      else if m < l1.maxTXID then A.hist.size l1.maxTXID else A.hist.size t := by
  have ht := h0.inv.le
  have hm := h1.inv.le
  simp only [mergePollLevelResults, hpos]
  by_cases hlt : t < l0.maxTXID
  · rw [if_pos ⟨hle, .inl hlt⟩, if_pos hlt, h0.commit]
  · have he : l0.maxTXID = t := by omega
    have hemp := (he ▸ h0.cover hr0).isEmpty
    rw [if_neg (by simp [hemp]; omega), if_neg hlt]
    by_cases hm1 : m < l1.maxTXID
    · rw [if_pos (.inl hm1), if_pos hm1, h1.inv.commit, if_neg (by omega)]
    · have he1 : l1.maxTXID = m := by omega
      have hemp1 := (he1 ▸ h1.cover hr1).isEmpty
      rw [if_neg (by simp [hemp1]; omega), if_neg hm1]

/-- A gap bridged by files from the root: the merged index alone is the image. -/
theorem merged_ok_bridged (hpos : pos.txid = t) (ht : 0 < t) (hmt : m ≤ t)
    (h0 : LevelOk A files 0 t (A.hist.size t) l0 used0)
    (h1 : LevelOk A files 1 m l0.commit l1 used1) (hs : safeBridgedReplace l0 l1 = true) :
    UpdateOk A files I
      { mergePollLevelResults pos m (A.hist.size t) l0 l1 with replace := true } := by
  simp only [safeBridgedReplace, Bool.and_eq_true] at hs
  obtain ⟨⟨hbr, hrep⟩, hcomp⟩ := hs
  have hlt := gapBridged_lt h0 hbr
  have hle := h0.inv.le
  obtain ⟨b0, hb0, -, hcov0, -, hroot0⟩ := h0.inv.cover
  obtain ⟨b1, -, -, hcov1, -, hroot1⟩ := h1.inv.cover
  -- L0 starts after transaction `t`, so it is L1 that starts at the root
  have hb1 : b1 = 0 := by
    cases hr1 : l1.replace with
    | true => exact hroot1 (by simpa [isProvablyCompleteSnapshot, hr1] using hcomp)
    | false =>
      have hr0 : l0.replace = true := by simpa [hr1] using hrep
      have := hroot0 (by simpa [isProvablyCompleteSnapshot, hr1, hr0] using hcomp)
      omega
  subst hb1
  have htx : (mergePollLevelResults pos m (A.hist.size t) l0 l1).pos.txid = l1.maxTXID := by
    simp only [mergePollLevelResults, hpos]
    omega
  refine ⟨?_, ?_, ?_, ?_⟩
  · simp only [if_true, htx]
    intro p hp1 hp
    cases hi : l1.index[p]? with
    | none =>
      have := A.wf.written hp1 hp
      rw [hcov1.miss p hi hp] at this
      cases this
    | some e =>
      obtain ⟨x, hu, hx⟩ := merge_newest pos m (A.hist.size t) hcov0 (Nat.le_of_lt hlt) hi
        (hcov1.hit p e hi).1
      exact ⟨x, hu, hx.designates, hx.copy_eq (Nat.zero_le _)⟩
  · simp only [htx]
    exact merge_commit_ahead h0 h1 hmt hlt
  · simp only [htx]
    exact Nat.le_refl _
  · simp only [htx]
    omega

theorem merged_ok_ahead (hpos : pos.txid = t) (hmt : m ≤ t) (hI : Image A files t I)
    (h0 : LevelOk A files 0 t (A.hist.size t) l0 used0)
    (h1 : LevelOk A files 1 m l0.commit l1 used1) (hr0 : l0.replace = false)
    (hr1 : l1.replace = false) (hlt : l0.maxTXID < l1.maxTXID) :
    UpdateOk A files I
      { mergePollLevelResults pos m (A.hist.size t) l0 l1 with replace := false } := by
  have hle := h0.inv.le
  have htx : (mergePollLevelResults pos m (A.hist.size t) l0 l1).pos.txid = l1.maxTXID := by
    simp only [mergePollLevelResults, hpos]
    omega
  refine ⟨?_, ?_, ?_, ?_⟩
  · simp only [htx, Bool.false_eq_true, if_false]
    exact merge_image_ahead hI (h0.cover hr0) (h1.cover hr1) hmt hle (Nat.le_of_lt hlt)
  · simp only [htx]
    exact merge_commit_ahead h0 h1 hmt hlt
  · simp only [htx]
    exact Nat.le_refl _
  · simp only [htx]
    omega

/-- What a merge that is not stale takes from L1 files that end before the position. -/
theorem not_stale (h0 : LevelOk A files 0 t (A.hist.size t) l0 used0)
    (h1 : LevelOk A files 1 m l0.commit l1 used1) (hr0 : l0.replace = false)
    (hr1 : l1.replace = false) (hgap : l0.gapAt = 0) (hs : ¬ Stale A files t m)
    (hm : m < l1.maxTXID) (hlt : l1.maxTXID < t) :
    (l0.maxTXID = t → A.hist.size l1.maxTXID = A.hist.size t) ∧
      ∀ p, 1 ≤ p → p ≤ A.hist.size l1.maxTXID → p ≤ A.hist.size l0.maxTXID →
        A.hist.latest t l0.maxTXID p = none → (A.hist.latest m l1.maxTXID p).isSome →
        A.hist.latest m l1.maxTXID p = A.hist.latest 0 t p := by
  have hu0 : used0 = listed files 0 (t + 1) := by
    rcases h0.gap with ⟨-, h⟩ | ⟨-, h, -⟩
    · exact h
    · omega
  have hu1 := h1.used_eq
  have hq0 := h0.quiet.1 hr0
  have hq1 := h1.quiet.1 hr1
  have hch0 := h0.chain
  have hch1 := h1.chain
  rw [h0.commit, h0.maxTXID] at hq1
  rw [h1.maxTXID] at hm hlt ⊢
  rw [h0.maxTXID]
  subst hu0 hu1
  constructor
  · intro he
    by_contra hne
    exact hs ⟨hch0, hch1, hm, hlt, hq0, hq1, .inl ⟨he, hne⟩⟩
  · intro p hp1 hpe hp0 hn hsome
    by_contra hne
    exact hs ⟨hch0, hch1, hm, hlt, hq0, hq1, .inr ⟨p, hp1, hpe, hp0, hn, hsome, hne⟩⟩

theorem merged_ok_behind (hpos : pos.txid = t) (ht : 0 < t) (hI : Image A files t I)
    (h0 : LevelOk A files 0 t (A.hist.size t) l0 used0)
    (h1 : LevelOk A files 1 m l0.commit l1 used1) (hr0 : l0.replace = false)
    (hr1 : l1.replace = false) (hgap : l0.gapAt = 0) (hle : l1.maxTXID ≤ l0.maxTXID)
    (hs : ¬ Stale A files t m) :
    UpdateOk A files I
      { mergePollLevelResults pos m (A.hist.size t) l0 l1 with replace := false } := by
  have htt := h0.inv.le
  have hcov1 := h1.cover hr1
  have htx : (mergePollLevelResults pos m (A.hist.size t) l0 l1).pos.txid = l0.maxTXID := by
    simp only [mergePollLevelResults, hpos]
    omega
  refine ⟨?_, ?_, ?_, ?_⟩
  · simp only [htx, Bool.false_eq_true, if_false]
    refine merge_image_behind hI (h0.cover hr0) hcov1 htt hle ?_
    intro p hp1 hp hn e he
    obtain ⟨hnew, hme⟩ := hcov1.hit p e he
    have hm : m < l1.maxTXID := by
      have := hnew.le
      have := hnew.designates.lt
      omega
    by_cases hlt : l1.maxTXID < t
    · have hbound := h1.inv.bound p e he
      rw [h1.inv.commit, if_neg (by omega)] at hbound
      have hcopy := hnew.copy_eq (b := m) (by omega)
      rw [hcopy]
      exact (not_stale h0 h1 hr0 hr1 hgap hs hm hlt).2 p hp1 hbound hp hn
        (hcopy ▸ hnew.designates.isSome)
    · have hn' := History.latest_none_of_trans_left (Nat.not_lt.1 hlt) hle hn
      rw [hnew.copy_eq (Nat.zero_le _), History.latest_trans (Nat.zero_le _) (Nat.not_lt.1 hlt),
        hn', Option.none_or]
  · simp only [htx]
    rw [merge_commit_behind hpos h0 h1 hr0 hr1 hle]
    split
    · rfl
    · rename_i h
      have he : l0.maxTXID = t := by omega
      rw [he]
      split
      · rename_i hm
        by_cases hlt : l1.maxTXID < t
        · exact (not_stale h0 h1 hr0 hr1 hgap hs hm hlt).1 he
        · rw [show l1.maxTXID = t by omega]
      · rfl
  · simp only [htx]
    exact hle
  · simp only [htx]
    omega

/-- The merge of two levels that ask for no rebuild, unless it is stale. -/
theorem merged_ok (hpos : pos.txid = t) (ht : 0 < t) (hmt : m ≤ t) (hI : Image A files t I)
    (h0 : LevelOk A files 0 t (A.hist.size t) l0 used0)
    (h1 : LevelOk A files 1 m l0.commit l1 used1) (hn : needRebuild l0 l1 = false)
    (hs : ¬ Stale A files t m) :
    UpdateOk A files I { mergePollLevelResults pos m (A.hist.size t) l0 l1 with
      replace := safeBridgedReplace l0 l1 } := by
  obtain ⟨hg, hr⟩ := needRebuild_eq_false hn
  cases hb : safeBridgedReplace l0 l1 with
  | true => exact merged_ok_bridged hpos ht hmt h0 h1 hb
  | false =>
    obtain ⟨hr0, hr1⟩ : l0.replace = false ∧ l1.replace = false := by simpa [hb] using hr
    by_cases hlt : l0.maxTXID < l1.maxTXID
    · exact merged_ok_ahead hpos hmt hI h0 h1 hr0 hr1 hlt
    · have hgap : l0.gapAt = 0 := hg.resolve_right fun h => hlt (gapBridged_lt h0 h)
      exact merged_ok_behind hpos ht hI h0 h1 hr0 hr1 hgap (Nat.not_lt.1 hlt) hs

/-- The levels of a stale poll ask for no rebuild. -/
theorem Stale.levels (hs : Stale A files t m)
    (h0 : LevelOk A files 0 t (A.hist.size t) l0 used0)
    (h1 : LevelOk A files 1 m l0.commit l1 used1) :
    used0 = listed files 0 (t + 1) ∧ used1 = listed files 1 (m + 1) ∧ l0.replace = false ∧
      l1.replace = false ∧ needRebuild l0 l1 = false ∧ safeBridgedReplace l0 l1 = false := by
  obtain ⟨hg, hu0⟩ : l0.gapAt = 0 ∧ used0 = listed files 0 (t + 1) := by
    rcases h0.gap with h | ⟨-, -, h⟩
    · exact h
    · exact absurd hs.contiguous0 h
  have hu1 := h1.used_eq
  have hr0 : l0.replace = false := h0.quiet.2 (hu0 ▸ hs.quiet0)
  have hr1 : l1.replace = false := by
    rw [h1.quiet, h0.commit, h0.maxTXID, hu0, hu1]
    exact hs.quiet1
  refine ⟨hu0, hu1, hr0, hr1, ?_, ?_⟩
  · simp [needRebuild, hg, hr0, hr1]
  · simp [safeBridgedReplace, hr0, hr1]

/-- After a stale merge the size or a page is not that of the position. -/
theorem Stale.merged (hs : Stale A files t m) (hpos : pos.txid = t)
    (h0 : LevelOk A files 0 t (A.hist.size t) l0 used0)
    (h1 : LevelOk A files 1 m l0.commit l1 used1) :
    let u := mergePollLevelResults pos m (A.hist.size t) l0 l1
    u.commit ≠ A.hist.size u.pos.txid ∨ ∃ p e, 1 ≤ p ∧ p ≤ u.commit ∧
      u.index[p]? = some e ∧ A.copy e p ≠ A.hist.latest 0 u.pos.txid p := by
  obtain ⟨hu0, hu1, hr0, hr1, -, -⟩ := hs.levels h0 h1
  have hm0 := h0.maxTXID
  have hm1 := h1.maxTXID
  have htt := h0.inv.le
  obtain ⟨-, -, hfresh, hlate, -, -, hdiff⟩ := hs
  rw [hu0] at hm0
  rw [hu1] at hm1
  simp only [← hm0, ← hm1] at hdiff hfresh hlate
  have hcov0 := h0.cover hr0
  have hcov1 := h1.cover hr1
  have htx : (mergePollLevelResults pos m (A.hist.size t) l0 l1).pos.txid = l0.maxTXID := by
    simp only [mergePollLevelResults, hpos]
    omega
  have hcommit := merge_commit_behind hpos h0 h1 hr0 hr1 (by omega)
  simp only [htx, hcommit]
  rcases hdiff with ⟨he, hne⟩ | ⟨p, hp1, hpe, hp0, hn, hsome, hne⟩
  · left
    rw [if_neg (by omega), if_pos hfresh, he]
    exact hne
  · right
    -- L0 has no copy of the page, L1 has an old one
    cases hi : l1.index[p]? with
    | none =>
      rw [hcov1.miss p hi hpe] at hsome
      cases hsome
    | some e =>
      have hi0 := hcov0.none_of_unwritten hn
      obtain ⟨hnew, hme⟩ := hcov1.hit p e hi
      refine ⟨p, e, hp1, ?_, ?_, ?_⟩
      · rw [if_pos hfresh]
        split
        · exact hp0
        · exact hpe
      · rcases merge_cases pos m (A.hist.size t) l0 l1 p with
          ⟨x, hu, hx, -⟩ | ⟨x, -, hx, -⟩ | ⟨-, -, hx⟩
        · rw [hi] at hx
          rw [hu, hx]
        · rw [hi0] at hx; cases hx
        · rw [hi] at hx; cases hx
      · rw [hnew.copy_eq (b := m) (by omega), History.latest_trans (Nat.zero_le _) htt, hn,
          Option.none_or]
        exact hne

end Levels

/-! ## Polls with no lock held -/

/-- The visible state after a poll's last section when no lock is held. -/
theorem finishPoll_idle {f : ReplicaFile C} (u : ReplicaUpdate) (now : Int) (hl : f.lock = .none)
    (hp : f.pending = none) :
    let g := f.finishPoll u now
    g.index = (if u.replace then u.index.filter fun pgno _ => pgno ≤ u.commit
      else f.index ∪ u.index) ∧ g.commit = u.commit ∧ g.pos = u.pos ∧ g.maxTXID1 = u.maxTXID1 ∧
      g.lock = .none ∧ g.pending = none ∧ g.pollPos = u.pos ∧ g.pollMaxTXID1 = u.maxTXID1 ∧
      g.pollCommit = u.commit := by
  have hlock : ¬ LockLevel.shared ≤ LockLevel.none := by decide
  simp only [ReplicaFile.finishPoll, ReplicaFile.stageUpdateLocked]
  split
  · -- an update without pages that moves nothing
    rename_i h
    simp only [ReplicaFile.unchangedBy, hp, Bool.and_eq_true, Bool.not_eq_true', beq_iff_eq] at h
    obtain ⟨⟨hr, hemp⟩, ⟨hpos, hcommit⟩, hmax⟩ := h
    have he : f.index ∪ u.index = f.index := by
      rw [Std.ExtTreeMap.isEmpty_iff.1 hemp]
      apply Std.ExtTreeMap.ext_getElem?
      simp [Std.ExtTreeMap.getElem?_union]
    simp [hr, he, hpos, hcommit, hmax, hl, hp]
  · simp [ReplicaFile.applyUpdateLocked, hl, hp, hlock]

theorem Live.finishPoll {f : ReplicaFile C} (hf : Live A files f) {u : ReplicaUpdate}
    (hu : UpdateOk A files f.index u) (now : Int) : Live A files (f.finishPoll u now) := by
  obtain ⟨hi, hc, hpos, hm, hl, hp, hpp, hpm, hpc⟩ := finishPoll_idle u now hf.lock hf.pending
  refine ⟨⟨by rw [hc, hpos, hu.commit], ?_⟩, by rw [hpos]; exact hu.pos,
    by rw [hm, hpos]; exact hu.maxTXID1, hl, hp, by rw [hpp, hpos], by rw [hpm, hm],
    by rw [hpc, hc]⟩
  intro p hp1 hpc'
  rw [hc] at hpc'
  obtain ⟨e, he, hd, hcopy⟩ := hu.image p hp1 (by rw [← hu.commit]; exact hpc')
  refine ⟨e, ?_, hd, by rw [hpos]; exact hcopy⟩
  rw [hi]
  cases hr : u.replace with
  | true => simpa [hr, Std.ExtTreeMap.getElem?_filter', hpc'] using he
  | false => simpa [hr] using he

/-- A poll that fails or is not stale keeps a live file live. -/
theorem Live.poll {f : ReplicaFile C} (hf : Live A files f) (hc : Serves c A files) {now : Int}
    (hs : (f.pollReplicaClient c now).2 = .ok () → ¬ Stale A files f.pos.txid f.maxTXID1) :
    Live A files (f.pollReplicaClient c now).1 := by
  unfold ReplicaFile.pollReplicaClient at hs ⊢
  rw [hf.pollPos, hf.pollMaxTXID1, hf.pollCommit, hf.correct.1] at hs ⊢
  cases h : pollUpdate c f.pageSize f.pos f.maxTXID1 (A.hist.size f.pos.txid) with
  | error e => exact ⟨hf.correct, hf.pos, hf.maxTXID1, hf.lock, hf.pending, hf.pollPos,
      hf.pollMaxTXID1, hf.pollCommit⟩
  | ok u =>
    rw [h] at hs
    refine hf.finishPoll ?_ now
    obtain ⟨l0, l1, used0, used1, h0, h1, ⟨hr, -⟩ | ⟨hn, rfl⟩⟩ := pollUpdate_ok hc h
    · exact rebuildLatest_ok hc hr _
    · exact merged_ok rfl hf.pos hf.maxTXID1 hf.correct.image h0 h1 hn (hs rfl)

/-- A stale poll that succeeds ends in a file that is not correct. -/
theorem Live.poll_stale {f : ReplicaFile C} (hf : Live A files f) (hc : Serves c A files)
    (hs : Stale A files f.pos.txid f.maxTXID1) {now : Int}
    (hok : (f.pollReplicaClient c now).2 = .ok ()) :
    ¬ Correct A files (f.pollReplicaClient c now).1 := by
  unfold ReplicaFile.pollReplicaClient at hok ⊢
  rw [hf.pollPos, hf.pollMaxTXID1, hf.pollCommit, hf.correct.1] at hok ⊢
  cases h : pollUpdate c f.pageSize f.pos f.maxTXID1 (A.hist.size f.pos.txid) with
  | error e => simp [h] at hok
  | ok u =>
    obtain ⟨l0, l1, used0, used1, h0, h1, hu⟩ := pollUpdate_ok hc h
    obtain ⟨-, hu1, -, -, hn, hb⟩ := hs.levels h0 h1
    have hu : u = mergePollLevelResults f.pos f.maxTXID1 (A.hist.size f.pos.txid) l0 l1 := by
      rcases hu with ⟨-, hr | hr⟩ | ⟨-, hu⟩
      · rw [hn] at hr; cases hr
      · have := hs.fresh
        rw [h1.maxTXID, hu1] at hr
        omega
      · rw [hu, hb]
        rfl
    obtain ⟨hi, hcm, hpos, -⟩ := finishPoll_idle u now hf.lock hf.pending
    have hrep : u.replace = false := by rw [hu]; rfl
    rintro ⟨hcommit, hpages⟩
    simp only [hi, hcm, hpos] at hcommit hpages
    have hbad := hs.merged rfl h0 h1
    rw [← hu] at hbad
    rcases hbad with hne | ⟨p, e, hp1, hp, he, hne⟩
    · exact hne hcommit
    · obtain ⟨x, hx, -, hcopy⟩ := hpages p hp1 hp
      have hxe : e = x := by
        simpa [hrep, Std.ExtTreeMap.getElem?_union, he] using hx
      exact hne (hxe ▸ hcopy)

theorem openReplicaFile_live (hc : Serves c A files) {cacheSize : Int} {f : ReplicaFile C}
    (h : openReplicaFile C c cacheSize = .ok f) : Live A files f := by
  obtain ⟨info, infos, s, n, hp, -, hs, he⟩ := openReplicaFile_ok h
  have hok := buildSnapshot_ok hc hp hs
  rw [he]
  refine ⟨⟨hok.commit, fun p h1 hp => hok.image p h1 ?_⟩, buildSnapshot_pos hc hp hs,
    hok.maxTXID1, rfl, rfl, rfl, rfl, rfl⟩
  rw [← hok.commit]
  exact hp

/-! ## Clients whose calls all succeed -/

theorem fetchChecked_client (plan : List FileInfo) (info : FileInfo) :
    fetchChecked (A.client files plan) A.pageSize info =
      .ok (A.pageIndex info, A.header info) := by
  simp [fetchChecked, Archive.client, Archive.header]

theorem pollLevelLoop_client (files plan : List FileInfo) (level : Nat) {infos : List FileInfo}
    {r : PollLevelResult} (h : Chain r.maxTXID infos) :
    pollLevelLoop (A.client files plan) A.pageSize level infos r =
      .ok (r.addFiles A infos, false) := by
  induction infos generalizing r with
  | nil => rfl
  | cons info infos ih =>
    rw [pollLevelLoop, if_neg (by simp [h.1.1]), fetchChecked_client]
    exact ih h.2

theorem pollLevel_client (plan : List FileInfo) (base : Nat) {level prev : Nat}
    (h : Chain prev (listed files level (prev + 1))) :
    pollLevel (A.client files plan) A.pageSize level prev base =
      .ok (({ maxTXID := prev, commit := base } : PollLevelResult).addFiles A
        (listed files level (prev + 1))) := by
  have hl := pollLevelLoop_client (A := A) files plan level
    (r := { maxTXID := prev, commit := base }) h
  unfold pollLevel
  simp only [Archive.client] at hl ⊢
  rw [hl]
  rfl

/-- A stale poll succeeds if its calls do. -/
theorem Stale.poll_client {f : ReplicaFile C} {plan : List FileInfo}
    (hs : Stale A files f.pos.txid f.maxTXID1) (hc : Serves (A.client files plan) A files)
    (hf : Live A files f) (hps : f.pageSize = A.pageSize) (now : Int) :
    (f.pollReplicaClient (A.client files plan) now).2 = .ok () := by
  unfold ReplicaFile.pollReplicaClient
  rw [hf.pollPos, hf.pollMaxTXID1, hf.pollCommit, hf.correct.1, hps]
  have hl0 := pollLevel_client (A := A) plan (A.hist.size f.pos.txid) hs.contiguous0
  have hl1 := pollLevel_client (A := A) plan (PollLevelResult.addFiles A
    { maxTXID := f.pos.txid, commit := A.hist.size f.pos.txid }
    (listed files 0 (f.pos.txid + 1))).commit hs.contiguous1
  obtain ⟨used0, h0⟩ := pollLevel_ok hc hl0
  obtain ⟨used1, h1⟩ := pollLevel_ok hc hl1
  obtain ⟨-, -, -, -, hn, hb⟩ := hs.levels h0 h1
  have hne : ∀ u : ReplicaUpdate, u.maxTXID1 = endOf f.maxTXID1 (listed files 1 (f.maxTXID1 + 1)) →
      isNoopPollUpdate f.pos f.maxTXID1 (A.hist.size f.pos.txid) u = false := by
    intro u hu
    have := hs.fresh
    simp only [isNoopPollUpdate, hu, Bool.and_eq_false_iff, beq_eq_false_iff_ne]
    exact .inl (.inr (by omega))
  simp only [pollUpdate, hl0, hl1, hn, hb, Bool.false_eq_true, if_false]
  rw [hne _ (PollLevelResult.addFiles_maxTXID _ _)]
  rfl

/-! ## Sequences of polls -/

/-- One poll: the client it meets, the files that are visible then, and the time. -/
structure Poll where
  client : ReplicaClient
  files : List FileInfo
  now : Int := 0

def ReplicaFile.poll (f : ReplicaFile C) (x : Poll) : ReplicaFile C :=
  (f.pollReplicaClient x.client x.now).1

def ReplicaFile.polls (f : ReplicaFile C) (xs : List Poll) : ReplicaFile C := xs.foldl .poll f

/-- The files visible after the polls. -/
def visibleAfter (files : List FileInfo) (xs : List Poll) : List FileInfo :=
  xs.foldl (fun _ x => x.files) files

/-- A schedule in which files become visible between polls. -/
def Schedule (A : Archive α) : List FileInfo → List Poll → Prop
  | _, [] => True
  | files, x :: xs => files ⊆ x.files ∧ Serves x.client A x.files ∧ Schedule A x.files xs

/-- No poll of the schedule that succeeds meets a stale listing. -/
def NeverStale (A : Archive α) : ReplicaFile C → List Poll → Prop
  | _, [] => True
  | f, x :: xs => ((f.pollReplicaClient x.client x.now).2 = .ok () →
      ¬ Stale A x.files f.pos.txid f.maxTXID1) ∧ NeverStale A (f.poll x) xs

theorem Live.polls {xs : List Poll} : ∀ {files : List FileInfo} {f : ReplicaFile C},
    Live A files f → Schedule A files xs → NeverStale A f xs →
      Live A (visibleAfter files xs) (f.polls xs) := by
  induction xs with
  | nil => exact fun hf _ _ => hf
  | cons x xs ih =>
    rintro files f hf ⟨hsub, hx, hxs⟩ ⟨hs, hrest⟩
    exact ih ((hf.mono hsub).poll hx hs) hxs hrest

/-- Along every schedule in which no poll that succeeds meets a stale listing the file is correct
after every poll, and then the next poll that succeeds leaves it correct exactly when its listing is
not stale either. -/
theorem polls_correct (hc : Serves c A files) {cacheSize : Int} {f : ReplicaFile C}
    (ho : openReplicaFile C c cacheSize = .ok f) {xs : List Poll} (hxs : Schedule A files xs)
    (hs : NeverStale A f xs) :
    Correct A (visibleAfter files xs) (f.polls xs) ∧
      ∀ x : Poll, visibleAfter files xs ⊆ x.files → Serves x.client A x.files →
        ((f.polls xs).pollReplicaClient x.client x.now).2 = .ok () →
        (Correct A x.files ((f.polls xs).poll x) ↔
          ¬ Stale A x.files (f.polls xs).pos.txid (f.polls xs).maxTXID1) := by
  have hlive := (openReplicaFile_live hc ho).polls hxs hs
  refine ⟨hlive.correct, fun x hsub hx hok => ⟨fun hcor hst => ?_, fun hst => ?_⟩⟩
  · exact (hlive.mono hsub).poll_stale hx hst hok hcor
  · exact ((hlive.mono hsub).poll hx fun _ => hst).correct

/-! ### A late compaction

Transaction 1 writes the pages 1 and 2, the transactions 2 and 3 write page 2. The file is opened
on the compaction of transaction 1 and polled to transaction 3; then the compaction of
transaction 2 appears. -/

def lateHistory : History Nat where
  writes t p :=
    if t = 1 ∧ (p = 1 ∨ p = 2) then some 1
    else if (t = 2 ∨ t = 3) ∧ p = 2 then some t
    else none
  size t := if t = 0 then 0 else 2

theorem lateHistory_wellFormed : lateHistory.WellFormed where
  size_zero := rfl
  bounds t p h := by
    simp only [lateHistory] at h ⊢
    grind
  grow t p h1 h2 := by
    simp only [lateHistory] at h1 h2 ⊢
    grind

def lateArchive : Archive Nat := ⟨lateHistory, lateHistory_wellFormed, 512, fun _ _ => (0, 0)⟩

/-- The files in the order in which they become visible. -/
def lateFiles : List FileInfo := [⟨1, 1, 1, 0⟩, ⟨0, 2, 2, 0⟩, ⟨0, 3, 3, 0⟩, ⟨1, 2, 2, 0⟩]

/-- A poll that meets the first `n` of the files. -/
def latePoll (n : Nat) : Poll where
  client := lateArchive.client (lateFiles.take n) (lateFiles.take (min n 3))
  files := lateFiles.take n

theorem serves_latePoll {n : Nat} (hn : 1 ≤ n) :
    Serves (latePoll n).client lateArchive (latePoll n).files := by
  have hr : ∀ info ∈ lateFiles, 1 ≤ info.minTXID ∧ info.minTXID ≤ info.maxTXID := by decide
  refine Archive.serves_client (fun info h => hr info (List.mem_of_mem_take h)) ?_ ?_
  · obtain rfl | rfl | hn : n = 1 ∨ n = 2 ∨ 3 ≤ n := by omega
    · exact ⟨by decide, by decide, by decide, trivial⟩
    · exact ⟨by decide, by decide, by decide, by decide, by decide, by decide, trivial⟩
    · rw [Nat.min_eq_right hn]
      exact ⟨by decide, by decide, by decide, by decide, by decide, by decide, by decide,
        by decide, by decide, trivial⟩
  · exact (List.take_prefix_take_left (Nat.min_le_left n 3)).subset

/-- The last poll is stale: page 2 of the third transaction is overwritten by the second's. -/
theorem stale_latePoll : Stale lateArchive (latePoll 4).files 3 1 where
  contiguous0 := trivial
  contiguous1 := ⟨⟨rfl, by decide⟩, trivial⟩
  fresh := by decide
  late := by decide
  quiet0 := trivial
  quiet1 := ⟨by decide, by decide, trivial⟩
  differs := .inr ⟨2, by decide⟩

theorem not_stale_latePoll : ¬ Stale lateArchive (latePoll 3).files 1 1 :=
  fun h => absurd h.fresh (by decide)

theorem schedule_latePoll : Schedule lateArchive (latePoll 1).files [latePoll 3] :=
  ⟨by decide, serves_latePoll (by decide), trivial⟩

theorem polls_correct_late :
    ∃ f, openReplicaFile (.unbounded ..) (latePoll 1).client 0 = .ok f ∧
      NeverStale lateArchive f [latePoll 3] ∧
      Correct lateArchive (latePoll 3).files (f.polls [latePoll 3]) :=
  ⟨_, rfl, ⟨fun _ => not_stale_latePoll, trivial⟩,
    (polls_correct (serves_latePoll (Nat.le_refl 1)) rfl
    schedule_latePoll ⟨fun _ => not_stale_latePoll, trivial⟩).1⟩

/-- Both polls succeed, and the file is not correct after the second. -/
theorem polls_not_correct_late :
    ∃ f, openReplicaFile (.unbounded ..) (latePoll 1).client 0 = .ok f ∧
      (f.pollReplicaClient (latePoll 3).client 0).2 = .ok () ∧
      ((f.polls [latePoll 3]).pollReplicaClient (latePoll 4).client 0).2 = .ok () ∧
      ¬ Correct lateArchive (latePoll 4).files (f.polls [latePoll 3, latePoll 4]) := by
  have ho : openReplicaFile (.unbounded ..) (latePoll 1).client 0 = .ok _ := rfl
  have hlive := (openReplicaFile_live (serves_latePoll (Nat.le_refl 1)) ho).polls
    schedule_latePoll ⟨fun _ => not_stale_latePoll, trivial⟩
  have hsub : (latePoll 3).files ⊆ (latePoll 4).files := by decide
  have hserves : Serves (latePoll 4).client _ _ := serves_latePoll (by decide)
  have hok := Stale.poll_client stale_latePoll hserves (hlive.mono hsub) rfl 0
  exact ⟨_, ho, rfl, hok, (hlive.mono hsub).poll_stale hserves stale_latePoll hok⟩

end Litestream
