import Mytools.Litestream.Proof.LiveFollow

/-!
# Polling an unchanged replica

The file is opened on a plan that ends at the replica's latest transaction, and polled on the same
files with calls that all succeed. The L0 listing is then empty, but the L1 listing starts after
the last L1 transaction *of the plan*, which is 0 when the plan uses no L1 file. The poll is a
successful no-op exactly when no L1 file starts after it (`unchanged_poll_iff`).
-/

namespace Litestream

open Lib

variable {α : Type} {A : Archive α} {C : PageCache} {files plan : List FileInfo} {f : ReplicaFile C}

/-- A replica and its restore plan: the plan is contiguous from transaction 1 and ends at the
latest transaction of the files. -/
structure Restorable (files plan : List FileInfo) : Prop where
  range : ∀ info ∈ files, 1 ≤ info.minTXID ∧ info.minTXID ≤ info.maxTXID
  subset : plan ⊆ files
  contiguous : PlanFrom 0 plan
  latest : ∀ info ∈ files, info.maxTXID ≤ endOf 0 plan

/-- The last L1 transaction of a plan, 0 if it has no L1 file. -/
def planMaxTXID1 (plan : List FileInfo) : Nat :=
  plan.foldl (fun m info => if info.level = 1 ∧ info.maxTXID > m then info.maxTXID else m) 0

/-- The state that readers and the poller see is the same in both. -/
structure SameState (f g : ReplicaFile C) : Prop where
  index : g.index = f.index
  commit : g.commit = f.commit
  pos : g.pos = f.pos
  maxTXID1 : g.maxTXID1 = f.maxTXID1
  pollPos : g.pollPos = f.pollPos
  pollMaxTXID1 : g.pollMaxTXID1 = f.pollMaxTXID1
  pollCommit : g.pollCommit = f.pollCommit
  pending : g.pending = f.pending
  visibleGeneration : g.visibleGeneration = f.visibleGeneration

/-! ## The file that was opened -/

theorem ReplicaSnapshot.addFiles_txid {infos : List FileInfo} {s : ReplicaSnapshot}
    (h : PlanFrom s.pos.txid infos) : (s.addFiles A infos).pos.txid = endOf s.pos.txid infos := by
  induction infos generalizing s with
  | nil => rfl
  | cons info infos ih =>
    obtain ⟨-, -, hlt, hp⟩ := h
    have hpos := ReplicaSnapshot.addFile_pos (A := A) hlt
    rw [ReplicaSnapshot.addFiles_cons, ih (by rw [hpos]; exact hp), hpos]
    rfl

theorem ReplicaSnapshot.addFiles_maxTXID1 (infos : List FileInfo) (s : ReplicaSnapshot) :
    (s.addFiles A infos).maxTXID1 = infos.foldl
      (fun m info => if info.level = 1 ∧ info.maxTXID > m then info.maxTXID else m) s.maxTXID1 := by
  induction infos generalizing s with
  | nil => rfl
  | cons info infos ih => exact ih _

theorem Restorable.serves (hw : Restorable files plan) : Serves (A.client files plan) A files :=
  A.serves_client hw.range hw.contiguous hw.subset

theorem detectPageSize_client {infos : List FileInfo} {pageSize : Nat}
    (h : detectPageSize (A.client files plan) infos = .ok pageSize) : pageSize = A.pageSize := by
  unfold detectPageSize at h
  cases hr : infos.reverse with
  | nil => simp [hr, detectPageSizeLoop] at h
  | cons info infos =>
    simp only [hr, detectPageSizeLoop, Archive.client, Archive.header] at h
    split at h
    · cases h; rfl
    · cases h

/-- The cursors of a file that was opened on the replica. -/
theorem Restorable.opened (hw : Restorable files plan) {cacheSize : Int}
    (ho : openReplicaFile C (A.client files plan) cacheSize = .ok f) :
    f.pos.txid = endOf 0 plan ∧ f.maxTXID1 = planMaxTXID1 plan ∧ f.pageSize = A.pageSize := by
  obtain ⟨info, infos, s, n, hp, hd, hs, he⟩ := openReplicaFile_ok ho
  cases hp
  have hs := buildSnapshotLoop_ok hw.serves hs
  rw [he]
  refine ⟨?_, ?_, detectPageSize_client hd⟩
  · rw [hs]
    exact ReplicaSnapshot.addFiles_txid hw.contiguous
  · rw [hs]
    exact ReplicaSnapshot.addFiles_maxTXID1 _ _

/-! ## The poll -/

/-- Nothing is listed after the latest transaction. -/
theorem Restorable.listed_eq_nil (hw : Restorable files plan) (level : Nat) :
    listed files level (endOf 0 plan + 1) = [] := by
  rw [listed, List.filter_eq_nil_iff]
  intro info hm
  have := hw.range info hm
  have := hw.latest info hm
  simp only [decide_eq_true_eq]
  omega

theorem listed_eq_nil_iff {level m : Nat} :
    listed files level (m + 1) = [] ↔ ∀ info ∈ files, info.level = level → info.minTXID ≤ m := by
  rw [listed, List.filter_eq_nil_iff]
  refine forall₂_congr fun info _ => ?_
  simp only [decide_eq_true_eq]
  omega

theorem Restorable.not_superseded (hw : Restorable files plan) :
    hasSupersedingSnapshot (A.client files plan) (endOf 0 plan) = .ok false := by
  have h : ∀ level, supersededAt (A.client files plan) level (endOf 0 plan) = .ok false := by
    intro level
    have hnone : (listed files level 1).any (fun info => info.minTXID = 1 ∧
        info.maxTXID > endOf 0 plan) = false := by
      rw [List.any_eq_false]
      intro info hm
      have := hw.latest info (mem_of_mem_listed hm)
      simp only [decide_eq_true_eq]
      omega
    simp only [supersededAt, Archive.client, hnone]
    rfl
  rw [hasSupersedingSnapshot, h 0]
  exact h 1

/-- Two levels that did not move merge to the state the poll started from. -/
theorem merge_idle {pos : Pos} {m n : Nat} (hm : m ≤ pos.txid) :
    let l0 : PollLevelResult := { maxTXID := pos.txid, commit := n }
    let l1 : PollLevelResult := { maxTXID := m, commit := n }
    let u := mergePollLevelResults pos m n l0 l1
    needRebuild l0 l1 = false ∧ safeBridgedReplace l0 l1 = false ∧ u.index.isEmpty = true ∧
      u.pos = pos ∧ u.commit = n := by
  refine ⟨by simp [needRebuild], by simp [safeBridgedReplace], ?_, ?_, ?_⟩
  · rw [Std.ExtTreeMap.isEmpty_iff]
    apply Std.ExtTreeMap.ext_getElem?
    intro p
    simp [mergePollLevelResults, Std.ExtTreeMap.getElem?_union]
  · simp [mergePollLevelResults, hm]
  · simp [mergePollLevelResults]

/-- With nothing listed at either level the poll stages the state it started from. -/
theorem Restorable.pollUpdate_eq (hw : Restorable files plan) {pos : Pos} {m n : Nat}
    (hpos : pos.txid = endOf 0 plan) (h1 : listed files 1 (m + 1) = []) (hm : m ≤ pos.txid) :
    ∃ u, pollUpdate (A.client files plan) A.pageSize pos m n = .ok u ∧ u.replace = false ∧
      u.index.isEmpty = true ∧ u.pos = pos ∧ u.commit = n ∧ u.maxTXID1 = m := by
  have h0 : listed files 0 (pos.txid + 1) = [] := by rw [hpos]; exact hw.listed_eq_nil 0
  have hl0 : pollLevel (A.client files plan) A.pageSize 0 pos.txid n =
      .ok { maxTXID := pos.txid, commit := n } := by
    rw [pollLevel_client plan n (by rw [h0]; trivial), h0]
    rfl
  have hl1 : pollLevel (A.client files plan) A.pageSize 1 m n =
      .ok { maxTXID := m, commit := n } := by
    rw [pollLevel_client plan n (by rw [h1]; trivial), h1]
    rfl
  have hsup : hasSupersedingSnapshot (A.client files plan) pos.txid = .ok false := by
    rw [hpos]; exact hw.not_superseded
  obtain ⟨hneed, hsafe, hemp, hposm, hcommit⟩ := merge_idle (n := n) hm
  refine ⟨_, ?_, rfl, hemp, hposm, hcommit, rfl⟩
  simp only [pollUpdate, hl0, hl1, hneed, hsafe, Bool.false_eq_true, if_false, hsup]
  exact ite_self _

/-- A poll that stages something moves the generation or the L1 cursor. -/
theorem pollUpdate_moves {c : ReplicaClient} (hc : Serves c A files) {pageSize m n : Nat}
    {pos : Pos} {u : ReplicaUpdate} (h : pollUpdate c pageSize pos m n = .ok u)
    (h1 : listed files 1 (m + 1) ≠ []) : u.replace = true ∨ u.maxTXID1 ≠ m := by
  obtain ⟨l0, l1, used0, used1, -, hl1, ⟨hr, -⟩ | ⟨-, rfl⟩⟩ := pollUpdate_ok hc h
  · left
    unfold rebuildLatest at hr
    split at hr
    · cases hr
    · cases hr
    · split at hr
      · cases hr
      · cases hr; rfl
  · right
    have hm := hl1.maxTXID
    have hu := hl1.used_eq
    intro he
    simp only [mergePollLevelResults] at he
    rw [he] at hm
    exact h1 (hu ▸ (endOf_eq_iff hl1.chain).1 hm.symm)

/-- The poll of an unchanged replica succeeds and changes nothing exactly when no L1 file starts
after the last L1 transaction of the plan. -/
theorem unchanged_poll_iff (hw : Restorable files plan) {cacheSize : Int}
    (ho : openReplicaFile C (A.client files plan) cacheSize = .ok f) (now : Int) :
    ((f.pollReplicaClient (A.client files plan) now).2 = .ok () ∧
        SameState f (f.pollReplicaClient (A.client files plan) now).1) ↔
      ∀ info ∈ files, info.level = 1 → info.minTXID ≤ planMaxTXID1 plan := by
  obtain ⟨hpos, hmax, hps⟩ := hw.opened ho
  have hlive := openReplicaFile_live hw.serves ho
  have hlock : ¬ LockLevel.shared ≤ f.lock := by rw [hlive.lock]; decide
  rw [← hmax, ← listed_eq_nil_iff]
  simp only [ReplicaFile.pollReplicaClient, hlive.pollPos, hlive.pollMaxTXID1,
    hlive.pollCommit, hps]
  constructor
  · rintro ⟨hok, hsame⟩
    by_contra hne
    cases hu : pollUpdate (A.client files plan) A.pageSize f.pos f.maxTXID1 f.commit with
    | error e => simp [hu] at hok
    | ok u =>
      simp only [hu] at hsame
      rcases pollUpdate_moves hw.serves hu hne with hr | hm
      · -- a rebuild is installed under a new generation
        have hgen := hsame.visibleGeneration
        simp [ReplicaFile.finishPoll, ReplicaFile.stageUpdateLocked, ReplicaFile.unchangedBy, hr,
          hlock, ReplicaFile.applyUpdateLocked] at hgen
      · have := hsame.pollMaxTXID1
        rw [(finishPoll_idle u now hlive.lock hlive.pending).2.2.2.2.2.2.2.1,
          hlive.pollMaxTXID1] at this
        exact hm this
  · intro h1
    obtain ⟨u, hu, hr, hemp, hpos', hcommit, hm⟩ :=
      hw.pollUpdate_eq (A := A) (n := f.commit) hpos h1 hlive.maxTXID1
    rw [hu]
    have hsame : f.unchangedBy u = true := by
      simp [ReplicaFile.unchangedBy, hlive.pending, hr, hemp, hpos', hcommit, hm]
    have hst : (ReplicaFile.stageUpdateLocked
        { f with pollPos := u.pos, pollMaxTXID1 := u.maxTXID1, pollCommit := u.commit } u) =
        { f with pollPos := u.pos, pollMaxTXID1 := u.maxTXID1, pollCommit := u.commit } := by
      rw [ReplicaFile.stageUpdateLocked, if_pos]
      exact hsame
    refine ⟨rfl, ?_⟩
    simp only [ReplicaFile.finishPoll, hst]
    constructor
    all_goals simp [hpos', hcommit, hm, hlive.pollPos, hlive.pollMaxTXID1, hlive.pollCommit]

/-- A snapshot, the compaction of each of the first two transactions and the file of the third,
which is also in a later compaction. -/
def keptFiles : List FileInfo :=
  [⟨9, 1, 1, 0⟩, ⟨1, 1, 1, 0⟩, ⟨1, 2, 2, 0⟩, ⟨0, 3, 3, 0⟩, ⟨1, 2, 3, 0⟩]

def keptPlan : List FileInfo := [⟨9, 1, 1, 0⟩, ⟨1, 2, 2, 0⟩, ⟨0, 3, 3, 0⟩]

theorem restorable_kept : Restorable keptFiles keptPlan where
  range := by decide
  subset := by decide
  contiguous := ⟨by decide, by decide, by decide, by decide, by decide, by decide, by decide,
    by decide, by decide, trivial⟩
  latest := by decide

theorem unchanged_poll_kept :
    ∃ f, openReplicaFile (.unbounded ..) (lateArchive.client keptFiles keptPlan) 0 = .ok f ∧
      (f.pollReplicaClient (lateArchive.client keptFiles keptPlan) 0).2 = .ok () ∧
      SameState f (f.pollReplicaClient (lateArchive.client keptFiles keptPlan) 0).1 :=
  ⟨_, rfl, (unchanged_poll_iff restorable_kept rfl 0).2 (by decide)⟩

/-- A snapshot of the transactions 1 to 3, and a compaction of 2 and 3 that outlived the one of
transaction 1: the plan is the snapshot alone, and every poll fails on the compaction. -/
theorem unchanged_poll_fails :
    Restorable [⟨9, 1, 3, 0⟩, ⟨1, 2, 3, 0⟩] [⟨9, 1, 3, 0⟩] ∧
    ∃ f, openReplicaFile (.unbounded ..)
        (lateArchive.client [⟨9, 1, 3, 0⟩, ⟨1, 2, 3, 0⟩] [⟨9, 1, 3, 0⟩]) 0 = .ok f ∧
      (f.pollReplicaClient
          (lateArchive.client [⟨9, 1, 3, 0⟩, ⟨1, 2, 3, 0⟩] [⟨9, 1, 3, 0⟩]) 0).2 =
        .error (.pollL1 (.nonContiguous 1 0 ⟨1, 2, 3, 0⟩)) :=
  ⟨⟨by decide, by decide, ⟨by decide, by decide, by decide, trivial⟩, by decide⟩, _, rfl, rfl⟩

end Litestream
