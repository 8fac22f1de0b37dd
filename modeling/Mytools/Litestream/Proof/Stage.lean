import Mathlib.Data.List.Induction
import Mytools.Litestream.ReplicaFile

/-!
# Staged and installed updates

The updates of a read transaction are merged into one and installed at its end. `Staged` says what
the merged update is, next to the file that installs each update at once: an increment is added to
both, but a replacement is trimmed to its commit size only when it is installed. The two ways agree
on every page unless the merged replacement brings back a page that lay beyond its own commit size
(`Revives`).
-/

namespace Litestream

variable {C : PageCache}

namespace ReplicaFile

/-- The file with no update waiting, under a lock. -/
def underLock (f : ReplicaFile C) (lock : LockLevel) : ReplicaFile C :=
  { f with lock, pending := none }

/-- The file after the updates arrived under a `SHARED` lock. -/
def stagedUpdates (f : ReplicaFile C) (us : List ReplicaUpdate) : ReplicaFile C :=
  us.foldl stageUpdateLocked (f.underLock .shared)

/-- The file after the updates arrived with no lock held. -/
def directUpdates (f : ReplicaFile C) (us : List ReplicaUpdate) : ReplicaFile C :=
  us.foldl stageUpdateLocked (f.underLock .none)

/-- The files show readers the same pages, size and position. -/
structure SameView (g h : ReplicaFile C) : Prop where
  commit : g.commit = h.commit
  pos : g.pos = h.pos
  maxTXID1 : g.maxTXID1 = h.maxTXID1
  index : ∀ p, 1 ≤ p → p ≤ h.commit → g.index[p]? = h.index[p]?

end ReplicaFile

open ReplicaFile

/-- The last entry that the updates have for a page. -/
def lastEntry (us : List ReplicaUpdate) (p : Nat) : Option PageIndexElem :=
  us.foldl (fun last u => u.index[p]?.or last) none

/-- The commit size after the updates. -/
def lastCommit (first : Nat) (us : List ReplicaUpdate) : Nat := us.foldl (fun _ u => u.commit) first

/-- The last replacement has an entry for a page beyond its own commit size, the database grows back
to that page, and no later update has an entry for it. -/
def Revives (us : List ReplicaUpdate) : Prop :=
  ∃ before u later p, us = before ++ u :: later ∧ u.replace = true ∧
    (∀ w ∈ later, w.replace = false) ∧ u.commit < p ∧ p ≤ lastCommit u.commit later ∧
    u.index[p]? ≠ none ∧ lastEntry later p = none

theorem lastEntry_snoc (us : List ReplicaUpdate) (u : ReplicaUpdate) (p : Nat) :
    lastEntry (us ++ [u]) p = u.index[p]?.or (lastEntry us p) := by
  rw [lastEntry, List.foldl_append]
  rfl

theorem lastCommit_snoc (first : Nat) (us : List ReplicaUpdate) (u : ReplicaUpdate) :
    lastCommit first (us ++ [u]) = u.commit := by
  rw [lastCommit, List.foldl_append]
  rfl

/-- The cursors of a file and of an update. -/
structure SameCursors (f : ReplicaFile C) (u : ReplicaUpdate) : Prop where
  commit : f.commit = u.commit
  pos : f.pos = u.pos
  maxTXID1 : f.maxTXID1 = u.maxTXID1

/-- What waits under the lock (`g`), next to the file that installed every update (`h`). -/
inductive Merged (f g h : ReplicaFile C) (us : List ReplicaUpdate) : Prop
  | nothing : g.pending = none → (∀ u ∈ us, u.replace = false) → h.commit = f.commit →
      h.pos = f.pos → h.maxTXID1 = f.maxTXID1 → (∀ p : Nat, h.index[p]? = f.index[p]?) →
      Merged f g h us
  | increment (u : ReplicaUpdate) : g.pending = some u → u.replace = false →
      (∀ w ∈ us, w.replace = false) → SameCursors h u →
      (∀ p : Nat, h.index[p]? = u.index[p]?.or f.index[p]?) → Merged f g h us
  | replacement (u w : ReplicaUpdate) (before later : List ReplicaUpdate) : g.pending = some u →
      u.replace = true → us = before ++ w :: later → w.replace = true →
      (∀ x ∈ later, x.replace = false) → SameCursors h u → u.commit = lastCommit w.commit later →
      (∀ p : Nat, u.index[p]? = (lastEntry later p).or w.index[p]?) →
      (∀ p : Nat, h.index[p]? = (lastEntry later p).or
        (w.index[p]?.filter fun _ => p ≤ w.commit)) → Merged f g h us

/-- The two files after the same updates. -/
structure Staged (f g h : ReplicaFile C) (us : List ReplicaUpdate) : Prop where
  locked : g.lock = .shared
  unlocked : h.lock = .none
  installed : h.pending = none
  index : g.index = f.index
  commit : g.commit = f.commit
  pos : g.pos = f.pos
  maxTXID1 : g.maxTXID1 = f.maxTXID1
  merged : Merged f g h us

variable {f g h : ReplicaFile C} {us : List ReplicaUpdate} {u : ReplicaUpdate}

theorem staged_nil (f : ReplicaFile C) : Staged f (f.underLock .shared) (f.underLock .none) [] :=
  ⟨rfl, rfl, rfl, rfl, rfl, rfl, rfl,
    .nothing rfl (by simp) rfl rfl rfl fun _ => rfl⟩

/-! ## One update -/

theorem getElem?_applyUpdateLocked (f : ReplicaFile C) (u : ReplicaUpdate) (p : Nat) :
    (f.applyUpdateLocked u).index[p]? =
      if u.replace then u.index[p]?.filter fun _ => p ≤ u.commit
      else u.index[p]?.or f.index[p]? := by
  unfold applyUpdateLocked
  cases u.replace with
  | true => simp
  | false => simp [Std.ExtTreeMap.getElem?_union]

theorem applyUpdateLocked_cursors (f : ReplicaFile C) (u : ReplicaUpdate) :
    SameCursors (f.applyUpdateLocked u) u := ⟨rfl, rfl, rfl⟩

theorem stageUpdateLocked_locked (hg : g.lock = .shared) :
    g.stageUpdateLocked u = if g.unchangedBy u then g else g.mergePendingLocked u := by
  have hle : LockLevel.shared ≤ g.lock := by rw [hg]; decide
  rw [stageUpdateLocked, if_pos hle]

theorem stageUpdateLocked_unlocked (hh : h.lock = .none) :
    h.stageUpdateLocked u = if h.unchangedBy u then h else h.applyUpdateLocked u := by
  have hle : ¬ LockLevel.shared ≤ h.lock := by rw [hh]; decide
  rw [stageUpdateLocked, if_neg hle]

/-- Both files take an update for unchanged, or neither. -/
theorem Staged.unchangedBy_eq (st : Staged f g h us) (u : ReplicaUpdate) :
    h.unchangedBy u = g.unchangedBy u := by
  cases st.merged with
  | nothing hp _ hc hpos hm _ =>
    simp only [unchangedBy, st.installed, hp, hc, hpos, hm, st.commit, st.pos, st.maxTXID1]
  | increment v hp _ _ hcur _ =>
    simp only [unchangedBy, st.installed, hp, hcur.commit, hcur.pos, hcur.maxTXID1]
  | replacement v _ _ _ hp _ _ _ _ hcur _ _ _ =>
    simp only [unchangedBy, st.installed, hp, hcur.commit, hcur.pos, hcur.maxTXID1]

theorem replace_of_unchangedBy (hu : g.unchangedBy u = true) : u.replace = false := by
  simp only [unchangedBy, Bool.and_eq_true, Bool.not_eq_true'] at hu
  exact hu.1.1

theorem getElem?_of_unchangedBy (hu : g.unchangedBy u = true) (p : Nat) : u.index[p]? = none := by
  simp only [unchangedBy, Bool.and_eq_true] at hu
  rw [Std.ExtTreeMap.isEmpty_iff.mp hu.1.2]
  exact Std.ExtTreeMap.getElem?_empty

theorem commit_of_unchangedBy {v : ReplicaUpdate} (hu : g.unchangedBy u = true)
    (hp : g.pending = some v) : u.commit = v.commit := by
  simp only [unchangedBy, hp, Bool.and_eq_true, beq_iff_eq] at hu
  exact hu.2.1.2

theorem replace_snoc {us : List ReplicaUpdate} (hus : ∀ w ∈ us, w.replace = false)
    (hu : u.replace = false) : ∀ w ∈ us ++ [u], w.replace = false := by
  intro w hw
  rcases List.mem_append.mp hw with hw | hw
  · exact hus w hw
  · rw [List.mem_singleton.mp hw]
    exact hu

/-- An update that changes nothing is passed over by both files. -/
theorem Merged.skip (m : Merged f g h us) (hu : g.unchangedBy u = true) :
    Merged f g h (us ++ [u]) := by
  have hr := replace_of_unchangedBy hu
  cases m with
  | nothing hp hus hc hpos hm hix => exact .nothing hp (replace_snoc hus hr) hc hpos hm hix
  | increment v hp hv hus hcur hix => exact .increment v hp hv (replace_snoc hus hr) hcur hix
  | replacement v w before later hp hv hsplit hw hlater hcur hcommit hix hhix =>
    have hlast : ∀ p, lastEntry (later ++ [u]) p = lastEntry later p := fun p => by
      rw [lastEntry_snoc, getElem?_of_unchangedBy hu, Option.none_or]
    refine .replacement v w before (later ++ [u]) hp hv (by simp [hsplit]) hw
      (replace_snoc hlater hr) hcur ?_ (fun p => ?_) fun p => ?_
    · rw [lastCommit_snoc, commit_of_unchangedBy hu hp]
    · rw [hlast, hix]
    · rw [hlast, hhix]

theorem pending_mergePendingLocked {v : ReplicaUpdate} (hp : g.pending = some v)
    (hu : u.replace = false) :
    (g.mergePendingLocked u).pending = some
      { v with index := v.index ∪ u.index, commit := u.commit, pos := u.pos,
               maxTXID1 := u.maxTXID1 } := by
  simp [mergePendingLocked, hu, hp]

/-- An update that is merged by one file and installed by the other. -/
theorem Merged.add (m : Merged f g h us) :
    Merged f (g.mergePendingLocked u) (h.applyUpdateLocked u) (us ++ [u]) := by
  have hcur := applyUpdateLocked_cursors h u
  cases hu : u.replace with
  | true =>
    -- A replacement drops what was merged before it.
    refine .replacement u u us [] (by simp [mergePendingLocked, hu]) hu rfl hu (by simp) hcur rfl
      (fun p => ?_) fun p => ?_
    · rfl
    · rw [getElem?_applyUpdateLocked, if_pos hu]
      rfl
  | false =>
    have hix' : ∀ p : Nat, (h.applyUpdateLocked u).index[p]? = u.index[p]?.or h.index[p]? := by
      simp [getElem?_applyUpdateLocked, hu]
    cases m with
    | nothing hp hus hc hpos hm hix =>
      refine .increment u (by simp [mergePendingLocked, hu, hp]) hu (replace_snoc hus hu) hcur
        fun p => ?_
      rw [hix', hix]
    | increment v hp hv hus _ hix =>
      refine .increment _ (pending_mergePendingLocked hp hu) hv (replace_snoc hus hu)
        ⟨rfl, rfl, rfl⟩ fun p => ?_
      rw [hix', hix, Std.ExtTreeMap.getElem?_union, Option.or_assoc]
    | replacement v w before later hp hv hsplit hw hlater _ hcommit hix hhix =>
      refine .replacement _ w before (later ++ [u]) (pending_mergePendingLocked hp hu) hv
        (by simp [hsplit]) hw (replace_snoc hlater hu) ⟨rfl, rfl, rfl⟩ ?_ (fun p => ?_) fun p => ?_
      · rw [lastCommit_snoc]
      · rw [Std.ExtTreeMap.getElem?_union, hix, lastEntry_snoc, Option.or_assoc]
      · rw [hix', hhix, lastEntry_snoc, Option.or_assoc]

theorem mergePendingLocked_eq (g : ReplicaFile C) (u : ReplicaUpdate) :
    ∃ v, g.mergePendingLocked u = { g with pending := some v } := by
  unfold mergePendingLocked
  split
  · exact ⟨u, rfl⟩
  · split
    · exact ⟨u, rfl⟩
    · exact ⟨_, rfl⟩

theorem Staged.step (st : Staged f g h us) (u : ReplicaUpdate) :
    Staged f (g.stageUpdateLocked u) (h.stageUpdateLocked u) (us ++ [u]) := by
  rw [stageUpdateLocked_locked st.locked, stageUpdateLocked_unlocked st.unlocked,
    st.unchangedBy_eq u]
  cases hu : g.unchangedBy u with
  | true => exact { st with merged := st.merged.skip hu }
  | false =>
    have hm : Merged f (g.mergePendingLocked u) (h.applyUpdateLocked u) (us ++ [u]) := st.merged.add
    obtain ⟨v, hv⟩ := mergePendingLocked_eq g u
    simp only [Bool.false_eq_true, if_false]
    rw [hv] at hm ⊢
    exact ⟨st.locked, st.unlocked, st.installed, st.index, st.commit, st.pos, st.maxTXID1, hm⟩

/-- What waits after any updates, next to the file that installed them. -/
theorem staged_updates (f : ReplicaFile C) (us : List ReplicaUpdate) :
    Staged f (f.stagedUpdates us) (f.directUpdates us) us := by
  induction us using List.reverseRecOn with
  | nil => exact staged_nil f
  | append_singleton us u ih =>
    have hstep := ih.step u
    simpa only [stagedUpdates, directUpdates, List.foldl_append, List.foldl_cons, List.foldl_nil]
      using hstep

/-! ## The end of the transaction -/

/-- The updates since the last replacement are determined. -/
theorem last_replacement_unique {before before' later later' : List ReplicaUpdate}
    {u u' : ReplicaUpdate} (he : before ++ u :: later = before' ++ u' :: later')
    (hu : u.replace = true) (hu' : u'.replace = true) (hl : ∀ w ∈ later, w.replace = false)
    (hl' : ∀ w ∈ later', w.replace = false) : u = u' ∧ later = later' := by
  rcases List.append_eq_append_iff.mp he with ⟨as, _, hr⟩ | ⟨as, _, hr⟩
  · cases as with
    | nil => simpa using hr
    | cons a as =>
      have hmem : u' ∈ later := by
        rw [(List.cons.inj hr).2]
        simp
      rw [hl u' hmem] at hu'
      exact absurd hu' (by decide)
  · cases as with
    | nil => simpa [eq_comm] using hr
    | cons a as =>
      have hmem : u ∈ later' := by
        rw [(List.cons.inj hr).2]
        simp
      rw [hl' u hmem] at hu
      exact absurd hu (by decide)

theorem not_revives (hus : ∀ u ∈ us, u.replace = false) : ¬ Revives us := by
  rintro ⟨before, u, later, p, rfl, hu, _⟩
  rw [hus u (by simp)] at hu
  exact absurd hu (by decide)

/-- Where the last replacement is known, only the page is left to find. -/
theorem revives_iff {before later : List ReplicaUpdate} (hu : u.replace = true)
    (hl : ∀ w ∈ later, w.replace = false) :
    Revives (before ++ u :: later) ↔ ∃ p, u.commit < p ∧ p ≤ lastCommit u.commit later ∧
      u.index[p]? ≠ none ∧ lastEntry later p = none := by
  constructor
  · rintro ⟨before', u', later', p, he, hu', hl', hp⟩
    obtain ⟨rfl, rfl⟩ := last_replacement_unique he hu hu' hl hl'
    exact ⟨p, hp⟩
  · rintro ⟨p, hp⟩
    exact ⟨before, u, later, p, rfl, hu, hl, hp⟩

/-- An untrimmed entry and a trimmed one, below the same later entries. -/
theorem or_filter_eq_iff {α : Type} (later e : Option α) (keep : Bool) :
    later.or e = later.or (e.filter fun _ => keep) ↔
      ¬ (keep = false ∧ e ≠ none ∧ later = none) := by
  cases later <;> cases e <;> cases keep <;> simp [Option.filter]

theorem doUnlock_none (hp : g.pending = none) :
    g.doUnlock .none = .ok { g with lock := .none } := by
  simp [doUnlock, hp]

theorem doUnlock_some (hp : g.pending = some u) : ∃ g', g.doUnlock .none = .ok g' ∧
    SameCursors g' u ∧ g'.index = (g.applyUpdateLocked u).index := by
  refine ⟨{ applyUpdateLocked { g with lock := .none } u with pending := none }, ?_,
    ⟨rfl, rfl, rfl⟩, rfl⟩
  cases g
  cases hp
  rfl

theorem SameCursors.view {g' : ReplicaFile C} (hg : SameCursors g' u) (hh : SameCursors h u)
    (hix : ∀ p, 1 ≤ p → p ≤ u.commit → g'.index[p]? = h.index[p]?) : SameView g' h where
  commit := hg.commit.trans hh.commit.symm
  pos := hg.pos.trans hh.pos.symm
  maxTXID1 := hg.maxTXID1.trans hh.maxTXID1.symm
  index p hp hpc := hix p hp (hh.commit ▸ hpc)

theorem Staged.unlock (st : Staged f g h us) :
    ∃ g', g.doUnlock .none = .ok g' ∧ (SameView g' h ↔ ¬ Revives us) := by
  cases st.merged with
  | nothing hp hus hc hpos hm hix =>
    refine ⟨_, doUnlock_none hp, iff_of_true ?_ (not_revives hus)⟩
    exact ⟨st.commit.trans hc.symm, st.pos.trans hpos.symm, st.maxTXID1.trans hm.symm,
      fun p _ _ => by rw [hix, ← st.index]⟩
  | increment u hp hu hus hcur hix =>
    obtain ⟨g', hg', hcur', hix'⟩ := doUnlock_some hp
    refine ⟨g', hg', iff_of_true (hcur'.view hcur fun p _ _ => ?_) (not_revives hus)⟩
    rw [hix', hix, getElem?_applyUpdateLocked, hu, st.index]
    rfl
  | replacement u w before later hp hu hsplit hw hlater hcur hcommit hix hhix =>
    obtain ⟨g', hg', hcur', hix'⟩ := doUnlock_some hp
    refine ⟨g', hg', ?_⟩
    have hpage : ∀ p, p ≤ u.commit → (g'.index[p]? = h.index[p]? ↔
        ¬ (w.commit < p ∧ w.index[p]? ≠ none ∧ lastEntry later p = none)) := by
      intro p hpc
      have hkeep : u.index[p]?.filter (fun _ => decide (p ≤ u.commit)) = u.index[p]? := by
        rw [decide_eq_true hpc]
        cases u.index[p]? <;> rfl
      rw [hix', getElem?_applyUpdateLocked, if_pos hu, hkeep, hhix, hix, or_filter_eq_iff]
      simp
    rw [hsplit, revives_iff hw hlater, ← hcommit]
    constructor
    · rintro hsame ⟨p, hp, hpc, hrest⟩
      have hle : p ≤ h.commit := by rw [hcur.commit]; exact hpc
      exact (hpage p hpc).mp (hsame.index p (by omega) hle) ⟨hp, hrest⟩
    · intro hnone
      refine hcur'.view hcur fun p _ hpc => (hpage p hpc).mpr fun hp => ?_
      exact hnone ⟨p, hp.1, hpc, hp.2⟩

/-- The pages that a staged sequence of updates shows at the end of the transaction are those that
the same updates show one by one, if and only if no page is revived. -/
theorem staged_eq_direct_iff (f : ReplicaFile C) (us : List ReplicaUpdate) :
    ∃ g, (f.stagedUpdates us).doUnlock .none = .ok g ∧
      (SameView g (f.directUpdates us) ↔ ¬ Revives us) :=
  (staged_updates f us).unlock

/-! A restart of the replica with three pages whose index still names page 5, then growth to five
pages without a copy of page 5. -/

def emptyFile : ReplicaFile (.unbounded ..) where
  pageSize := 512
  commit := 0
  index := ∅
  pos := {}
  maxTXID1 := 0
  pollPos := {}
  pollMaxTXID1 := 0
  pollCommit := 0
  cache := (Lib.Lru.unbounded ..).new 1

def shrunk : ReplicaUpdate where
  index := (∅ : PageIndex).insert 5
    { level := 0, minTXID := 1, maxTXID := 1, offset := 0, size := 0 }
  replace := true
  commit := 3
  pos := { txid := 1 }
  maxTXID1 := 0

def grown : ReplicaUpdate where
  index := ∅
  replace := false
  commit := 5
  pos := { txid := 2 }
  maxTXID1 := 0

theorem grown_revives : ∃ g, (emptyFile.stagedUpdates [shrunk, grown]).doUnlock .none = .ok g ∧
    ¬ SameView g (emptyFile.directUpdates [shrunk, grown]) := by
  obtain ⟨g, hg, hiff⟩ := (staged_updates emptyFile [shrunk, grown]).unlock
  refine ⟨g, hg, fun hsame => hiff.mp hsame ⟨[], shrunk, [grown], 5, rfl, rfl, ?_⟩⟩
  simp [grown, shrunk, lastCommit, lastEntry]

end Litestream
