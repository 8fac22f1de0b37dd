import Mytools.Lib.History
import Mytools.Litestream.Poller

/-!
# Replicas of a transaction history

An `Archive` is a transaction history with the places at which its LTX files store their pages: a
file of the transactions `[min, max]` is determined by its range, so an L1 file is the exact
compaction of the L0 files of its range. `Serves c A files`: the client `c` shows the `files` of
the archive. Its calls may fail, but what they return is true: a listing's files in order, a
file's own index and header, and a contiguous restore plan.
-/

namespace Litestream

open Lib

structure Archive (α : Type) where
  hist : History α
  wf : hist.WellFormed
  pageSize : Nat
  /-- The offset and the size of a page's copy in a file. -/
  place : FileInfo → Nat → Nat × Nat

namespace Archive

variable {α : Type} (A : Archive α)

/-- The content that a file of the range of `info` holds for `p`: the last one written in it. -/
def stored (info : FileInfo) (p : Nat) : Option α := A.hist.latest (info.minTXID - 1) info.maxTXID p

/-- `p` has a copy in the file. -/
def Has (info : FileInfo) (p : Nat) : Prop :=
  p ≤ A.hist.size info.maxTXID ∧ (A.stored info p).isSome

instance (info : FileInfo) (p : Nat) : Decidable (A.Has info p) :=
  inferInstanceAs (Decidable (_ ∧ _))

def entry (info : FileInfo) (p : Nat) : PageIndexElem where
  level := info.level
  minTXID := info.minTXID
  maxTXID := info.maxTXID
  offset := (A.place info p).1
  size := (A.place info p).2

/-- The file's page index. -/
def pageIndex (info : FileInfo) : PageIndex :=
  .ofList (((List.range (A.hist.size info.maxTXID + 1)).filter (A.Has info)).map
    fun p => (p, A.entry info p))

/-- The file's header. -/
def header (info : FileInfo) : Header :=
  ⟨A.pageSize, A.hist.size info.maxTXID, info.minTXID, info.maxTXID⟩

/-- The content of the copy that an index entry designates. -/
def copy (e : PageIndexElem) (p : Nat) : Option α := A.hist.latest (e.minTXID - 1) e.maxTXID p

/-- `e` is the entry of `p` in the index of one of the files. -/
def Designates (files : List FileInfo) (p : Nat) (e : PageIndexElem) : Prop :=
  ∃ info ∈ files, A.Has info p ∧ e = A.entry info p

variable {A}

@[simp] theorem copy_entry (info : FileInfo) (p : Nat) :
    A.copy (A.entry info p) p = A.stored info p := rfl

theorem getElem?_pageIndex (info : FileInfo) (p : Nat) :
    (A.pageIndex info)[p]? = if A.Has info p then some (A.entry info p) else none := by
  unfold pageIndex
  split
  · rename_i h
    refine Std.ExtTreeMap.getElem?_ofList_of_mem (k := p) (by simp) ?_ ?_
    · rw [List.pairwise_map]
      exact (List.nodup_range.filter _).imp fun h => by simpa [compare_eq_iff_eq] using h
    · refine List.mem_map.2 ⟨p, ?_, rfl⟩
      rw [List.mem_filter]
      exact ⟨List.mem_range.2 (Nat.lt_succ_of_le h.1), by simpa using h⟩
  · rename_i h
    apply Std.ExtTreeMap.getElem?_ofList_of_contains_eq_false
    simpa using fun _ => h

end Archive

/-- `min` starts right after `prev` and the file is not empty. -/
def FileInfo.Follows (info : FileInfo) (prev : Nat) : Prop :=
  info.minTXID = prev + 1 ∧ info.minTXID ≤ info.maxTXID

theorem FileInfo.Follows.lt {info : FileInfo} {prev : Nat} (h : info.Follows prev) :
    prev < info.minTXID := by
  rw [h.1]
  exact Nat.lt_succ_self prev

/-- A restore plan that covers every transaction from 1 on, each file extending the last. -/
def PlanFrom : Nat → List FileInfo → Prop
  | _, [] => True
  | prev, info :: infos =>
    1 ≤ info.minTXID ∧ info.minTXID ≤ prev + 1 ∧ prev < info.maxTXID ∧ PlanFrom info.maxTXID infos

/-- The files of a level that a listing from `seek` shows. -/
def listed (files : List FileInfo) (level : Nat) (seek : Nat) : List FileInfo :=
  files.filter fun info => info.level = level ∧ seek ≤ info.minTXID

/-- The client shows the archive's `files`. -/
structure Serves {α : Type} (c : ReplicaClient) (A : Archive α) (files : List FileInfo) : Prop where
  range : ∀ info ∈ files, 1 ≤ info.minTXID ∧ info.minTXID ≤ info.maxTXID
  listing : ∀ level seek itr, c.ltxFiles level seek = .ok itr →
    itr.items <+: listed files level seek ∧ (itr.err = none → itr.items = listed files level seek)
  index : ∀ info idx, c.fetchPageIndex info = .ok idx → idx = A.pageIndex info
  header : ∀ info hdr, c.fetchLTXHeader info = .ok hdr → hdr = A.header info
  plan : ∀ infos, c.calcRestorePlan = .ok infos → PlanFrom 0 infos ∧ infos ⊆ files

/-- The client whose calls all succeed. -/
def Archive.client {α : Type} (A : Archive α) (files plan : List FileInfo) : ReplicaClient where
  ltxFiles level seek := .ok { items := listed files level seek }
  calcRestorePlan := .ok plan
  fetchPageIndex info := .ok (A.pageIndex info)
  fetchLTXHeader info := .ok (A.header info)

theorem Archive.serves_client {α : Type} {A : Archive α} {files plan : List FileInfo}
    (hr : ∀ info ∈ files, 1 ≤ info.minTXID ∧ info.minTXID ≤ info.maxTXID)
    (hp : PlanFrom 0 plan) (hs : plan ⊆ files) : Serves (A.client files plan) A files where
  range := hr
  listing := by
    rintro level seek itr ⟨⟩
    exact ⟨List.prefix_rfl, fun _ => rfl⟩
  index := by rintro info idx ⟨⟩; rfl
  header := by rintro info hdr ⟨⟩; rfl
  plan := by rintro infos ⟨⟩; exact ⟨hp, hs⟩

end Litestream
