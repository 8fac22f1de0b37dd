import Mytools.Lib.Run
import Mytools.Litestream.Session

/-!
# Snapshot isolation of read transactions

The visible state of a file changes only under a new generation (`step_visible`), and not at all
while a lock is held (`step_pinned`). The invariant `Inv` ties the cache and every read in flight
to the generation that the read started in: as long as that is the visible one, the copies it holds
are those of the visible index. Bytes that a check lets through come therefore from the state that
was pinned when the lock was taken (`snapshot_isolation`).
-/

namespace Litestream

open Lib

variable {C : PageCache} {store : PageIndexElem → Nat × List UInt8}

/-! ## The visible state -/

/-- What readers see of a file. -/
structure VisibleState where
  pageSize : Nat
  commit : Nat
  index : PageIndex
  pos : Pos
  maxTXID1 : Nat
  generation : Nat

def ReplicaFile.visible (f : ReplicaFile C) : VisibleState :=
  ⟨f.pageSize, f.commit, f.index, f.pos, f.maxTXID1, f.visibleGeneration⟩

/-- Byte `i` of the database in a visible state. -/
def VisibleState.byteAt (store : PageIndexElem → Nat × List UInt8) (v : VisibleState) (i : Nat) :
    Option UInt8 :=
  v.index[i / v.pageSize + 1]?.bind fun e => (store e).2[i % v.pageSize]?

/-- Byte `j` of a read from `start` is one of the header bytes that `ReadAt` overwrites: the two
file format versions become 1, the change counter is random. -/
def Overwritten (start j : Nat) (x : Option UInt8) : Prop :=
  start = 0 ∧ (j ∈ [18, 19] ∧ x = some 1 ∨ j ∈ [24, 25, 26, 27])

/-- The bytes read from `start` on are those of the state. -/
def VisibleState.Gives (store : PageIndexElem → Nat × List UInt8) (v : VisibleState) (start : Nat)
    (data : List UInt8) : Prop :=
  ∀ j < data.length, data[j]? = v.byteAt store (start + j) ∨ Overwritten start j data[j]?

/-- The state an update makes of a visible state. -/
def VisibleState.update (v : VisibleState) (u : ReplicaUpdate) : VisibleState where
  pageSize := v.pageSize
  commit := u.commit
  index := if u.replace then u.index.filter fun pgno _ => pgno ≤ u.commit else v.index ∪ u.index
  pos := u.pos
  maxTXID1 := u.maxTXID1
  generation := v.generation + 1

/-- A staged update is installed at once, held back by the lock, or is none. -/
theorem finishPoll_cases (f : ReplicaFile C) (u : ReplicaUpdate) (now : Int) :
    let g := f.finishPoll u now
    g.lock = f.lock ∧
      ((g.visible = f.visible ∧ g.cache = f.cache ∧
          (g.pending = f.pending ∨ .shared ≤ f.lock)) ∨
        (¬ LockLevel.shared ≤ f.lock ∧ g.visible = f.visible.update u ∧
          g.cache = (f.applyUpdateLocked u).cache ∧ g.pending = f.pending)) := by
  unfold ReplicaFile.finishPoll ReplicaFile.stageUpdateLocked
  split
  · exact ⟨rfl, .inl ⟨rfl, rfl, .inl rfl⟩⟩
  · split
    · rename_i hl
      refine ⟨?_, .inl ⟨?_, ?_, .inr hl⟩⟩ <;>
        · unfold ReplicaFile.mergePendingLocked
          split
          · rfl
          · split <;> rfl
    · rename_i hl
      exact ⟨rfl, .inr ⟨hl, rfl, rfl, rfl⟩⟩

/-! ## Bytes of a read -/

/-- `d` is the copy of `p` that the state's index designates. -/
def VisibleState.Copy (store : PageIndexElem → Nat × List UInt8) (v : VisibleState) (p : Nat)
    (d : List UInt8) : Prop :=
  ∃ e, v.index[p]? = some e ∧ store e = (p, d) ∧ d.length = v.pageSize

/-- What a read knows of the state that it started in. -/
structure CallOk (store : PageIndexElem → Nat × List UInt8) (v : VisibleState) (c : ReadCall) :
    Prop where
  pageSize : c.pageSize = v.pageSize
  size : c.size = v.commit * v.pageSize
  data : v.Gives store c.start c.data

theorem Copy.byteAt {v : VisibleState} {off i : Nat} {d : List UInt8}
    (h : v.Copy store (off / v.pageSize + 1) d) (hi : off % v.pageSize + i < d.length) :
    v.byteAt store (off + i) = d[off % v.pageSize + i]? := by
  obtain ⟨e, he, hs, hl⟩ := h
  rw [hl] at hi
  obtain ⟨hdiv, hmod⟩ := (Nat.div_mod_unique (a := off + i) (d := off / v.pageSize)
    (c := off % v.pageSize + i) (b := v.pageSize) (by omega)).2
    ⟨by have := Nat.mod_add_div off v.pageSize; omega, hi⟩
  rw [VisibleState.byteAt, hdiv, hmod, he, Option.bind_some, hs]

/-- Appending a part of the next page's copy. -/
theorem Gives.append {v : VisibleState} {start : Nat} {data d chunk : List UInt8}
    (h : v.Gives store start data)
    (hd : v.Copy store ((start + data.length) / v.pageSize + 1) d)
    (hlen : chunk.length ≤ d.length - (start + data.length) % v.pageSize)
    (hc : ∀ i < chunk.length, chunk[i]? = d[(start + data.length) % v.pageSize + i]? ∨
      Overwritten start (data.length + i) chunk[i]?) :
    v.Gives store start (data ++ chunk) := by
  intro j hj
  by_cases hlt : j < data.length
  · rw [List.getElem?_append_left hlt]
    exact h j hlt
  · obtain ⟨i, rfl⟩ := Nat.exists_eq_add_of_le (Nat.not_lt.1 hlt)
    rw [List.length_append] at hj
    rw [List.getElem?_append_right (by omega), Nat.add_sub_cancel_left, ← Nat.add_assoc,
      Copy.byteAt hd (by omega)]
    exact hc i (by omega)

theorem getElem?_pretendRollbackJournal {chunk : List UInt8} {r : UInt8 × UInt8 × UInt8 × UInt8}
    (hlen : 28 ≤ chunk.length) (i : Nat) :
    (pretendRollbackJournal chunk r)[i]? = chunk[i]? ∨
      Overwritten 0 i (pretendRollbackJournal chunk r)[i]? := by
  by_cases hi : i ∈ [18, 19, 24, 25, 26, 27]
  · right
    simp only [List.mem_cons, List.not_mem_nil, or_false] at hi
    simp only [Overwritten, pretendRollbackJournal]
    rcases hi with rfl | rfl | rfl | rfl | rfl | rfl
    · simp [show 18 < chunk.length by omega]
    · simp [show 19 < chunk.length by omega]
    all_goals simp
  · left
    simp only [List.mem_cons, List.not_mem_nil, or_false, not_or] at hi
    obtain ⟨h1, h2, h3, h4, h5, h6⟩ := hi
    simp only [pretendRollbackJournal]
    rw [List.getElem?_set_ne (Ne.symm h6), List.getElem?_set_ne (Ne.symm h5),
      List.getElem?_set_ne (Ne.symm h4), List.getElem?_set_ne (Ne.symm h3),
      List.getElem?_set_ne (Ne.symm h2), List.getElem?_set_ne (Ne.symm h1)]

/-- What a read has copied after a page, or what it returned. -/
inductive Copied (c : ReadCall) (P : List UInt8 → Prop) : ReadPhase → Prop
  | loop {data : List UInt8} : P data → Copied c P (.loop { c with data })
  | done {data : List UInt8} {err : Option ReadError} :
      (err = none ∨ err = some .eof) → P data → Copied c P (.done c.start data err)

/-- The copy of a page gives bytes of the state, or fails for want of random bytes. -/
theorem CallOk.copyPage {v : VisibleState} {c : ReadCall} {d : List UInt8}
    (h : CallOk store v c) (hd : v.Copy store c.pgno d)
    (rand : Option (UInt8 × UInt8 × UInt8 × UInt8)) :
    Copied c (v.Gives store c.start) (c.copyPage d rand) ∨
      c.copyPage d rand = .done c.start [] (some .changeCounter) := by
  have hcopy : v.Copy store ((c.start + c.data.length) / v.pageSize + 1) d := by
    rw [← h.pageSize]; exact hd
  have hchunk : ∀ i < ((d.drop c.pageOff).take (c.len - c.total)).length,
      ((d.drop c.pageOff).take (c.len - c.total))[i]? =
        d[(c.start + c.data.length) % v.pageSize + i]? := by
    intro i hi
    rw [List.length_take] at hi
    rw [List.getElem?_take_of_lt (by omega), List.getElem?_drop, ReadCall.pageOff, h.pageSize]
    rfl
  have hlen : ((d.drop c.pageOff).take (c.len - c.total)).length ≤
      d.length - (c.start + c.data.length) % v.pageSize := by
    rw [List.length_take, List.length_drop, ReadCall.pageOff, h.pageSize]
    exact Nat.min_le_right _ _
  -- the phases after the copy, for whichever chunk is appended
  have hnext : ∀ chunk, v.Gives store c.start (c.data ++ chunk) →
      Copied c (v.Gives store c.start)
        (let c := { c with data := c.data ++ chunk }
          if c.total < c.len ∧ c.off < c.size then .loop c
          else if c.total < c.len then c.fail .eof
          else .done c.start c.data none) := by
    intro chunk hg
    simp only
    split
    · exact .loop hg
    · split
      · exact .done (.inr rfl) hg
      · exact .done (.inl rfl) hg
  unfold ReadCall.copyPage
  simp only
  split
  · rename_i hhead
    obtain ⟨hoff, htot, h28⟩ := hhead
    cases rand with
    | none => exact .inr rfl
    | some r =>
      -- the header page: only the rewritten bytes differ from the copy
      have hnil : c.data = [] := List.length_eq_zero_iff.1 htot
      have hstart : c.start = 0 := by simp only [ReadCall.off] at hoff; omega
      refine .inl (hnext _ (Gives.append h.data hcopy ?_ ?_))
      · simpa [pretendRollbackJournal] using hlen
      · intro i hi
        rw [← hchunk i (by simpa [pretendRollbackJournal] using hi), hnil, List.length_nil,
          Nat.zero_add, hstart]
        exact getElem?_pretendRollbackJournal h28 i
  · exact .inl (hnext _ (Gives.append h.data hcopy hlen fun i hi => .inl (hchunk i hi)))

/-! ## The invariant -/

/-- A fact about a read that is needed only while its generation is the visible one. -/
def Pinned (v : VisibleState) (c : ReadCall) (P : Prop) : Prop :=
  c.generation ≤ v.generation ∧ (c.generation = v.generation → P)

/-- A read in flight holds entries and copies of the state that it started in. -/
def ReadOk (store : PageIndexElem → Nat × List UInt8) (v : VisibleState) : ReadPhase → Prop
  | .loop c => Pinned v c (CallOk store v c)
  | .missed c e => Pinned v c (CallOk store v c ∧ v.index[c.pgno]? = some e)
  | .fetched c e d => Pinned v c (CallOk store v c ∧ v.index[c.pgno]? = some e) ∧
      store e = (c.pgno, d) ∧ d.length = c.pageSize
  | .page c d => Pinned v c (CallOk store v c ∧ v.Copy store c.pgno d)
  | .done .. => True

/-- The cache holds copies of the visible state, an update waits only for a lock, and the reads are
in order. -/
structure Inv (store : PageIndexElem → Nat × List UInt8) (s : Session C) : Prop where
  cache : C.All s.file.cache (s.file.visible.Copy store)
  pending : s.file.pending ≠ none → .shared ≤ s.file.lock
  reads : ∀ id ph, s.reads id = some ph → ReadOk store s.file.visible ph

theorem Pinned.next {v v' : VisibleState} {c : ReadCall} {P Q : Prop} (h : Pinned v c P)
    (hlt : v.generation < v'.generation) : Pinned v' c Q := by
  have := h.1
  exact ⟨by omega, fun he => by omega⟩

/-- Under a new generation nothing is left to know of a read. -/
theorem ReadOk.next {v v' : VisibleState} {ph : ReadPhase} (h : ReadOk store v ph)
    (hlt : v.generation < v'.generation) : ReadOk store v' ph := by
  cases ph with
  | loop c => exact Pinned.next h hlt
  | missed c e => exact Pinned.next h hlt
  | fetched c e d => exact ⟨Pinned.next h.1 hlt, h.2⟩
  | page c d => exact Pinned.next h hlt
  | done => trivial

theorem ReadOk.update {v : VisibleState} {ph : ReadPhase} (h : ReadOk store v ph)
    (u : ReplicaUpdate) : ReadOk store (v.update u) ph :=
  h.next (Nat.lt_succ_self _)

/-- An update drops from the cache every page that it moves. -/
theorem cache_applyUpdateLocked {f : ReplicaFile C} (u : ReplicaUpdate)
    (h : C.All f.cache (f.visible.Copy store)) :
    C.All (f.applyUpdateLocked u).cache ((f.visible.update u).Copy store) := by
  intro p d hm
  simp only [ReplicaFile.applyUpdateLocked] at hm
  cases hr : u.replace with
  | true =>
    rw [hr, if_pos rfl] at hm
    exact absurd hm (C.holds_purge _ _ _)
  | false =>
    simp only [hr, Bool.false_eq_true, if_false] at hm
    obtain ⟨hm, hkeys⟩ := Lru.holds_foldl_remove hm
    obtain ⟨e, he, hs, hl⟩ := h p d hm
    refine ⟨e, ?_, hs, hl⟩
    have hnone : u.index[p]? = none := by
      simpa [Std.ExtTreeMap.mem_keys] using hkeys
    simpa [VisibleState.update, hr, Std.ExtTreeMap.getElem?_union, hnone] using he

/-! ## Reads -/

theorem readOk_readAt (f : ReplicaFile C) (len off : Nat) :
    ReadOk store f.visible (f.readAt len off) := by
  unfold ReplicaFile.readAt
  split
  · trivial
  · split
    · trivial
    · exact ⟨Nat.le_refl _, fun _ => ⟨rfl, rfl, fun j hj => absurd hj (Nat.not_lt_zero _)⟩⟩

/-- A section of `page` keeps the visible state, the lock and what is pending. -/
def Kept (f g : ReplicaFile C) : Prop :=
  g.visible = f.visible ∧ g.lock = f.lock ∧ g.pending = f.pending

theorem lookupPage_kept (f : ReplicaFile C) (c : ReadCall) : Kept f (f.lookupPage c).1 := by
  unfold ReplicaFile.lookupPage
  repeat' split
  all_goals exact ⟨rfl, rfl, rfl⟩

theorem insertPage_kept (f : ReplicaFile C) (c : ReadCall) (e : PageIndexElem) (d : List UInt8) :
    Kept f (f.insertPage c e d).1 := by
  unfold ReplicaFile.insertPage
  repeat' split
  all_goals exact ⟨rfl, rfl, rfl⟩

theorem lookupPage_ok {f : ReplicaFile C} {c : ReadCall} (hc : C.All f.cache (f.visible.Copy store))
    (h : ReadOk store f.visible (.loop c)) :
    C.All (f.lookupPage c).1.cache (f.visible.Copy store) ∧
      ReadOk store f.visible (f.lookupPage c).2 := by
  unfold ReplicaFile.lookupPage
  split
  · exact ⟨hc, trivial⟩
  · split
    · rename_i data cache hg
      have hfst : (C.get f.cache c.pgno).1 = some data := by rw [hg]
      have hsnd : (C.get f.cache c.pgno).2 = cache := by rw [hg]
      exact ⟨hsnd ▸ hc.get _, h.1, fun he => ⟨h.2 he, hc.get_hit hfst⟩⟩
    · split
      · exact ⟨hc, trivial⟩
      · rename_i e he
        exact ⟨hc, h.1, fun hg => ⟨h.2 hg, he⟩⟩

theorem fetchPageLoop_ok {env : FetchAttempts} {pageSize pgno : Nat} {x : Nat × List UInt8}
    (htrue : ∀ i y, env.fetchPage i = .ok y → y = x) :
    ∀ {left : Nat} {lastErr : Option PageFault} {d : List UInt8},
      fetchPageLoop env pageSize pgno left lastErr = .ok d → x = (pgno, d) ∧ d.length = pageSize
  | 0, _, _, h => by cases h
  | left + 1, _, d, h => by
    unfold fetchPageLoop at h
    simp only at h
    split at h
    · cases h
    · split at h
      · split at h
        · exact fetchPageLoop_ok htrue h
        · cases h
      · rename_i got data hf
        split at h
        · cases h
        · split at h
          · cases h
          · cases h
            rename_i hgot hlen
            exact ⟨by rw [← htrue _ _ hf, Decidable.not_not.1 hgot], Decidable.not_not.1 hlen⟩

theorem fetchPage_ok {v : VisibleState} {env : FetchAttempts} {c : ReadCall} {e : PageIndexElem}
    (htrue : ∀ i y, env.fetchPage i = .ok y → y = store e) (h : ReadOk store v (.missed c e)) :
    ReadOk store v (ReplicaFile.fetchPage env c e) := by
  unfold ReplicaFile.fetchPage
  split
  · trivial
  · rename_i d hd
    exact ⟨h, fetchPageLoop_ok htrue hd⟩

theorem insertPage_ok {f : ReplicaFile C} {c : ReadCall} {e : PageIndexElem} {d : List UInt8}
    (hc : C.All f.cache (f.visible.Copy store)) (h : ReadOk store f.visible (.fetched c e d)) :
    C.All (f.insertPage c e d).1.cache (f.visible.Copy store) ∧
      ReadOk store f.visible (f.insertPage c e d).2 := by
  unfold ReplicaFile.insertPage
  split
  · exact ⟨hc, trivial⟩
  · split
    · exact ⟨hc, trivial⟩
    · -- the generation is still the visible one, so the fetched copy is the index's
      rename_i hgen hidx
      obtain ⟨⟨hle, hpin⟩, hs, hl⟩ := h
      obtain ⟨hcall, he⟩ := hpin (Decidable.not_not.1 hgen)
      have hcopy : f.visible.Copy store c.pgno d := ⟨e, he, hs, hl.trans hcall.pageSize⟩
      split
      · rename_i cached cache hg
        have hfst : (C.get f.cache c.pgno).1 = some cached := by rw [hg]
        have hsnd : (C.get f.cache c.pgno).2 = cache := by rw [hg]
        exact ⟨hsnd ▸ hc.get _, hle, fun _ => ⟨hcall, hc.get_hit hfst⟩⟩
      · exact ⟨hc.add hcopy, hle, fun _ => ⟨hcall, hcopy⟩⟩

/-- A check lets only bytes of the visible state through. -/
theorem checkPage_copied {f : ReplicaFile C} {c : ReadCall} {d : List UInt8}
    (h : ReadOk store f.visible (.page c d)) (rand : Option (UInt8 × UInt8 × UInt8 × UInt8)) :
    (f.visibleGeneration = c.generation ∧
        Copied c (f.visible.Gives store c.start) (f.checkPage c d rand)) ∨
      f.checkPage c d rand = c.fail .snapshotChangedDuringRead ∨
      f.checkPage c d rand = .done c.start [] (some .changeCounter) := by
  unfold ReplicaFile.checkPage
  split
  · exact .inr (.inl rfl)
  · rename_i hgen
    have hgen := Decidable.not_not.1 hgen
    obtain ⟨hcall, hcopy⟩ := h.2 hgen.symm
    rcases hcall.copyPage hcopy rand with hc | hc
    · exact .inl ⟨hgen, hc⟩
    · exact .inr (.inr hc)

theorem checkPage_ok {f : ReplicaFile C} {c : ReadCall} {d : List UInt8}
    (h : ReadOk store f.visible (.page c d)) (rand : Option (UInt8 × UInt8 × UInt8 × UInt8)) :
    ReadOk store f.visible (f.checkPage c d rand) := by
  rcases checkPage_copied h rand with ⟨hgen, hc⟩ | hc | hc
  · obtain ⟨hcall, -⟩ := h.2 hgen.symm
    generalize f.checkPage c d rand = ph at hc ⊢
    cases hc with
    | loop hg => exact ⟨h.1, fun _ => ⟨hcall.pageSize, hcall.size, hg⟩⟩
    | done => trivial
  · rw [hc]; trivial
  · rw [hc]; trivial

/-! ## Steps -/

theorem inv_setRead {s : Session C} (h : Inv store s) {id : Nat} {ph : Option ReadPhase}
    (hph : ∀ x, ph = some x → ReadOk store s.file.visible x) : Inv store (s.setRead id ph) := by
  refine ⟨h.cache, h.pending, fun i x hx => ?_⟩
  simp only [Session.setRead] at hx
  split at hx
  · exact hph x hx
  · exact h.reads i x hx

theorem inv_setFileRead {s : Session C} (h : Inv store s) {id : Nat} {x : ReplicaFile C × ReadPhase}
    (hk : Kept s.file x.1) (hc : C.All x.1.cache (s.file.visible.Copy store))
    (hr : ReadOk store s.file.visible x.2) : Inv store (s.setFileRead id x) := by
  obtain ⟨hv, hl, hp⟩ := hk
  have hset : Inv store (s.setRead id (some x.2)) := inv_setRead h fun _ he => by cases he; exact hr
  refine ⟨by simpa [Session.setFileRead, hv] using hc, ?_, fun i y hy => ?_⟩
  · simpa [Session.setFileRead, hl, hp] using h.pending
  · simp only [Session.setFileRead, hv]
    exact hset.reads i y hy

theorem inv_finishPoll {s : Session C} (h : Inv store s) (u : ReplicaUpdate) (now : Int)
    (k : Option Cursors) :
    Inv store { s with file := s.file.finishPoll u now, polling := k } := by
  obtain ⟨hl, ⟨hv, hc, hp⟩ | ⟨hn, hv, hc, hp⟩⟩ := finishPoll_cases s.file u now
  · refine ⟨by simpa [hv, hc] using h.cache, ?_, by simpa [hv] using h.reads⟩
    intro hne
    simp only [hl]
    exact hp.elim (fun hp => h.pending (hp ▸ hne)) id
  · refine ⟨?_, ?_, ?_⟩
    · simp only [hv, hc]
      exact cache_applyUpdateLocked u h.cache
    · simpa [hl, hp] using h.pending
    · intro id ph hph
      simp only [hv]
      exact (h.reads id ph hph).update u

/-- An `Unlock` to `SHARED` only sets the level; one to `NONE` also installs what is pending. -/
theorem doUnlock_cases {f g : ReplicaFile C} {l : LockLevel} (h : f.doUnlock l = .ok g) :
    (l = .shared ∧ g = { f with lock := .shared }) ∨
      (l = .none ∧ f.pending = none ∧ g = { f with lock := .none }) ∨
      (l = .none ∧ ∃ u, f.pending = some u ∧
        g = { ReplicaFile.applyUpdateLocked { f with lock := .none } u with pending := none }) := by
  unfold ReplicaFile.doUnlock at h
  cases l with
  | none =>
    cases hp : f.pending with
    | none =>
      simp only [hp] at h
      cases h
      exact .inr (.inl ⟨rfl, rfl, by rw [← hp]⟩)
    | some u =>
      simp only [hp] at h
      cases h
      exact .inr (.inr ⟨rfl, u, rfl, rfl⟩)
  | shared =>
    simp only at h
    cases h
    exact .inl ⟨rfl, rfl⟩
  | _ => simp at h

theorem inv_unlock {s : Session C} (h : Inv store s) {l : LockLevel} {f : ReplicaFile C}
    (hf : s.file.doUnlock l = .ok f) : Inv store { s with file := f } := by
  obtain ⟨-, rfl⟩ | ⟨-, hp, rfl⟩ | ⟨-, u, hp, rfl⟩ := doUnlock_cases hf
  · exact ⟨h.cache, fun _ => Nat.le_refl _, h.reads⟩
  · exact ⟨h.cache, fun hne => absurd hp hne, h.reads⟩
  · refine ⟨cache_applyUpdateLocked u h.cache, by simp, fun id ph hph => ?_⟩
    exact (h.reads id ph hph).update u

theorem doLock_ok {f g : ReplicaFile C} {l : LockLevel} (h : f.doLock l = .ok g) :
    f.lock ≤ l ∧ g = { f with lock := l } := by
  unfold ReplicaFile.doLock at h
  split at h
  · cases h
  · rename_i hlt
    split at h
    · cases h
    · cases h
      exact ⟨Nat.not_lt.1 hlt, rfl⟩

theorem inv_lock {s : Session C} (h : Inv store s) {l : LockLevel} {f : ReplicaFile C}
    (hf : s.file.doLock l = .ok f) : Inv store { s with file := f } := by
  obtain ⟨hle, rfl⟩ := doLock_ok hf
  exact ⟨h.cache, fun hne => Nat.le_trans (h.pending hne) hle, h.reads⟩

/-- Every step keeps the invariant. -/
theorem inv_step {s t : Session C} {e : Event} (h : Inv store s) (hs : s.Step store e t) :
    Inv store t := by
  obtain ⟨htrue, hs⟩ := hs
  cases e with
  | pollBegin =>
    simp only [Session.step] at hs
    split at hs
    · cases hs
    · cases hs
      exact ⟨h.cache, h.pending, h.reads⟩
  | pollEnd c now =>
    simp only [Session.step] at hs
    split at hs
    · cases hs
    · split at hs
      · cases hs
        exact ⟨h.cache, h.pending, h.reads⟩
      · cases hs
        exact inv_finishPoll h _ now none
  | lock l =>
    simp only [Session.step] at hs
    split at hs
    · cases hs; exact h
    · rename_i f hf
      cases hs; exact inv_lock h hf
  | unlock l =>
    simp only [Session.step] at hs
    split at hs
    · cases hs; exact h
    · rename_i f hf
      cases hs; exact inv_unlock h hf
  | size n =>
    simp only [Session.step] at hs
    split at hs
    · cases hs; exact h
    · cases hs
  | readAt id len off =>
    simp only [Session.step] at hs
    split at hs
    · cases hs
    · cases hs
      exact inv_setRead h fun x hx => by cases hx; exact readOk_readAt s.file len off
  | lookup id =>
    simp only [Session.step] at hs
    split at hs
    · rename_i c hr
      cases hs
      obtain ⟨hc, hok⟩ := lookupPage_ok h.cache (h.reads id _ hr)
      exact inv_setFileRead h (lookupPage_kept s.file c) hc hok
    · cases hs
  | fetch id env =>
    simp only [Session.step] at hs
    split at hs
    · rename_i c elem hr
      cases hs
      refine inv_setRead h fun x hx => ?_
      cases hx
      exact fetchPage_ok (fun i y hy => htrue c elem i y hr hy) (h.reads id _ hr)
    · cases hs
  | insert id =>
    simp only [Session.step] at hs
    split at hs
    · rename_i c elem data hr
      cases hs
      obtain ⟨hc, hok⟩ := insertPage_ok h.cache (h.reads id _ hr)
      exact inv_setFileRead h (insertPage_kept s.file c elem data) hc hok
    · cases hs
  | check id rand =>
    simp only [Session.step] at hs
    split at hs
    · rename_i c data hr
      cases hs
      exact inv_setRead h fun x hx => by cases hx; exact checkPage_ok (h.reads id _ hr) rand
    · cases hs
  | finish id =>
    simp only [Session.step] at hs
    split at hs
    · cases hs
      exact inv_setRead h fun x hx => by cases hx
    · cases hs

/-! ## Read transactions -/

/-- Only the end of a poll and the lock calls touch more of the file than its cache. -/
theorem step_file {s t : Session C} {e : Event} (hs : s.step e = some t) :
    Kept s.file t.file ∨ (∃ u now, t.file = s.file.finishPoll u now) ∨
      (∃ l, s.file.doLock l = .ok t.file) ∨
      ∃ l, e = .unlock l ∧ s.file.doUnlock l = .ok t.file := by
  cases e with
  | lookup id =>
    simp only [Session.step] at hs
    split at hs
    · cases hs; exact .inl (lookupPage_kept s.file _)
    · cases hs
  | insert id =>
    simp only [Session.step] at hs
    split at hs
    · cases hs; exact .inl (insertPage_kept s.file _ _ _)
    · cases hs
  | pollEnd c now =>
    simp only [Session.step] at hs
    split at hs
    · cases hs
    · split at hs
      · cases hs; exact .inl ⟨rfl, rfl, rfl⟩
      · cases hs; exact .inr (.inl ⟨_, now, rfl⟩)
  | lock l =>
    simp only [Session.step] at hs
    split at hs
    · cases hs; exact .inl ⟨rfl, rfl, rfl⟩
    · rename_i f hf
      cases hs; exact .inr (.inr (.inl ⟨l, hf⟩))
  | unlock l =>
    simp only [Session.step] at hs
    split at hs
    · cases hs; exact .inl ⟨rfl, rfl, rfl⟩
    · rename_i f hf
      cases hs; exact .inr (.inr (.inr ⟨l, rfl, hf⟩))
  | _ =>
    simp only [Session.step] at hs
    split at hs
    all_goals first
      | (cases hs; exact .inl ⟨rfl, rfl, rfl⟩)
      | cases hs

/-- The visible state stays, or is updated under the next generation. -/
theorem step_visible {s t : Session C} {e : Event} (hs : s.step e = some t) :
    t.file.visible = s.file.visible ∨ ∃ u, t.file.visible = s.file.visible.update u := by
  rcases step_file hs with ⟨hv, -⟩ | ⟨u, now, hf⟩ | ⟨l, hf⟩ | ⟨l, -, hf⟩
  · exact .inl hv
  · rw [hf]
    obtain ⟨-, ⟨hv, -⟩ | ⟨-, hv, -⟩⟩ := finishPoll_cases s.file u now
    · exact .inl hv
    · exact .inr ⟨u, hv⟩
  · obtain ⟨-, hf⟩ := doLock_ok hf
    exact .inl (by rw [hf]; rfl)
  · obtain ⟨-, hg⟩ | ⟨-, -, hg⟩ | ⟨-, u, -, hg⟩ := doUnlock_cases hf
    · exact .inl (by rw [hg]; rfl)
    · exact .inl (by rw [hg]; rfl)
    · exact .inr ⟨u, by rw [hg]; rfl⟩

/-- While a lock is held, no step but `Unlock(LOCK_NONE)` changes the visible state or gives the
lock up. -/
theorem step_pinned {s t : Session C} {e : Event} (hl : .shared ≤ s.file.lock)
    (hs : s.step e = some t) (he : e ≠ .unlock .none) :
    t.file.visible = s.file.visible ∧ .shared ≤ t.file.lock := by
  rcases step_file hs with ⟨hv, hlock, -⟩ | ⟨u, now, hf⟩ | ⟨l, hf⟩ | ⟨l, rfl, hf⟩
  · exact ⟨hv, by rw [hlock]; exact hl⟩
  · obtain ⟨hlock, ⟨hv, -⟩ | ⟨hn, -⟩⟩ := finishPoll_cases s.file u now
    · exact ⟨by rw [hf, hv], by rw [hf, hlock]; exact hl⟩
    · exact absurd hl hn
  · obtain ⟨hle, hf⟩ := doLock_ok hf
    exact ⟨by rw [hf]; rfl, by rw [hf]; exact Nat.le_trans hl hle⟩
  · obtain ⟨rfl, hg⟩ | ⟨rfl, -⟩ | ⟨rfl, -⟩ := doUnlock_cases hf
    · exact ⟨by rw [hg]; rfl, by rw [hg]; exact Nat.le_refl _⟩
    · exact absurd rfl he
    · exact absurd rfl he

/-- A step of a read transaction: any but its end. -/
def Session.StepWithin (store : PageIndexElem → Nat × List UInt8) (s : Session C) (e : Event)
    (t : Session C) : Prop :=
  s.Step store e t ∧ e ≠ .unlock .none

theorem inv_opened {c : ReplicaClient} {cacheSize : Int} {f : ReplicaFile C}
    (ho : openReplicaFile C c cacheSize = .ok f) : Inv store { file := f } := by
  obtain ⟨info, infos, s, n, -, -, -, he⟩ := openReplicaFile_ok ho
  rw [he]
  exact ⟨Lru.all_new n, by simp, by simp⟩

/-- Along every interleaving: an update is pending only under a lock; `Unlock(LOCK_NONE)` makes
exactly the pending update visible and clears it; and from a successful `Lock(LOCK_SHARED)` to the
next `Unlock(LOCK_NONE)` the visible state stays the one at the lock, every `Size` is its size, and
every check that does not fail has let through bytes of it only. -/
theorem snapshot_isolation {c : ReplicaClient} {cacheSize : Int} {f : ReplicaFile C}
    (ho : openReplicaFile C c cacheSize = .ok f) {es : List Event} {s : Session C}
    (hr : Runs (Session.Step store) { file := f } es s) :
    (s.file.pending ≠ none → .shared ≤ s.file.lock) ∧
    (∀ t, s.step (.unlock .none) = some t → t.file.pending = none ∧
      t.file.visible = s.file.pending.elim s.file.visible s.file.visible.update) ∧
    ∀ g es' t, s.file.doLock .shared = .ok g →
      Runs (Session.StepWithin store) { s with file := g } es' t →
      t.file.visible = g.visible ∧
      (∀ n u, t.step (.size n) = some u → n = g.commit * g.pageSize) ∧
      ∀ id rand c d u, t.reads id = some (.page c d) → t.step (.check id rand) = some u →
        ∃ ph, u.reads id = some ph ∧ (Copied c (g.visible.Gives store c.start) ph ∨
          ph = c.fail .snapshotChangedDuringRead ∨
          ph = .done c.start [] (some .changeCounter)) := by
  have hinv : Inv store s := hr.inv (fun _ _ _ => inv_step) (inv_opened ho)
  refine ⟨hinv.pending, ?_, ?_⟩
  · intro t ht
    simp only [Session.step] at ht
    split at ht
    · rename_i e he
      cases hp : s.file.pending <;> simp [ReplicaFile.doUnlock, hp] at he
    · rename_i x hx
      cases ht
      obtain ⟨h, -⟩ | ⟨-, hp, rfl⟩ | ⟨-, u, hp, rfl⟩ := doUnlock_cases hx
      · cases h
      · exact ⟨hp, by rw [hp]; rfl⟩
      · exact ⟨rfl, by rw [hp]; rfl⟩
  · intro g es' t hg hrun
    have hlock : .shared ≤ g.lock := by
      obtain ⟨-, rfl⟩ := doLock_ok hg
      exact Nat.le_refl _
    have hpin : t.file.visible = g.visible ∧ .shared ≤ t.file.lock := by
      refine hrun.inv (I := fun t => t.file.visible = g.visible ∧ .shared ≤ t.file.lock) ?_
        ⟨rfl, hlock⟩
      rintro x e y ⟨hv, hl⟩ ⟨hs, he⟩
      obtain ⟨hv', hl'⟩ := step_pinned hl hs.2 he
      exact ⟨hv'.trans hv, hl'⟩
    have hinvt : Inv store t := hrun.inv (fun _ _ _ hi hs => inv_step hi hs.1) (inv_lock hinv hg)
    refine ⟨hpin.1, ?_, ?_⟩
    · intro n u hu
      simp only [Session.step] at hu
      split at hu
      · rename_i hn
        have hc := congrArg VisibleState.commit hpin.1
        have hps := congrArg VisibleState.pageSize hpin.1
        simp only [ReplicaFile.visible] at hc hps
        rw [hn, ReplicaFile.getSize, hc, hps]
      · cases hu
    · intro id rand c d u hread hu
      simp only [Session.step, hread] at hu
      cases hu
      refine ⟨t.file.checkPage c d rand, by simp [Session.setRead], ?_⟩
      rcases checkPage_copied (hinvt.reads id _ hread) rand with ⟨-, hc⟩ | hc
      · exact .inl (hpin.1 ▸ hc)
      · exact .inr hc

/-- A replica of one transaction that wrote one page. -/
def onePageClient : ReplicaClient where
  ltxFiles _ _ := .ok { items := [] }
  calcRestorePlan := .ok [⟨1, 1, 1, 0⟩]
  fetchPageIndex _ := .ok ((∅ : PageIndex).insert 1 ⟨1, 1, 1, 0, 0⟩)
  fetchLTXHeader _ := .ok ⟨512, 1, 1, 1⟩

theorem snapshot_isolation_onePage :
    ∃ f g, openReplicaFile (.unbounded ..) onePageClient 0 = .ok f ∧ f.doLock .shared = .ok g ∧
      ∀ es t, Runs (Session.StepWithin fun _ => (1, List.replicate 512 0)) { file := g } es t →
        t.file.visible = g.visible := by
  have ho : openReplicaFile (.unbounded ..) onePageClient 0 = .ok _ := rfl
  exact ⟨_, _, ho, rfl, fun es t h => ((snapshot_isolation ho .nil).2.2 _ es t rfl h).1⟩

end Litestream
