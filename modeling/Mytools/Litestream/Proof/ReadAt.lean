import Mytools.Litestream.Proof.Isolation

/-!
# What `ReadAt` returns

A read that returns without an error, or with `io.EOF`, has returned the bytes of the state that was
visible in its first section, and as many of them as there are (`Returned`). Between two sections a
read has copied a part of them (`Reading`, `Progress`). The file may move on meanwhile: a read only
goes on while its generation is the visible one, and a generation has one visible state
(`step_visible`).
-/

namespace Litestream

open Lib

variable {C : PageCache} {store : PageIndexElem → Nat × List UInt8} {v : VisibleState}

/-! ## Bytes -/

/-- The header bytes that `ReadAt` replaces: the two file format versions and the change counter. -/
def headerBytes : List Nat := [18, 19, 24, 25, 26, 27]

/-- The bytes read from `start` on are those of the state, but for the header bytes if the read
begins at the header and covers it. -/
def VisibleState.Shows (store : PageIndexElem → Nat × List UInt8) (v : VisibleState) (start : Nat)
    (data : List UInt8) : Prop :=
  ∀ j < data.length,
    if start = 0 ∧ 28 ≤ data.length ∧ j ∈ headerBytes then j ∈ [18, 19] → data[j]? = some 1
    else data[j]? = v.byteAt store (start + j)

/-- A buffer of length `len` filled from `off` on, and the error returned with it. -/
structure Returned (store : PageIndexElem → Nat × List UInt8) (v : VisibleState) (len off : Nat)
    (data : List UInt8) (err : Option ReadError) : Prop where
  length : data.length = min len (v.commit * v.pageSize - off)
  eof : err = some .eof ↔ data.length < len
  shows : v.Shows store off data

theorem shows_nil (start : Nat) : v.Shows store start [] :=
  fun _ hj => absurd hj (Nat.not_lt_zero _)

/-- Bytes after the header, or too few to cover it, are added as they are. -/
theorem Shows.append {start : Nat} {data chunk : List UInt8} (h : v.Shows store start data)
    (hc : ∀ i < chunk.length, chunk[i]? = v.byteAt store (start + data.length + i))
    (hhead : start = 0 → 28 ≤ data.length ∨ data = [] ∧ chunk.length < 28) :
    v.Shows store start (data ++ chunk) := by
  intro j hj
  by_cases hlt : j < data.length
  · have hj' := h j hlt
    rw [List.getElem?_append_left hlt, List.length_append]
    by_cases hstart : start = 0
    · rcases hhead hstart with h28 | ⟨rfl, -⟩
      · simpa [h28, show 28 ≤ data.length + chunk.length by omega] using hj'
      · exact absurd hlt (Nat.not_lt_zero _)
    · simpa [hstart] using hj'
  · obtain ⟨i, rfl⟩ := Nat.exists_eq_add_of_le (Nat.not_lt.1 hlt)
    rw [List.length_append] at hj
    have hno : ¬ (start = 0 ∧ 28 ≤ (data ++ chunk).length ∧ data.length + i ∈ headerBytes) := by
      rintro ⟨hstart, hlen, hmem⟩
      simp only [headerBytes, List.mem_cons, List.not_mem_nil, or_false] at hmem
      rcases hhead hstart with h28 | ⟨rfl, hshort⟩
      · omega
      · simp only [List.nil_append] at hlen
        omega
    rw [if_neg hno, List.getElem?_append_right (by omega), Nat.add_sub_cancel_left,
      ← Nat.add_assoc]
    exact hc i (by omega)

/-- A first chunk that covers the header. -/
theorem shows_header {chunk : List UInt8} (r : UInt8 × UInt8 × UInt8 × UInt8)
    (hlen : 28 ≤ chunk.length) (hc : ∀ i < chunk.length, chunk[i]? = v.byteAt store i) :
    v.Shows store 0 (pretendRollbackJournal chunk r) := by
  have hlen' : (pretendRollbackJournal chunk r).length = chunk.length := by
    simp [pretendRollbackJournal]
  intro j hj
  rw [hlen'] at hj
  by_cases hmem : j ∈ headerBytes
  · rw [if_pos ⟨rfl, by omega, hmem⟩]
    intro h1819
    simp only [List.mem_cons, List.not_mem_nil, or_false] at h1819
    rcases h1819 with rfl | rfl
    · simp [pretendRollbackJournal, hj]
    · simp [pretendRollbackJournal, hj]
  · rw [if_neg fun h => hmem h.2.2, Nat.zero_add, ← hc j hj]
    rcases getElem?_pretendRollbackJournal (r := r) hlen j with h | ⟨-, ⟨h, -⟩ | h⟩
    · exact h
    · refine absurd ?_ hmem
      simp only [List.mem_cons, List.not_mem_nil, or_false] at h
      rcases h with rfl | rfl
      · decide
      · decide
    · refine absurd ?_ hmem
      simp only [List.mem_cons, List.not_mem_nil, or_false] at h
      rcases h with rfl | rfl | rfl | rfl
      all_goals decide

/-! ## Reads in progress -/

/-- A read of `len` bytes from `off` on that has bytes left to copy. -/
structure Reading (store : PageIndexElem → Nat × List UInt8) (v : VisibleState) (len off : Nat)
    (c : ReadCall) : Prop where
  asked : c.len = len
  start : c.start = off
  generation : c.generation = v.generation
  pageSize : c.pageSize = v.pageSize
  size : c.size = v.commit * v.pageSize
  room : c.data.length < len
  more : off + c.data.length < v.commit * v.pageSize
  shows : v.Shows store off c.data
  head : off = 0 → c.data = [] ∨ 28 ≤ c.data.length

def Progress (store : PageIndexElem → Nat × List UInt8) (v : VisibleState) (len off : Nat) :
    ReadPhase → Prop
  | .loop c => Reading store v len off c
  | .missed c _ => Reading store v len off c
  | .fetched c _ _ => Reading store v len off c
  | .page c _ => Reading store v len off c
  | .done _ data err => err = none ∨ err = some .eof → Returned store v len off data err

variable {len off : Nat} {c : ReadCall}

theorem progress_fail {e : ReadError} (he : e ≠ .eof) : Progress store v len off (c.fail e) := by
  rintro (h | h)
  · cases h
  · exact absurd (Option.some.inj h) he

theorem progress_readAt (f : ReplicaFile C) (hlen : 1 ≤ len) :
    Progress store f.visible len off (f.readAt len off) := by
  unfold ReplicaFile.readAt
  rw [if_neg (by omega)]
  split
  · rename_i hoff
    intro _
    have hzero : f.visible.commit * f.visible.pageSize - off = 0 := Nat.sub_eq_zero_of_le hoff
    exact ⟨by rw [hzero]; simp, iff_of_true rfl hlen, shows_nil off⟩
  · rename_i hoff
    exact ⟨rfl, rfl, rfl, rfl, rfl, hlen, Nat.not_le.mp hoff, shows_nil off, fun _ => .inl rfl⟩

/-- The rest of a page from an offset on ends within the database. -/
theorem page_end_le {s o n size : Nat} (hs : 0 < s) (ho : o < size * s) (hn : n ≤ s - o % s) :
    o + n ≤ size * s := by
  have hdiv : o / s + 1 ≤ size := (Nat.div_lt_iff_lt_mul hs).mpr ho
  have hmul : (o / s + 1) * s ≤ size * s := Nat.mul_le_mul_right s hdiv
  have hsplit : s * (o / s) + o % s = o := Nat.div_add_mod o s
  have hlt : o % s < s := Nat.mod_lt o hs
  rw [Nat.add_mul, Nat.one_mul, Nat.mul_comm] at hmul
  omega

/-- The part of a page that a read copies. -/
def ReadCall.chunk (c : ReadCall) (page : List UInt8) : List UInt8 :=
  (page.drop c.pageOff).take (c.len - c.total)

/-- What a read goes on with after it copied a chunk. -/
def ReadCall.next (c : ReadCall) (chunk : List UInt8) : ReadPhase :=
  let c := { c with data := c.data ++ chunk }
  if c.total < c.len ∧ c.off < c.size then .loop c
  else if c.total < c.len then c.fail .eof
  else .done c.start c.data none

theorem copyPage_eq (c : ReadCall) (page : List UInt8)
    (rand : Option (UInt8 × UInt8 × UInt8 × UInt8)) :
    c.copyPage page rand =
      if c.off = 0 ∧ c.total = 0 ∧ (c.chunk page).length ≥ 28 then
        match rand with
        | none => .done c.start [] (some .changeCounter)
        | some r => c.next (pretendRollbackJournal (c.chunk page) r)
      else c.next (c.chunk page) := rfl

theorem Reading.next (h : Reading store v len off c) {chunk : List UInt8}
    (hroom : c.data.length + chunk.length ≤ len)
    (hend : off + c.data.length + chunk.length ≤ v.commit * v.pageSize)
    (hshows : v.Shows store off (c.data ++ chunk))
    (hhead : off = 0 → 28 ≤ c.data.length + chunk.length ∨ c.data.length + chunk.length = len) :
    Progress store v len off (c.next chunk) := by
  have htotal : (c.data ++ chunk).length = c.data.length + chunk.length := List.length_append
  simp only [ReadCall.next, ReadCall.total, ReadCall.off, h.asked, h.start, h.size]
  split
  · rename_i hmore
    rw [htotal] at hmore
    refine ⟨rfl, rfl, h.generation, h.pageSize, rfl, by simpa using hmore.1,
      by simpa using hmore.2, hshows, fun hoff => .inr ?_⟩
    rcases hhead hoff with h28 | hfull
    · simpa using h28
    · omega
  · rename_i hstop
    rw [htotal] at hstop
    split
    · rename_i hshort
      rw [htotal] at hshort
      intro _
      refine ⟨?_, iff_of_true rfl (by simpa using hshort), hshows⟩
      show (c.data ++ chunk).length = _
      rw [htotal]
      omega
    · rename_i hfull
      rw [htotal] at hfull
      intro _
      refine ⟨?_, iff_of_false (by simp) (by simpa using hfull), hshows⟩
      rw [htotal]
      omega

theorem Reading.copyPage (h : Reading store v len off c) (hsize : 28 ≤ v.pageSize)
    {d : List UInt8} (hd : v.Copy store c.pgno d)
    (rand : Option (UInt8 × UInt8 × UInt8 × UInt8)) :
    Progress store v len off (c.copyPage d rand) := by
  have hoff : c.off = off + c.data.length := by rw [ReadCall.off, ReadCall.total, h.start]
  have hdl : d.length = v.pageSize := by
    obtain ⟨_, _, _, hl⟩ := hd
    exact hl
  have hlen : (c.chunk d).length =
      min (len - c.data.length) (v.pageSize - (off + c.data.length) % v.pageSize) := by
    rw [ReadCall.chunk, List.length_take, List.length_drop, ReadCall.pageOff, hdl, h.asked, hoff,
      h.pageSize, ReadCall.total]
  have hbytes : ∀ i < (c.chunk d).length,
      (c.chunk d)[i]? = v.byteAt store (off + c.data.length + i) := by
    intro i hi
    rw [hlen] at hi
    rw [ReadCall.pgno, hoff, h.pageSize] at hd
    rw [ReadCall.chunk, List.getElem?_take_of_lt (by rw [h.asked, ReadCall.total]; omega),
      List.getElem?_drop, ReadCall.pageOff, hoff, h.pageSize, Copy.byteAt hd (by omega)]
  have hroom : c.data.length + (c.chunk d).length ≤ len := by
    have := h.room
    omega
  have hend : off + c.data.length + (c.chunk d).length ≤ v.commit * v.pageSize :=
    page_end_le (by omega) h.more (by omega)
  rw [copyPage_eq, ReadCall.total, hoff]
  split
  · rename_i hfirst
    obtain ⟨hzero, hnil, h28⟩ := hfirst
    have hnil : c.data = [] := List.length_eq_zero_iff.mp hnil
    cases rand with
    | none => exact progress_fail (c := { c with data := [] }) (by decide)
    | some r =>
      obtain rfl : off = 0 := by omega
      have hlen' : (pretendRollbackJournal (c.chunk d) r).length = (c.chunk d).length := by
        simp [pretendRollbackJournal]
      refine h.next (by rw [hlen']; exact hroom) (by rw [hlen']; exact hend) ?_ fun _ => .inl ?_
      · rw [hnil, List.nil_append]
        exact shows_header r h28 fun i hi => by simpa [hnil] using hbytes i hi
      · rw [hlen']
        omega
  · rename_i hrest
    -- A chunk at offset 0 that does not cover the header is all that was asked for.
    have hshort : off = 0 → c.data = [] → (c.chunk d).length = len ∧ (c.chunk d).length < 28 := by
      rintro rfl hnil
      rw [hnil] at hrest hlen
      simp only [List.length_nil, Nat.add_zero, Nat.zero_mod, Nat.sub_zero, true_and,
        ge_iff_le, Nat.not_le] at hrest hlen
      omega
    refine h.next hroom hend (Shows.append h.shows hbytes fun hzero => ?_) fun hzero => ?_
    · rcases h.head hzero with hnil | h28
      · exact .inr ⟨hnil, (hshort hzero hnil).2⟩
      · exact .inl h28
    · rcases h.head hzero with hnil | h28
      · rw [hnil]
        exact .inr (by simpa using (hshort hzero hnil).1)
      · exact .inl (by omega)

/-! ## Steps -/

/-- What one step makes of a read. -/
inductive ReadStep (f : ReplicaFile C) : ReadPhase → ReadPhase → Prop
  | rest (ph : ReadPhase) : ReadStep f ph ph
  | lookup (c : ReadCall) : ReadStep f (.loop c) (f.lookupPage c).2
  | fetch (c : ReadCall) (elem : PageIndexElem) (env : FetchAttempts) :
      ReadStep f (.missed c elem) (ReplicaFile.fetchPage env c elem)
  | insert (c : ReadCall) (elem : PageIndexElem) (data : List UInt8) :
      ReadStep f (.fetched c elem data) (f.insertPage c elem data).2
  | check (c : ReadCall) (data : List UInt8) (rand : Option (UInt8 × UInt8 × UInt8 × UInt8)) :
      ReadStep f (.page c data) (f.checkPage c data rand)

/-- A step that sets the phase of one read leaves the others. -/
theorem readStep_set {s t : Session C} {i id : Nat} {ph x y : ReadPhase}
    (hi : s.reads i = some x) (hstep : ReadStep s.file x y) (hid : s.reads id = some ph)
    (ht : t.reads = (s.setRead i (some y)).reads) :
    ∃ ph', t.reads id = some ph' ∧ ReadStep s.file ph ph' := by
  rw [ht]
  by_cases he : id = i
  · subst he
    cases hi.symm.trans hid
    exact ⟨y, by simp [Session.setRead], hstep⟩
  · exact ⟨ph, by simpa [Session.setRead, he] using hid, .rest ph⟩

theorem step_read {s t : Session C} {e : Event} {id : Nat} {ph : ReadPhase}
    (hs : s.step e = some t) (he : e ≠ .finish id) (hid : s.reads id = some ph) :
    ∃ ph', t.reads id = some ph' ∧ ReadStep s.file ph ph' := by
  cases e with
  | readAt i len off =>
    simp only [Session.step] at hs
    split at hs
    · cases hs
    · rename_i hnone
      cases hs
      have hne : id ≠ i := fun h => by rw [← h, hid] at hnone; cases hnone
      exact ⟨ph, by simpa [Session.setRead, hne] using hid, .rest ph⟩
  | lookup i =>
    simp only [Session.step] at hs
    split at hs
    · rename_i c hc
      cases hs
      exact readStep_set hc (.lookup c) hid rfl
    · cases hs
  | fetch i env =>
    simp only [Session.step] at hs
    split at hs
    · rename_i c elem hc
      cases hs
      exact readStep_set hc (.fetch c elem env) hid rfl
    · cases hs
  | insert i =>
    simp only [Session.step] at hs
    split at hs
    · rename_i c elem data hc
      cases hs
      exact readStep_set hc (.insert c elem data) hid rfl
    · cases hs
  | check i rand =>
    simp only [Session.step] at hs
    split at hs
    · rename_i c data hc
      cases hs
      exact readStep_set hc (.check c data rand) hid rfl
    · cases hs
  | finish i =>
    simp only [Session.step] at hs
    split at hs
    · cases hs
      have hne : id ≠ i := fun h => he (by rw [h])
      exact ⟨ph, by simpa [Session.setRead, hne] using hid, .rest ph⟩
    · cases hs
  | pollEnd client now =>
    simp only [Session.step] at hs
    split at hs
    · cases hs
    · split at hs
      all_goals
        cases hs
        exact ⟨ph, hid, .rest ph⟩
  | _ =>
    simp only [Session.step] at hs
    split at hs
    all_goals first
      | (cases hs; exact ⟨ph, hid, .rest ph⟩)
      | cases hs

theorem fetchPageLoop_ne_eof {env : FetchAttempts} {pageSize pgno : Nat} {e : ReadError} :
    ∀ {left : Nat} {lastErr : Option PageFault},
      fetchPageLoop env pageSize pgno left lastErr = .error e → e ≠ .eof
  | 0, _, h => by
    cases h
    simp
  | left + 1, _, h => by
    unfold fetchPageLoop at h
    simp only at h
    split at h
    · cases h
      simp
    · split at h
      · split at h
        · exact fetchPageLoop_ne_eof h
        · cases h
          simp
      · split at h
        · cases h
          simp
        · split at h
          · cases h
            simp
          · cases h

theorem Progress.step {f : ReplicaFile C} {ph ph' : ReadPhase} (h : Progress store v len off ph)
    (hsize : 28 ≤ v.pageSize) (hsame : f.visible.generation = v.generation → f.visible = v)
    (hok : ReadOk store f.visible ph) (hstep : ReadStep f ph ph') :
    Progress store v len off ph' := by
  cases hstep with
  | rest => exact h
  | lookup c =>
    unfold ReplicaFile.lookupPage
    split
    · exact progress_fail (by decide)
    · split
      · exact h
      · split
        · exact progress_fail (by simp)
        · exact h
  | fetch c elem env =>
    unfold ReplicaFile.fetchPage
    split
    · rename_i e he
      exact progress_fail (fetchPageLoop_ne_eof he)
    · exact h
  | insert c elem data =>
    unfold ReplicaFile.insertPage
    split
    · exact progress_fail (by decide)
    · split
      · exact progress_fail (by decide)
      · split
        · exact h
        · exact h
  | check c data rand =>
    unfold ReplicaFile.checkPage
    split
    · exact progress_fail (by decide)
    · rename_i hgen
      have hgen : f.visible.generation = c.generation := Decidable.not_not.mp hgen
      obtain ⟨-, hcopy⟩ := hok.2 hgen.symm
      rw [hsame (hgen.trans h.generation)] at hcopy
      exact Reading.copyPage h hsize hcopy rand

/-! ## Runs -/

/-- A step while the read `id` is not put away. -/
def Session.StepDuring (store : PageIndexElem → Nat × List UInt8) (id : Nat) (s : Session C)
    (e : Event) (t : Session C) : Prop :=
  s.Step store e t ∧ e ≠ .finish id

/-- A session with a read that began in the state `v`. -/
structure Session.Began (store : PageIndexElem → Nat × List UInt8) (v : VisibleState)
    (id len off : Nat) (s : Session C) : Prop where
  inv : Inv store s
  generation : v.generation ≤ s.file.visible.generation
  same : s.file.visible.generation = v.generation → s.file.visible = v
  read : ∃ ph, s.reads id = some ph ∧ Progress store v len off ph

theorem Session.Began.step {id : Nat} {s t : Session C} {e : Event} (h : s.Began store v id len off)
    (hsize : 28 ≤ v.pageSize) (hs : s.StepDuring store id e t) : t.Began store v id len off := by
  obtain ⟨ph, hid, hph⟩ := h.read
  obtain ⟨ph', hid', hstep⟩ := step_read hs.1.2 hs.2 hid
  have hread : ∃ ph, t.reads id = some ph ∧ Progress store v len off ph :=
    ⟨ph', hid', hph.step hsize h.same (h.inv.reads id ph hid) hstep⟩
  have hinv : Inv store t := inv_step h.inv hs.1
  rcases step_visible hs.1.2 with hv | ⟨u, hv⟩
  · exact ⟨hinv, by rw [hv]; exact h.generation, by rw [hv]; exact h.same, hread⟩
  · have hgen : t.file.visible.generation = s.file.visible.generation + 1 := by rw [hv]; rfl
    have hle := h.generation
    exact ⟨hinv, by omega, fun he => by omega, hread⟩

theorem Session.Began.run {id : Nat} {s t : Session C} {es : List Event}
    (h : s.Began store v id len off)
    (hsize : 28 ≤ v.pageSize) (hr : Runs (Session.StepDuring store id) s es t) :
    t.Began store v id len off :=
  hr.inv (fun _ _ _ hb hs => hb.step hsize hs) h

theorem began_readAt {id : Nat} {s t : Session C} (hinv : Inv store s) (hlen : 1 ≤ len)
    (hs : s.step (.readAt id len off) = some t) : t.Began store s.file.visible id len off := by
  have hinv' : Inv store t := inv_step (e := .readAt id len off) hinv ⟨trivial, hs⟩
  simp only [Session.step] at hs
  split at hs
  · cases hs
  · cases hs
    refine ⟨hinv', Nat.le_refl _, fun _ => rfl, _, ?_, progress_readAt s.file hlen⟩
    simp [Session.setRead]

theorem detectPageSizeLoop_supported {c : ReplicaClient} {pageSize : Nat} :
    ∀ {infos : List FileInfo} {lastErr : Option ClientError},
      detectPageSizeLoop c infos lastErr = .ok pageSize → isSupportedPageSize pageSize = true
  | [], none, h => by cases h
  | [], some _, h => by cases h
  | info :: infos, _, h => by
    unfold detectPageSizeLoop at h
    split at h
    · exact detectPageSizeLoop_supported h
    · split at h
      · rename_i hok
        cases h
        exact hok
      · cases h

/-- A supported page holds the header. -/
theorem le_pageSize_of_opened {c : ReplicaClient} {cacheSize : Int} {f : ReplicaFile C}
    (ho : openReplicaFile C c cacheSize = .ok f) : 28 ≤ f.pageSize := by
  obtain ⟨_, _, _, _, -, hd, -, -⟩ := openReplicaFile_ok ho
  have hok := detectPageSizeLoop_supported hd
  simp only [isSupportedPageSize, List.mem_cons, List.not_mem_nil, or_false, decide_eq_true_eq]
    at hok
  omega

theorem pageSize_of_run {s t : Session C} {es : List Event}
    (hr : Runs (Session.Step store) s es t) : t.file.pageSize = s.file.pageSize := by
  refine hr.inv (I := fun t => t.file.pageSize = s.file.pageSize) ?_ rfl
  intro x e y hx hs
  rw [← hx]
  rcases step_visible hs.2 with hv | ⟨u, hv⟩
  · exact congrArg VisibleState.pageSize hv
  · exact congrArg VisibleState.pageSize hv

/-- In every reachable state of an opened file the cached pages are the copies that the visible
index designates. A `ReadAt` that begins there and, whatever happens meanwhile, returns no error or
`io.EOF`, has returned the bytes of that state. -/
theorem readAt_returns {c : ReplicaClient} {cacheSize : Int} {f : ReplicaFile C}
    (ho : openReplicaFile C c cacheSize = .ok f) {es : List Event} {s : Session C}
    (hr : Runs (Session.Step store) { file := f } es s) :
    C.All s.file.cache (s.file.visible.Copy store) ∧
    ∀ id len off es' s' t, 1 ≤ len → s.step (.readAt id len off) = some s' →
      Runs (Session.StepDuring store id) s' es' t →
      ∀ start data err, t.reads id = some (.done start data err) →
        err = none ∨ err = some .eof → Returned store s.file.visible len off data err := by
  have hinv : Inv store s := hr.inv (fun _ _ _ => inv_step) (inv_opened ho)
  refine ⟨hinv.cache, ?_⟩
  intro id len off es' s' t hlen hs hrun start data err hread herr
  have hsize : 28 ≤ s.file.pageSize := by
    rw [pageSize_of_run hr]
    exact le_pageSize_of_opened ho
  have hbegan := (began_readAt hinv hlen hs).run hsize hrun
  obtain ⟨ph, hid, hph⟩ := hbegan.read
  cases hid.symm.trans hread
  exact hph herr

/-- The zero page of the client. -/
def zeroPage : PageIndexElem → Nat × List UInt8 := fun _ => (1, List.replicate 512 0)

/-- A fetch that is answered at once. -/
def zeroFetch : FetchAttempts where
  ctxErr _ := none
  fetchPage _ := .ok (1, List.replicate 512 0)

set_option maxRecDepth 4096 in
theorem zeroPage_read : ∃ f s t, openReplicaFile (.unbounded ..) onePageClient 0 = .ok f ∧
    Session.step { file := f } (.readAt 0 4 510) = some s ∧
    Runs (Session.StepDuring zeroPage 0) s [.lookup 0, .fetch 0 zeroFetch, .insert 0, .check 0 none]
      t ∧
    t.reads 0 = some (.done 510 [0, 0] (some .eof)) := by
  have htrue : ∀ s : Session (.unbounded ..), s.Truthful zeroPage (.fetch 0 zeroFetch) := by
    intro s c elem i x _ hx
    cases hx
    rfl
  exact ⟨_, _, _, rfl, rfl, ((((Runs.one ⟨⟨trivial, rfl⟩, by simp⟩).append
    (Runs.one ⟨⟨htrue _, rfl⟩, by simp⟩)).append (Runs.one ⟨⟨trivial, rfl⟩, by simp⟩)).append
    (Runs.one ⟨⟨trivial, rfl⟩, by simp⟩)), rfl⟩

/-- Four bytes from offset 510 of a database of one page: two of them are there. -/
theorem readAt_returns_zeroPage : ∃ f, openReplicaFile (.unbounded ..) onePageClient 0 = .ok f ∧
    Returned zeroPage f.visible 4 510 [0, 0] (some .eof) := by
  obtain ⟨f, s, t, ho, hs, hrun, hread⟩ := zeroPage_read
  exact ⟨f, ho, (readAt_returns ho .nil).2 0 4 510 _ s t (by decide) hs hrun _ _ _ hread
    (.inr rfl)⟩

end Litestream
