import Mytools.Ff.Proof.Session

/-!
# Freshness of the feed cache

An upstream publishes versions, each with an ETag of its own, and answers every request from the
version that is current at that time. The body of a cache file, its ETag and its modification time
are taken at three times, and the modification time is only asked for without an ETag. When no
version is published from the time at which the wrapped handler fetches the body until the ETag is
captured, or without one until the file is written, they belong to one version, and a file that is
served after an answer from the version `v` was generated from `v` (`hit_fresh`).
-/

namespace Ff

open Lib CacheMiddleware

/-! ## Upstreams -/

structure Upstream (V : Type) where
  published : V → Time
  etag : V → Bytes
  etag_ne_nil : ∀ v, etag v ≠ []
  etag_injective : Function.Injective etag

namespace Upstream

variable {V : Type} (u : Upstream V)

/-- `v` is the version published last at the time `t`. -/
structure Current (v : V) (t : Time) : Prop where
  published : u.published v ≤ t
  last : ∀ w, u.published w ≤ t → u.published w ≤ u.published v

/-- The answer to a HEAD request, from the version `v`. -/
def AnswersHead (v : V) (ifNoneMatch : Bytes) (resp : Head) : Prop :=
  resp.status = 304 ∧ ifNoneMatch = u.etag v ∨
    resp.status ≠ 304 ∧ resp.etag = u.etag v ∧ resp.lastModified = some (u.published v)

/-- No version is published after `t`, until `t'`. -/
def Quiet (t t' : Time) : Prop := ∀ v, u.published v ≤ t' → u.published v ≤ t

variable {u} {v : V} {t t' : Time}

/-- The version that is current later was so already when it was published. -/
theorem Current.earlier (h : u.Current v t') (hle : t ≤ t') (hp : u.published v ≤ t) :
    u.Current v t :=
  ⟨hp, fun w hw => h.last w (hw.trans hle)⟩

end Upstream

section

variable {V : Type} (U : Bytes → Upstream V) (H : Request → V → Answer)

/-- The requests of the exchange are made in order and answered by the upstreams `U`; the wrapped
handler generates its answer with `H` from the version that it fetches. -/
structure Served (x : Exchange) : Prop where
  order : x.outside.validateAt ≤ x.outside.nextAt ∧ x.outside.nextAt ≤ x.outside.captureAt ∧
    x.outside.captureAt ≤ x.outside.writeAt
  validate : ∀ url tag resp, x.outside.validate url tag = some resp →
    ∃ v, (U url).Current v x.outside.validateAt ∧ (U url).AnswersHead v tag resp
  next : ∀ url rest, upstreamURLs x.request.query = url :: rest →
    ∀ v, (U url).Current v x.outside.nextAt → x.answer = H (getReq x.request) v
  capture : ∀ url resp, x.outside.capture url = some resp →
    ∃ v, (U url).Current v x.outside.captureAt ∧ (U url).AnswersHead v [] resp

/-- The exchanges are served one after the other. -/
structure ServedAll (es : List Exchange) : Prop where
  served : ∀ x ∈ es, Served U H x
  order : es.Pairwise fun x y => x.outside.writeAt ≤ y.outside.validateAt

/-- When that is taken by which the file of the exchange will be validated: its ETag, or without one
its modification time. -/
def Exchange.takenAt (x : Exchange) : Time :=
  if x.captures.isSome then x.outside.captureAt else x.outside.writeAt

/-- The upstream is quiet from the fetch of the body until the file has what it is validated by, the
file is written whole if it is opened, and a stale file is removed or replaced. -/
structure Settled (x : Exchange) : Prop where
  quiet : ∀ url rest, upstreamURLs x.request.query = url :: rest →
    (U url).Quiet x.outside.nextAt x.takenAt
  whole : x.Whole
  removed : x.outside.removes = true ∨ x.leaves.isSome

/-- Every exchange that generates a response is settled. -/
def SettledRun (sum256 : Bytes → Bytes) : Session → List Exchange → Prop
  | _, [] => True
  | s, x :: xs => ((s.reply sum256 x).origin = .generated → Settled U x) ∧
      SettledRun sum256 (s.step sum256 x) xs

variable {U H} {sum256 : Bytes → Bytes} {es : List Exchange} {s : Session} {e : Exchange}

namespace Served

variable {x : Exchange}

theorem captureAt_le (h : Served U H x) : x.outside.captureAt ≤ x.takenAt := by
  rw [Exchange.takenAt]
  split
  · exact le_refl _
  · exact h.order.2.2

theorem validateAt_le (h : Served U H x) : x.outside.validateAt ≤ x.outside.writeAt :=
  h.order.1.trans (h.order.2.1.trans h.order.2.2)

theorem nextAt_le (h : Served U H x) : x.outside.nextAt ≤ x.outside.writeAt :=
  h.order.2.1.trans h.order.2.2

/-- The captured ETag is that of the version current at the capture. -/
theorem captured {t : Bytes} (h : Served U H x) (ht : x.captures = some t) :
    ∃ url rest v, upstreamURLs x.request.query = url :: rest ∧
      (U url).Current v x.outside.captureAt ∧ t = (U url).etag v := by
  unfold Exchange.captures at ht
  split at ht
  · cases ht
  · rename_i url rest hurls
    unfold Exchange.tag at ht
    split at ht
    · cases ht
    · rename_i resp hresp
      split at ht
      · cases ht
      · obtain ⟨v, hv, ⟨-, hnil⟩ | ⟨-, htag, -⟩⟩ := h.capture url resp hresp
        · exact absurd hnil.symm ((U url).etag_ne_nil v)
        · exact ⟨url, rest, v, hurls, hv, (Option.some.inj ht).symm.trans htag⟩

end Served

/-! ## The invariant -/

/-- The stored ETag `t` of a key is that of a version that was current before the file of the key
had what it is validated by. -/
def Captured (U : Bytes → Upstream V) (sum256 : Bytes → Bytes) (es : List Exchange) (s : Session)
    (k t : Bytes) : Prop :=
  ∃ y ∈ es, y.key sum256 = k ∧ ∃ url rest v, upstreamURLs y.request.query = url :: rest ∧
    (U url).Current v y.outside.captureAt ∧ t = (U url).etag v ∧
    ∀ f x, s.cache.files.get? k = some f → s.writers.get? k = some x →
      y.outside.captureAt ≤ x.takenAt

structure Consistent (U : Bytes → Upstream V) (sum256 : Bytes → Bytes) (es : List Exchange)
    (s : Session) : Prop where
  written : Written sum256 es s
  settled : ∀ k x, s.writers.get? k = some x → Settled U x
  etags : ∀ k t, s.cache.etags.get? k = some t → Captured U sum256 es s k t
  tagged : ∀ k f x, s.cache.files.get? k = some f → s.writers.get? k = some x →
    x.captures.isSome → (s.cache.etags.get? k).isSome

theorem settled_step (h : ∀ k x, s.writers.get? k = some x → Settled U x)
    (he : (s.reply sum256 e).origin = .generated → Settled U e) :
    ∀ k x, (s.step sum256 e).writers.get? k = some x → Settled U x := by
  intro k x hx
  rw [Session.step] at hx
  dsimp only at hx
  split at hx
  · rename_i hgenerated
    rw [Table.get?_setOption] at hx
    split at hx
    · cases hleaves : e.leaves with
      | none =>
        rw [hleaves] at hx
        exact h _ x hx
      | some f =>
        rw [hleaves] at hx
        exact Option.some.inj hx ▸ he hgenerated
    · exact h k x hx
  · exact h k x hx

/-- A file that is there after a generation that left no older one was written by it. -/
theorem writer_of_generated {c₀ : CacheMiddleware} {writers : Table Bytes Exchange} {f : File}
    {x : Exchange} (hold : ∀ f, c₀.files.get? (e.key sum256) = some f → e.leaves.isSome)
    (hf : (generated sum256 c₀ e).files.get? (e.key sum256) = some f)
    (hx : (writers.setOption (e.key sum256) (e.leaves.map fun _ => e)).get? (e.key sum256) =
      some x) :
    x = e := by
  rw [generated, Table.get?_setOption, if_pos rfl] at hf
  rw [Table.get?_setOption, if_pos rfl] at hx
  cases hleaves : e.leaves with
  | some f' =>
    rw [hleaves] at hx
    exact (Option.some.inj hx).symm
  | none =>
    rw [hleaves] at hf
    have h := hold f hf
    rw [hleaves] at h
    cases h

/-- A settled generation leaves no older file. -/
theorem Settled.replaces {c c₀ : CacheMiddleware} (he : Settled U e) (h : Begins sum256 c e c₀) :
    ∀ f, c₀.files.get? (e.key sum256) = some f → e.leaves.isSome := by
  intro f hf
  have hremoves := (h.file hf).2
  simpa [hremoves] using he.removed

theorem tagged_step (h : Consistent U sum256 es s)
    (he : (s.reply sum256 e).origin = .generated → Settled U e) :
    ∀ k f x, (s.step sum256 e).cache.files.get? k = some f →
      (s.step sum256 e).writers.get? k = some x → x.captures.isSome →
      ((s.step sum256 e).cache.etags.get? k).isSome := by
  generalize hs : s.step sum256 e = s', hr : s.reply sum256 e = r at *
  cases hs ▸ hr ▸ step_effect sum256 s e with
  | passed => exact h.tagged
  | hit => exact h.tagged
  | generated c₀ _ hbegins =>
    intro k f x hf hx htag
    by_cases hk : k = e.key sum256
    · subst hk
      rw [writer_of_generated ((he rfl).replaces hbegins) hf hx] at htag
      obtain ⟨t, ht⟩ := Option.isSome_iff_exists.1 htag
      rw [generated, Table.get?_setOption, if_pos rfl, ht]
      rfl
    · obtain ⟨hfiles, hetags⟩ := hbegins.other hk
      rw [generated, Table.get?_setOption, if_neg hk, hfiles] at hf
      rw [Table.get?_setOption, if_neg hk] at hx
      rw [generated, Table.get?_setOption, if_neg hk, hetags]
      exact h.tagged k f x hf hx htag

theorem captured_step (h : Consistent U sum256 es s) (hserved : ServedAll U H (es ++ [e]))
    (he : (s.reply sum256 e).origin = .generated → Settled U e) :
    ∀ k t, (s.step sum256 e).cache.etags.get? k = some t →
      Captured U sum256 (es ++ [e]) (s.step sum256 e) k t := by
  have hkeep : ∀ k t, s.cache.etags.get? k = some t → Captured U sum256 (es ++ [e]) s k t := by
    intro k t ht
    obtain ⟨y, hy, hrest⟩ := h.etags k t ht
    exact ⟨y, List.mem_append_left _ hy, hrest⟩
  have hservedE := hserved.served e (by simp)
  generalize hs : s.step sum256 e = s', hr : s.reply sum256 e = r at *
  cases hs ▸ hr ▸ step_effect sum256 s e with
  | passed => exact hkeep
  | hit => exact hkeep
  | generated c₀ _ hbegins =>
    intro k t ht
    rw [generated, Table.get?_setOption] at ht
    by_cases hk : k = e.key sum256
    · subst hk
      rw [if_pos rfl] at ht
      cases hcaptures : e.captures with
      | some t' =>
        rw [hcaptures] at ht
        obtain rfl := Option.some.inj ht
        obtain ⟨url, rest, v, hurls, hv, hv'⟩ := hservedE.captured hcaptures
        refine ⟨e, by simp, rfl, url, rest, v, hurls, hv, hv', fun f x hf hx => ?_⟩
        rw [writer_of_generated ((he rfl).replaces hbegins) hf hx]
        exact hservedE.captureAt_le
      | none =>
        rw [hcaptures] at ht
        obtain ⟨hold, -⟩ := hbegins.etag ht
        obtain ⟨y, hy, hkey, url, rest, v, hurls, hv, hv', -⟩ := h.etags _ t hold
        refine ⟨y, List.mem_append_left _ hy, hkey, url, rest, v, hurls, hv, hv',
          fun f x hf hx => ?_⟩
        have htaken : e.takenAt = e.outside.writeAt := by rw [Exchange.takenAt, hcaptures]; rfl
        rw [writer_of_generated ((he rfl).replaces hbegins) hf hx, htaken]
        have hbefore := (List.pairwise_append.1 hserved.order).2.2 y hy e List.mem_cons_self
        have hy' := (hserved.served y (List.mem_append_left _ hy)).order.2.2
        exact hy'.trans (hbefore.trans hservedE.validateAt_le)
    · rw [if_neg hk] at ht
      obtain ⟨hfiles, hetags⟩ := hbegins.other hk
      obtain ⟨y, hy, hkey, url, rest, v, hurls, hv, hv', hle⟩ := hkeep k t (hetags ▸ ht)
      refine ⟨y, hy, hkey, url, rest, v, hurls, hv, hv', fun f x hf hx => hle f x ?_ ?_⟩
      · rw [generated, Table.get?_setOption, if_neg hk, hfiles] at hf
        exact hf
      · rw [Table.get?_setOption, if_neg hk] at hx
        exact hx

theorem consistent_run : ∀ {xs es : List Exchange} {s : Session}, Consistent U sum256 es s →
    SettledRun U sum256 s xs → ServedAll U H (es ++ xs) →
    Consistent U sum256 (es ++ xs) (s.run sum256 xs)
  | [], es, s, h, _, _ => by
    rw [List.append_nil]
    exact h
  | x :: xs, es, s, h, hsettled, hserved => by
    have happend : es ++ x :: xs = es ++ [x] ++ xs := by simp
    rw [happend] at hserved ⊢
    have hserved' : ServedAll U H (es ++ [x]) :=
      ⟨fun y hy => hserved.served y (List.mem_append_left _ hy),
        (List.pairwise_append.1 hserved.order).1⟩
    have hstep : Consistent U sum256 (es ++ [x]) (s.step sum256 x) :=
      ⟨written_step h.written x, settled_step h.settled hsettled.1,
        captured_step h hserved' hsettled.1, tagged_step h hsettled.1⟩
    exact consistent_run hstep hsettled.2 hserved

theorem consistent_empty : Consistent U sum256 [] Session.empty :=
  ⟨fun k f h => (by cases h), fun k x h => (by cases h), fun k t h => (by cases h),
    fun k f x h => (by cases h)⟩

/-! ## Hits -/

/-- When the cache is found fresh by an answer from the version `v`, then `v` was published before
the file had what it is validated by. -/
theorem published_le_of_fresh (h : Consistent U sum256 es s)
    (hfree : CollisionFree sum256 (es ++ [e]))
    {f : File} {x : Exchange} (hfile : s.cache.files.get? (e.key sum256) = some f)
    (hwriter : s.writers.get? (e.key sum256) = some x) (hmod : f.modTime = x.outside.writeAt)
    {url : Bytes} {rest : List Bytes} (hurls : upstreamURLs e.request.query = url :: rest)
    {v : V} {resp : Head}
    (hresp : e.outside.validate url (s.cache.getStoredETag (e.key sum256)) = some resp)
    (hv : (U url).AnswersHead v (s.cache.getStoredETag (e.key sum256)) resp)
    (hfresh : s.cache.isCacheFresh e.outside url (e.key sum256) f.modTime = true) :
    (U url).published v ≤ x.takenAt := by
  -- a stored ETag of `v` was captured when `v` was current
  have hstored : s.cache.getStoredETag (e.key sum256) = (U url).etag v →
      (U url).published v ≤ x.takenAt := by
    intro htag
    cases ht : s.cache.etags.get? (e.key sum256) with
    | none =>
      rw [getStoredETag, ht] at htag
      exact absurd htag.symm ((U url).etag_ne_nil v)
    | some t =>
      rw [getStoredETag, ht] at htag
      obtain ⟨y, hy, hkey, url', rest', w, hurls', hw, htw, hle⟩ := h.etags _ t ht
      have hparams := sameParams_of_key hfree (List.mem_append_left _ hy)
        (List.mem_append_right _ List.mem_cons_self) hkey
      have hsame : upstreamURLs y.request.query = upstreamURLs e.request.query := hparams _
      rw [hurls, hurls'] at hsame
      obtain ⟨rfl, -⟩ := List.cons.inj hsame
      have hvw : w = v := (U url').etag_injective (htw.symm.trans htag)
      rw [← hvw]
      exact hw.published.trans (hle f x hfile hwriter)
  unfold isCacheFresh at hfresh
  dsimp only at hfresh
  rw [hresp] at hfresh
  dsimp only at hfresh
  obtain ⟨hstatus, htag⟩ | ⟨hstatus, htag, hmodified⟩ := hv
  · exact hstored htag
  · rw [if_neg hstatus] at hfresh
    split at hfresh
    · exact hstored ((of_decide_eq_true hfresh).symm.trans htag)
    · -- there is no stored ETag, so the writer of the file has captured none
      rename_i hnone
      have hcaptures : x.captures.isSome = false := by
        by_contra hc
        obtain ⟨t, ht⟩ := Option.isSome_iff_exists.1
          (h.tagged _ f x hfile hwriter (Bool.eq_true_of_not_eq_false hc))
        obtain ⟨-, -, -, url', -, w, -, -, htw, -⟩ := h.etags _ t ht
        refine hnone ⟨htag ▸ (U url).etag_ne_nil v, ?_⟩
        rw [getStoredETag, ht, htw]
        exact (U url').etag_ne_nil w
      rw [hmodified] at hfresh
      rw [Exchange.takenAt, hcaptures, ← hmod]
      exact of_decide_eq_true hfresh

/-- In every sequence of requests whose generations are settled, a cache file that is served after a
HEAD request was answered from the version `v` was generated from `v`, for the same query
parameters. -/
theorem hit_fresh (U : Bytes → Upstream V) (H : Request → V → Answer) (sum256 : Bytes → Bytes)
    (es : List Exchange) (e : Exchange) (hserved : ServedAll U H (es ++ [e]))
    (hfree : CollisionFree sum256 (es ++ [e])) (hsettled : SettledRun U sum256 Session.empty es)
    (hhit : ((Session.empty.run sum256 es).reply sum256 e).origin = .file)
    (url : Bytes) (rest : List Bytes) (hurls : upstreamURLs e.request.query = url :: rest)
    (v : V) (hcurrent : (U url).Current v e.outside.validateAt)
    (resp : Head) (hresp : e.outside.validate url
      ((Session.empty.run sum256 es).cache.getStoredETag (e.key sum256)) = some resp)
    (hv : (U url).AnswersHead v
      ((Session.empty.run sum256 es).cache.getStoredETag (e.key sum256)) resp) :
    ∃ f x, (Session.empty.run sum256 es).cache.files.get? (e.key sum256) = some f ∧
      (Session.empty.run sum256 es).writers.get? (e.key sum256) = some x ∧
      Form.SameParams x.request.query e.request.query ∧
      (U url).Current v x.outside.nextAt ∧ f.body = (H (getReq x.request) v).body := by
  have hserved' : ServedAll U H ([] ++ es) :=
    ⟨fun y hy => hserved.served y (List.mem_append_left _ hy),
      (List.pairwise_append.1 hserved.order).1⟩
  have h : Consistent U sum256 es (Session.empty.run sum256 es) :=
    consistent_run consistent_empty hsettled hserved'
  obtain ⟨f, x, hx, hfile, hwriter, hparams, hleaves, hfresh, -⟩ := h.written.of_hit hfree hhit
  have hwrite := (x.leaves_eq_some hleaves).2
  have hsettledX := h.settled _ x hwriter
  have hservedX := hserved.served x (List.mem_append_left _ hx)
  have hpublished := published_le_of_fresh h hfree hfile hwriter (writeFile_modTime hwrite) hurls
    hresp hv (hfresh url rest hurls)
  -- nothing was published since the wrapped handler fetched the body
  have hurlsX : upstreamURLs x.request.query = url :: rest := (hparams _).trans hurls
  have hfetched := hsettledX.quiet url rest hurlsX v hpublished
  have hbefore := (List.pairwise_append.1 hserved.order).2.2 x hx e List.mem_cons_self
  have hcurrentX := hcurrent.earlier (hservedX.nextAt_le.trans hbefore) hfetched
  refine ⟨f, x, hfile, hwriter, hparams, hcurrentX, ?_⟩
  rw [← hservedX.next url rest hurlsX v hcurrentX]
  exact (Exchange.body_eq_iff_whole hleaves).2 hsettledX.whole

end

/-! ## An upstream that publishes between the requests -/

/-- The second version, `true`, is published at the time 10. -/
def twoVersions : Upstream Bool where
  published v := if v then 10 else 0
  etag v := if v then [2] else [1]
  etag_ne_nil := by decide
  etag_injective := by
    intro v w h
    cases v <;> cases w <;> simp_all

/-- The feed says which version it was generated from. -/
def versionFeed (_ : Request) (v : Bool) : Answer := ⟨none, [if v then [2] else [1]]⟩

/-- The version that is current at a time. -/
def versionAt (t : Time) : Bool := 10 ≤ t

/-- A GET request for the feed, whose requests are made at the given times. -/
def feedAt (validateAt nextAt captureAt writeAt : Time) : Exchange where
  request := ⟨.get, [47], Table.empty.set (Bytes.ofString "url") [[117]]⟩
  outside :=
    { validate := fun _ tag =>
        some (if tag = twoVersions.etag (versionAt validateAt) then ⟨304, [], none⟩
          else ⟨200, twoVersions.etag (versionAt validateAt),
            some (twoVersions.published (versionAt validateAt))⟩)
      validateAt := validateAt
      removes := true
      next := fun r => versionFeed r (versionAt nextAt)
      nextAt := nextAt
      capture := fun _ => some ⟨200, twoVersions.etag (versionAt captureAt),
        some (twoVersions.published (versionAt captureAt))⟩
      captureAt := captureAt
      write := .done
      writeAt := writeAt }

theorem current_iff {v : Bool} {t : Time} (ht : 0 ≤ t) :
    twoVersions.Current v t ↔ v = versionAt t := by
  have hfirst : twoVersions.published false = 0 := rfl
  have hsecond : twoVersions.published true = 10 := rfl
  constructor
  · rintro ⟨hp, hlast⟩
    have hl := hlast true
    cases v with
    | false =>
      rw [hfirst, hsecond] at hl
      simpa [versionAt] using hl
    | true => simpa [versionAt, hsecond] using hp
  · rintro rfl
    by_cases h : 10 ≤ t
    · have hv : versionAt t = true := by simpa [versionAt] using h
      rw [hv]
      exact ⟨h, fun w _ => (by cases w <;> simp [hfirst, hsecond])⟩
    · have hv : versionAt t = false := by simpa [versionAt] using h
      rw [hv]
      refine ⟨ht, fun w hw => ?_⟩
      cases w with
      | false => exact le_refl _
      | true => exact absurd hw h

theorem feedAt_served {t₁ t₂ t₃ t₄ : Time} (h₀ : 0 ≤ t₁) (h₁ : t₁ ≤ t₂) (h₂ : t₂ ≤ t₃)
    (h₃ : t₃ ≤ t₄) :
    Served (fun _ => twoVersions) versionFeed (feedAt t₁ t₂ t₃ t₄) where
  order := ⟨h₁, h₂, h₃⟩
  validate := by
    intro url tag resp h
    refine ⟨versionAt t₁, (current_iff h₀).2 rfl, ?_⟩
    obtain rfl := Option.some.inj h
    split
    · exact .inl ⟨rfl, ‹_›⟩
    · exact .inr ⟨(by simp), rfl, rfl⟩
  next := by
    intro url rest _ v hv
    rw [(current_iff (h₀.trans h₁)).1 hv]
    rfl
  capture := by
    intro url resp h
    refine ⟨versionAt t₃, (current_iff (h₀.trans (h₁.trans h₂))).2 rfl, ?_⟩
    obtain rfl := Option.some.inj h
    exact .inr ⟨(by simp), rfl, rfl⟩

theorem feedAt_servedAll {t₁ t₂ t₃ t₄ t : Time} (h₀ : 0 ≤ t₁) (h₁ : t₁ ≤ t₂) (h₂ : t₂ ≤ t₃)
    (h₃ : t₃ ≤ t₄) (h₄ : t₄ ≤ t) :
    ServedAll (fun _ => twoVersions) versionFeed [feedAt t₁ t₂ t₃ t₄, feedAt t t t t] := by
  refine ⟨fun x hx => ?_, ?_⟩
  · rcases List.mem_pair.1 hx with rfl | rfl
    · exact feedAt_served h₀ h₁ h₂ h₃
    · exact feedAt_served (h₀.trans (h₁.trans (h₂.trans (h₃.trans h₄)))) le_rfl le_rfl le_rfl
  · rw [List.pairwise_pair]
    exact h₄

theorem hit_fresh_quiet : SettledRun (fun _ => twoVersions) id Session.empty [feedAt 0 1 2 3] ∧
    ∃ f, (Session.empty.run id [feedAt 0 1 2 3]).cache.files.get? ((feedAt 4 4 4 4).key id) =
      some f ∧ ∃ r, f.body = (versionFeed r false).body := by
  have hquiet : twoVersions.Quiet 1 2 := by
    intro v hv
    cases v with
    | false => decide
    | true => exact absurd hv (by decide)
  have hsettled : SettledRun (fun _ => twoVersions) id Session.empty [feedAt 0 1 2 3] :=
    ⟨fun _ => ⟨fun _ _ _ => hquiet, fun _ h => (by cases h), .inl rfl⟩, trivial⟩
  obtain ⟨f, x, hfile, -, -, -, hbody⟩ := hit_fresh (fun _ => twoVersions) versionFeed id
    [feedAt 0 1 2 3] (feedAt 4 4 4 4)
    (feedAt_servedAll (by decide) (by decide) (by decide) (by decide) (by decide))
    (fun _ _ _ _ h => h) hsettled (by decide) [117] [] rfl false ((current_iff (by decide)).2 rfl)
    ⟨304, [], none⟩ rfl (.inl ⟨rfl, by decide⟩)
  exact ⟨hsettled, f, hfile, _, hbody⟩

/-- The feed that was fetched before the second version was published is filed with the ETag of the
second version, and served as the second version from then on. -/
theorem publishedMeanwhile_servesOld :
    ServedAll (fun _ => twoVersions) versionFeed [feedAt 0 5 15 20, feedAt 30 30 30 30] ∧
    ((Session.empty.run id [feedAt 0 5 15 20]).reply id (feedAt 30 30 30 30)).origin = .file ∧
    twoVersions.Current true 30 ∧
    (feedAt 30 30 30 30).outside.validate [117]
        ((Session.empty.run id [feedAt 0 5 15 20]).cache.getStoredETag
          ((feedAt 30 30 30 30).key id)) =
      some ⟨304, [], none⟩ ∧
    ∃ f, (Session.empty.run id [feedAt 0 5 15 20]).cache.files.get? ((feedAt 30 30 30 30).key id) =
        some f ∧
      ∀ r, f.body ≠ (versionFeed r true).body := by
  refine ⟨feedAt_servedAll (by decide) (by decide) (by decide) (by decide) (by decide), by decide,
    (current_iff (by decide)).2 rfl, rfl, ⟨[1], 20⟩, rfl, fun r => ?_⟩
  have hbody : (versionFeed r true).body = [2] := rfl
  rw [hbody]
  decide

end Ff
