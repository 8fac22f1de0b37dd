import Mytools.Ff.Cache
import Mathlib.Data.List.Induction

/-!
# Sequences of requests to the feed cache

An `Exchange` is a request and what the middleware meets while it answers it. A `Session` is the
middleware after a sequence of exchanges, with the exchange that wrote each cache file as its
history. `Step` says what one exchange can do; in every session a cache file is what its writer left
(`written_run`).
-/

namespace Ff

open Lib CacheMiddleware

structure Exchange where
  request : Request
  outside : Outside

/-- The name under which SHA-256 files the queries of these exchanges belongs to one query. -/
def CollisionFree (sum256 : Bytes → Bytes) (es : List Exchange) : Prop :=
  ∀ x ∈ es, ∀ y ∈ es, sum256 (Form.encode x.request.query) = sum256 (Form.encode y.request.query) →
    Form.encode x.request.query = Form.encode y.request.query

namespace Exchange

/-- What the wrapped handler answers, if it is called. -/
def answer (e : Exchange) : Answer := e.outside.next (getReq e.request)

/-- The file that the exchange leaves under its key, if it generates and opens it. -/
def leaves (e : Exchange) : Option File :=
  if e.answer.body = [] then none else e.outside.writeFile e.answer.body

theorem leaves_eq_some {e : Exchange} {f : File} (h : e.leaves = some f) :
    e.answer.body ≠ [] ∧ e.outside.writeFile e.answer.body = some f := by
  rw [leaves] at h
  split at h
  · cases h
  · exact ⟨‹_›, h⟩

/-- `os.WriteFile` does not leave the file before all of the answer is in it. -/
def Whole (e : Exchange) : Prop := ∀ n, e.outside.write = .cut n → e.answer.body.length ≤ n

theorem body_eq_iff_whole {e : Exchange} {f : File} (h : e.leaves = some f) :
    f.body = e.answer.body ↔ e.Whole := by
  obtain ⟨-, hwrite⟩ := leaves_eq_some h
  unfold Outside.writeFile at hwrite
  rw [Whole]
  split at hwrite
  · rename_i hw
    cases hwrite
    simp [hw]
  · cases hwrite
  · rename_i n hw
    cases hwrite
    simp [hw]

/-- The ETag that the answer to a HEAD request has. -/
def tag : Option Head → Option Bytes
  | none => none
  | some resp => if resp.etag = [] then none else some resp.etag

/-- The ETag that the exchange captures, if it generates. -/
def captures (e : Exchange) : Option Bytes :=
  match upstreamURLs e.request.query with
  | [] => none
  | upstreamURL :: _ => tag (e.outside.capture upstreamURL)

end Exchange

theorem writeFile_modTime {o : Outside} {body : Bytes} {f : File} (h : o.writeFile body = some f) :
    f.modTime = o.writeAt := by
  unfold Outside.writeFile at h
  split at h <;> cases h <;> rfl

section

variable (sum256 : Bytes → Bytes)

def Exchange.key (e : Exchange) : Bytes := getCacheKey sum256 e.request.query

/-! ## Keys -/

theorem hexByte_injective : ∀ m < 16, ∀ n < 16, hexByte m = hexByte n → m = n := by decide

theorem hex_injective : Function.Injective hex
  | [], [], _ => rfl
  | [], _ :: _, h => by simp [hex] at h
  | _ :: _, [], h => by simp [hex] at h
  | a :: s, b :: t, h => by
    simp only [hex, List.flatMap_cons, List.cons_append, List.nil_append, List.cons.injEq] at h
    have ha := a.toNat_lt
    have hb := b.toNat_lt
    have hhigh := hexByte_injective _ (by omega) _ (by omega) h.1
    have hlow := hexByte_injective _ (by omega) _ (by omega) h.2.1
    have hab : a = b := UInt8.toNat_inj.1 (by omega)
    rw [hab, hex_injective h.2.2]

variable {sum256} in
/-- Exchanges with the same cache key have the same query parameters. -/
theorem sameParams_of_key {es : List Exchange} {x y : Exchange} (hfree : CollisionFree sum256 es)
    (hx : x ∈ es) (hy : y ∈ es) (h : x.key sum256 = y.key sum256) :
    Form.SameParams x.request.query y.request.query :=
  Form.sameParams_of_encode (hfree x hx y hy (hex_injective (List.append_cancel_right h)))

/-! ## One exchange -/

structure Session where
  cache : CacheMiddleware
  /-- The exchange that wrote the file of each key last. -/
  writers : Table Bytes Exchange

namespace Session

def empty : Session := ⟨CacheMiddleware.empty, Table.empty⟩

def reply (s : Session) (e : Exchange) : Reply := (s.cache.serveHTTP sum256 e.outside e.request).2

def step (s : Session) (e : Exchange) : Session where
  cache := (s.cache.serveHTTP sum256 e.outside e.request).1
  writers :=
    if (s.reply sum256 e).origin = .generated then
      s.writers.setOption (e.key sum256) (e.leaves.map fun _ => e)
    else s.writers

def run (s : Session) (es : List Exchange) : Session := es.foldl (step sum256) s

theorem run_snoc (s : Session) (es : List Exchange) (e : Exchange) :
    s.run sum256 (es ++ [e]) = (s.run sum256 es).step sum256 e := by
  rw [run, List.foldl_append]
  rfl

end Session

/-- The cache from which an exchange generates a response: the one without a file for it, or the one
whose stale file and ETag were removed. -/
def Begins (c : CacheMiddleware) (e : Exchange) (c₀ : CacheMiddleware) : Prop :=
  c.files.get? (e.key sum256) = none ∧ c₀ = c ∨
    (c.files.get? (e.key sum256)).isSome ∧
      c₀ = (c.removeFile e.outside (e.key sum256)).removeETag (e.key sum256)

/-- The cache after the generation of a response from `c₀`. -/
def generated (c₀ : CacheMiddleware) (e : Exchange) : CacheMiddleware :=
  ⟨c₀.files.setOption (e.key sum256) e.leaves, c₀.etags.setOption (e.key sum256) e.captures⟩

/-- What an exchange can do to a session, and where its answer comes from. -/
inductive Effect (s : Session) (e : Exchange) : Session → Reply → Prop
  | passed (response : Response) : Effect s e s ⟨.passed, response⟩
  | hit (f : File) (hfile : s.cache.files.get? (e.key sum256) = some f)
      (hfresh : ∀ url rest, upstreamURLs e.request.query = url :: rest →
        s.cache.isCacheFresh e.outside url (e.key sum256) f.modTime = true) :
      Effect s e s ⟨.file, serveFileFS e.request rssContentType f⟩
  | generated (c₀ : CacheMiddleware) (response : Response) (hbegins : Begins sum256 s.cache e c₀) :
      Effect s e
        ⟨generated sum256 c₀ e, s.writers.setOption (e.key sum256) (e.leaves.map fun _ => e)⟩
        ⟨.generated, response⟩

variable {sum256}

theorem captureAndStoreETag_eq (c : CacheMiddleware) (o : Outside) (url k : Bytes) :
    c.captureAndStoreETag o url k =
      { c with etags := c.etags.setOption k (Exchange.tag (o.capture url)) } := by
  unfold captureAndStoreETag storeETag Exchange.tag
  cases o.capture url with
  | none => rfl
  | some resp =>
    dsimp only
    split <;> rfl

theorem writeToCache_eq (c : CacheMiddleware) (e : Exchange) (k : Bytes) :
    (c.writeToCache e.outside (.record e.answer) k).1 =
      { c with files := c.files.setOption k e.leaves } := by
  rw [ResponseRecorder.record_eq]
  unfold writeToCache Exchange.leaves
  split
  · rfl
  · dsimp only
    cases e.outside.writeFile e.answer.body <;> rfl

theorem captureUpstream_eq (c : CacheMiddleware) (e : Exchange) (k : Bytes) :
    c.captureUpstream e.outside e.request.query k =
      { c with etags := c.etags.setOption k e.captures } := by
  unfold captureUpstream Exchange.captures
  cases upstreamURLs e.request.query with
  | nil => rfl
  | cons url _ => exact captureAndStoreETag_eq c e.outside url k

/-- What the generation of a response leaves. -/
theorem generate_eq (c : CacheMiddleware) (e : Exchange) (k : Bytes) :
    ∃ response, c.generateAndCacheResponse e.outside e.request k =
      (⟨c.files.setOption k e.leaves, c.etags.setOption k e.captures⟩, ⟨.generated, response⟩) := by
  have hwrite := writeToCache_eq (c.captureUpstream e.outside e.request.query k) e k
  have hc := captureUpstream_eq c e k
  rw [Exchange.answer] at hwrite
  rw [captureUpstream_eq] at hwrite
  unfold generateAndCacheResponse
  dsimp only
  rw [captureUpstream_eq]
  split
  · exact ⟨_, Prod.ext hwrite rfl⟩
  · exact ⟨_, Prod.ext hwrite rfl⟩

theorem serveHTTP_cases (sum256 : Bytes → Bytes) (c : CacheMiddleware) (e : Exchange) :
    (∃ response, c.serveHTTP sum256 e.outside e.request = (c, ⟨.passed, response⟩)) ∨
    (∃ f, c.files.get? (e.key sum256) = some f ∧
      (∀ url rest, upstreamURLs e.request.query = url :: rest →
        c.isCacheFresh e.outside url (e.key sum256) f.modTime = true) ∧
      c.serveHTTP sum256 e.outside e.request = c.serveFileWithCharset e.request f) ∨
    ∃ c₀, Begins sum256 c e c₀ ∧ c.serveHTTP sum256 e.outside e.request =
      c₀.generateAndCacheResponse e.outside e.request (e.key sum256) := by
  unfold serveHTTP
  split
  · exact .inl ⟨_, rfl⟩
  · refine .inr ?_
    dsimp only
    split
    · exact .inr ⟨c, .inl ⟨‹_›, rfl⟩, rfl⟩
    · rename_i stat hstat
      split
      · rename_i hurls
        exact .inl ⟨stat, hstat, fun url rest h => (by rw [hurls] at h; cases h), rfl⟩
      · rename_i url rest hurls
        split
        · exact .inr ⟨_, .inr ⟨Option.isSome_of_mem hstat, rfl⟩, rfl⟩
        · rename_i hfresh
          refine .inl ⟨stat, hstat, fun url' rest' h => ?_, rfl⟩
          rw [hurls] at h
          obtain ⟨rfl, -⟩ := List.cons.inj h
          simpa [Exchange.key] using hfresh

theorem step_effect (sum256 : Bytes → Bytes) (s : Session) (e : Exchange) :
    Effect sum256 s e (s.step sum256 e) (s.reply sum256 e) := by
  rw [Session.step, Session.reply]
  obtain ⟨response, h⟩ | ⟨f, hfile, hfresh, h⟩ | ⟨c₀, hbegins, h⟩ :=
    serveHTTP_cases sum256 s.cache e
  · rw [h]
    exact .passed response
  · rw [h]
    exact .hit f hfile hfresh
  · obtain ⟨response, hresponse⟩ := generate_eq c₀ e (e.key sum256)
    rw [h, hresponse]
    exact .generated c₀ response hbegins

namespace Begins

variable {c c₀ : CacheMiddleware} {e : Exchange} {k : Bytes}

/-- Nothing is changed under another key. -/
theorem other (h : Begins sum256 c e c₀) (hk : k ≠ e.key sum256) :
    c₀.files.get? k = c.files.get? k ∧ c₀.etags.get? k = c.etags.get? k := by
  obtain ⟨-, rfl⟩ | ⟨-, rfl⟩ := h
  · exact ⟨rfl, rfl⟩
  · refine ⟨?_, Table.get?_erase.trans (if_neg hk)⟩
    dsimp only [removeETag, removeFile]
    split
    · exact Table.get?_erase.trans (if_neg hk)
    · rfl

/-- A file is left only when it could not be removed. -/
theorem file {f : File} (h : Begins sum256 c e c₀) (hf : c₀.files.get? (e.key sum256) = some f) :
    c.files.get? (e.key sum256) = some f ∧ e.outside.removes = false := by
  obtain ⟨hnone, rfl⟩ | ⟨-, rfl⟩ := h
  · rw [hnone] at hf
    cases hf
  · dsimp only [removeETag, removeFile] at hf
    split at hf
    · rw [Table.get?_erase, if_pos rfl] at hf
      cases hf
    · rename_i hremoves
      exact ⟨hf, Bool.eq_false_iff.2 hremoves⟩

/-- An ETag is left only when there was no file. -/
theorem etag {t : Bytes} (h : Begins sum256 c e c₀) (ht : c₀.etags.get? (e.key sum256) = some t) :
    c.etags.get? (e.key sum256) = some t ∧ c.files.get? (e.key sum256) = none := by
  obtain ⟨hnone, rfl⟩ | ⟨-, rfl⟩ := h
  · exact ⟨ht, hnone⟩
  · rw [removeETag, Table.get?_erase, if_pos rfl] at ht
    cases ht

end Begins

/-! ## The writers of the files -/

/-- Every cache file is what its writer left, and its writer is one of the exchanges. -/
def Written (sum256 : Bytes → Bytes) (es : List Exchange) (s : Session) : Prop :=
  ∀ k f, s.cache.files.get? k = some f →
    ∃ x ∈ es, s.writers.get? k = some x ∧ x.key sum256 = k ∧ x.leaves = some f

theorem written_step {es : List Exchange} {s : Session} (h : Written sum256 es s) (e : Exchange) :
    Written sum256 (es ++ [e]) (s.step sum256 e) := by
  have hkeep : ∀ k f, s.cache.files.get? k = some f → ∃ x ∈ es ++ [e],
      s.writers.get? k = some x ∧ x.key sum256 = k ∧ x.leaves = some f := by
    intro k f hf
    obtain ⟨x, hx, hw⟩ := h k f hf
    exact ⟨x, List.mem_append_left _ hx, hw⟩
  generalize hs : s.step sum256 e = s', hr : s.reply sum256 e = r
  cases hs ▸ hr ▸ step_effect sum256 s e with
  | passed => exact hkeep
  | hit => exact hkeep
  | generated c₀ _ hbegins =>
    intro k f hf
    rw [generated, Table.get?_setOption] at hf
    rw [Table.get?_setOption]
    by_cases hk : k = e.key sum256
    · subst hk
      rw [if_pos rfl] at hf ⊢
      cases hleaves : e.leaves with
      | some f' =>
        rw [hleaves] at hf
        obtain rfl := Option.some.inj hf
        exact ⟨e, by simp, rfl, rfl, hleaves⟩
      | none =>
        -- the stale file is still there
        rw [hleaves] at hf
        simpa using hkeep (e.key sum256) f (hbegins.file hf).1
    · rw [if_neg hk] at hf ⊢
      rw [(hbegins.other hk).1] at hf
      exact hkeep k f hf

theorem written_run (sum256 : Bytes → Bytes) (es : List Exchange) :
    Written sum256 es (Session.empty.run sum256 es) := by
  induction es using List.reverseRecOn with
  | nil =>
    intro k f hf
    cases hf
  | append_singleton es e ih =>
    rw [Session.run_snoc]
    exact written_step ih e

/-- A file that is served was left by an exchange for the same query parameters. -/
theorem Written.of_hit {es : List Exchange} {s : Session} {e : Exchange}
    (h : Written sum256 es s) (hfree : CollisionFree sum256 (es ++ [e]))
    (hhit : (s.reply sum256 e).origin = .file) :
    ∃ f, ∃ x ∈ es, s.cache.files.get? (e.key sum256) = some f ∧
      s.writers.get? (e.key sum256) = some x ∧
      Form.SameParams x.request.query e.request.query ∧ x.leaves = some f ∧
      (∀ url rest, upstreamURLs e.request.query = url :: rest →
        s.cache.isCacheFresh e.outside url (e.key sum256) f.modTime = true) ∧
      (s.reply sum256 e).response = serveFileFS e.request rssContentType f := by
  generalize hs : s.step sum256 e = s', hr : s.reply sum256 e = r at *
  cases hs ▸ hr ▸ step_effect sum256 s e with
  | passed => cases hhit
  | generated => cases hhit
  | hit f hfile hfresh =>
    obtain ⟨x, hx, hwriter, hkey, hleaves⟩ := h _ f hfile
    have hparams := sameParams_of_key hfree (List.mem_append_left _ hx)
      (List.mem_append_right _ List.mem_cons_self) hkey
    exact ⟨f, x, hx, hfile, hwriter, hparams, hleaves, hfresh, rfl⟩

end

end Ff
