import Mytools.Ff.Proof.Session

/-!
# What a cache hit repeats

A hit is answered by the file server, which knows the body that was cached and not the status that
came with it. So it repeats the answer of the wrapped handler for the same query parameters exactly
when the status is the one that the file server gives to the request, and the file is whole.
-/

namespace Ff

open Lib CacheMiddleware

/-- The response has the status that the wrapped handler answered to `x` and, for a GET request, the
body. -/
def Repeats (x : Exchange) (r : Request) (response : Response) : Prop :=
  response.status = x.answer.status ∧ (r.method = .get → response.body = x.answer.body)

/-- The file server gives what the wrapped handler answered to `x`. Apart from the paths to which it
does not send the file, that is the status 200. -/
def Repeatable (x : Exchange) (r : Request) : Prop :=
  if containsDotDot r.path then
    x.answer.status = 400 ∧
      (r.method = .get → x.answer.body = Bytes.ofString "invalid URL path" ++ [10])
  else if isIndexPage r.path then x.answer.status = 301 ∧ r.method ≠ .get
  else x.answer.status = 200 ∧ (r.method = .get → x.Whole)

variable {sum256 : Bytes → Bytes} {x e : Exchange} {f : File}

theorem repeats_serveFileFS_iff (h : x.leaves = some f) (r : Request) :
    Repeats x r (serveFileFS r rssContentType f) ↔ Repeatable x r := by
  have hbody := (x.leaves_eq_some h).1
  unfold serveFileFS Repeats Repeatable
  split
  · simp only [httpError, eq_comm]
  · split
    · simp only [eq_comm (a := 301), eq_comm (a := ([] : Bytes)), hbody, imp_false, ne_eq]
    · rw [← Exchange.body_eq_iff_whole h]
      refine and_congr eq_comm (forall_congr' fun hmethod => ?_)
      rw [hmethod]
      rfl

/-- A response from the cache file repeats what the wrapped handler answered when the file was
written, for the same query parameters, exactly when the file server gives that. -/
theorem hit_repeats_iff (sum256 : Bytes → Bytes) (es : List Exchange) (e : Exchange)
    (hfree : CollisionFree sum256 (es ++ [e]))
    (hhit : ((Session.empty.run sum256 es).reply sum256 e).origin = .file) :
    ∃ x ∈ es, (Session.empty.run sum256 es).writers.get? (e.key sum256) = some x ∧
      Form.SameParams x.request.query e.request.query ∧
      (Repeats x e.request ((Session.empty.run sum256 es).reply sum256 e).response ↔
        Repeatable x e.request) := by
  obtain ⟨f, x, hx, -, hwriter, hparams, hleaves, -, hresponse⟩ :=
    (written_run sum256 es).of_hit hfree hhit
  refine ⟨x, hx, hwriter, hparams, ?_⟩
  rw [hresponse]
  exact repeats_serveFileFS_iff hleaves e.request

/-- A GET request without query parameters for which all files can be written. -/
def bareGet (next : Request → Answer) : Exchange where
  request := ⟨.get, [47], Table.empty⟩
  outside :=
    { validate := fun _ _ => none, validateAt := 0, removes := true, next := next, nextAt := 0,
      capture := fun _ => none, captureAt := 0, write := .done, writeAt := 0 }

theorem collisionFree_id (es : List Exchange) : CollisionFree id es := fun _ _ _ _ h => h

/-- A feed is answered. -/
def feedGet : Exchange := bareGet fun _ => ⟨none, [[49]]⟩

theorem hit_repeats_feed : ∃ x, Repeatable x feedGet.request ∧
    Repeats x feedGet.request ((Session.empty.run id [feedGet]).reply id feedGet).response := by
  obtain ⟨x, -, hwriter, -, hiff⟩ :=
    hit_repeats_iff id [feedGet] feedGet (collisionFree_id _) (by decide)
  have hx : x = feedGet := (Option.some.inj hwriter).symm
  have hok : Repeatable x feedGet.request := by
    rw [hx]
    exact ⟨rfl, fun _ _ h => (by cases h)⟩
  exact ⟨x, hok, hiff.2 hok⟩

/-- A feed library in which nothing can be fetched. -/
def noFeeds : Feeds Unit := ⟨fun _ => .error [], fun _ => .ok, fun _ => .ok []⟩

/-- The URL is missing. -/
def noURLGet : Exchange := bareGet (createHandler noFeeds)

/-- The error of a request without URL is answered with 400, and from the cache with 200. -/
theorem noURL_becomes_ok : (Session.empty.reply id noURLGet).response.status = 400 ∧
    ((Session.empty.run id [noURLGet]).reply id noURLGet).origin = .file ∧
    ((Session.empty.run id [noURLGet]).reply id noURLGet).response.status = 200 ∧
    ∃ x, (Session.empty.run id [noURLGet]).writers.get? (noURLGet.key id) = some x ∧
      ¬ Repeats x noURLGet.request
        ((Session.empty.run id [noURLGet]).reply id noURLGet).response := by
  refine ⟨by decide, by decide, by decide, noURLGet, rfl, ?_⟩
  intro h
  exact absurd h.1 (by decide)

end Ff
