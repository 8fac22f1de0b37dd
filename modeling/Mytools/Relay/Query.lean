import Mathlib.Data.List.Sort
import Mytools.Lib.Sql
import Mytools.Relay.Store

/-!
# Queries of the relay's store (`nostr-relay/store/sqlite.go`, `query.sql`)

`queryEvents` writes the lists of a filter as JSON texts, and the statement `AllEvents` reads them
back; the condition on tags joins the texts of the filter and of the stored event.
-/

namespace Relay

open Lib

/-- `nostr.Filter`; `none` is a nil list, which is absent. -/
structure Filter where
  ids : Option (List String) := none
  authors : Option (List String) := none
  kinds : Option (List Nat) := none
  tags : Table String (Option (List String)) := .empty
  since : Int := 0
  «until» : Int := 0
  limit : Int := 0
  limitZero : Bool := false

/-! ## Arguments -/

/-- The characters that `json.Marshal` escapes although JSON does not ask for it. -/
def htmlEscape (c : Char) : Bool :=
  c = '<' || c = '>' || c = '&' || c = Char.ofNat 0x2028 || c = Char.ofNat 0x2029

/-- `json.Marshal` -/
def marshal (j : Json) : String := String.ofList (j.write htmlEscape)

/-- A slice; nil is `null`. -/
def jsonList {α : Type} (f : α → Json) (l : Option (List α)) : Json :=
  l.elim .null fun l => .arr (l.map f)

def jsonKinds (l : Option (List Nat)) : Json := jsonList (fun k : Nat => .num k) l

def jsonStrings (l : Option (List String)) : Json := jsonList .str l

/-- A map of slices, by its sorted keys. -/
def jsonTagMap (tags : Table String (Option (List String))) : Json :=
  .obj ((tags.rows.insertionSort fun a b => compare a.1 b.1 ≠ .gt).map fun t =>
    (t.1, jsonStrings t.2))

structure AllEventsParams where
  hasIDs : Bool
  idsJSON : String
  hasAuthors : Bool
  authorsJSON : String
  hasKinds : Bool
  kindsJSON : String
  hasSince : Bool
  since : Int
  hasUntil : Bool
  «until» : Int
  hasTags : Bool
  tagsJSON : String
  resultLimit : Int

def Filter.params (f : Filter) : AllEventsParams where
  hasIDs := f.ids.isSome
  idsJSON := marshal (jsonStrings f.ids)
  hasAuthors := f.authors.isSome
  authorsJSON := marshal (jsonStrings f.authors)
  hasKinds := f.kinds.isSome
  kindsJSON := marshal (jsonKinds f.kinds)
  hasSince := f.since ≠ 0
  since := f.since
  hasUntil := f.until ≠ 0
  «until» := f.until
  hasTags := f.tags.rows ≠ []
  tagsJSON := marshal (jsonTagMap f.tags)
  resultLimit := f.limit

/-! ## The statement -/

/-- `NOT has OR v IN (SELECT value FROM json_each(json))` -/
def listed (has : Bool) (json : String) (v : Sql.Value) : Except Sql.Err Bool :=
  if has then do
    let rows ← Sql.jsonEach (.text json)
    pure (Sql.selects (Sql.isIn v (rows.map (·.2))))
  else pure true

/-- One tag of an event has the name and one of the values of a requested tag. -/
def tagMatches (requested eventTag : Sql.Value × Sql.Value) : Except Sql.Err (Option Bool) := do
  let name ← Sql.jsonExtract eventTag.2 (.index 0)
  let value ← Sql.jsonExtract eventTag.2 (.index 1)
  let values ← Sql.jsonEach requested.2
  pure (Sql.and (Sql.eq name requested.1) (Sql.isIn value (values.map (·.2))))

/-- The requested tags of which the event has none. -/
def tagMissing (eventJSON : String) (requested : Sql.Value × Sql.Value) :
    Except Sql.Err (Option Bool) := do
  let tags ← Sql.jsonExtract (.text eventJSON) (.member "tags")
  let rows ← Sql.jsonEach tags
  let found ← Sql.existsRow rows (tagMatches requested)
  pure (some !found)

def tagged (has : Bool) (json eventJSON : String) : Except Sql.Err Bool :=
  if has then do
    let requested ← Sql.jsonEach (.text json)
    let missing ← Sql.existsRow requested (tagMissing eventJSON)
    pure !missing
  else pure true

/-- The condition of `AllEvents` on a row. -/
def AllEventsParams.selects (p : AllEventsParams) (row : String × EventRow) :
    Except Sql.Err Bool := do
  let ids ← listed p.hasIDs p.idsJSON (.text row.1)
  let authors ← listed p.hasAuthors p.authorsJSON (.text row.2.pubkey)
  let kinds ← listed p.hasKinds p.kindsJSON (.int row.2.kind)
  let tags ← tagged p.hasTags p.tagsJSON row.2.eventJSON
  pure (ids && authors && kinds && (!p.hasSince || p.since ≤ row.2.createdAt) &&
    (!p.hasUntil || row.2.createdAt ≤ p.until) && tags)

/-- `ORDER BY created_at DESC, id ASC` -/
def rowLe (a b : String × EventRow) : Bool :=
  b.2.createdAt < a.2.createdAt || (a.2.createdAt = b.2.createdAt && compare a.1 b.1 ≠ .gt)

/-- `LIMIT`; a limit that is not positive is none. -/
def limited {α : Type} (limit : Int) (l : List α) : List α :=
  if 0 < limit then l.take limit.toNat else l

/-- `AllEvents` -/
def DB.allEvents (db : DB) (p : AllEventsParams) : Except Sql.Err (List String) := do
  let rows ← Sql.filterRows db.events.rows p.selects
  pure ((limited p.resultLimit (rows.insertionSort fun a b => rowLe a b = true)).map
    (·.2.eventJSON))

/-! ## The query -/

inductive QueryErr
  | statement (e : Sql.Err)
  | decodeStoredEvent
  deriving DecidableEq, Repr

def decodeAll (N : Nostr.Library) : List String → Except QueryErr (List Nostr.Event)
  | [] => .ok []
  | text :: texts =>
    match N.unmarshal text with
    | none => .error .decodeStoredEvent
    | some e => do
      let es ← decodeAll N texts
      pure (e :: es)

/-- `QueryEvents`: the events that the iterator yields. -/
def queryEvents (N : Nostr.Library) (db : DB) (f : Filter) : Except QueryErr (List Nostr.Event) :=
  if f.limitZero then .ok []
  else do
    let encoded ← (db.allEvents f.params).mapError .statement
    decodeAll N encoded

end Relay
