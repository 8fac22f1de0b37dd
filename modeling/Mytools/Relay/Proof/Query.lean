import Mytools.Bridge.NostrPlain
import Mytools.Relay.Query

/-!
# Answers of the relay's store

A query yields the stored events that satisfy its filter, in the order of their times and IDs. The
texts that the statement reads are the ones that `queryEvents` and the store wrote (`Json.parse`
after `Json.write`), so each condition of the statement is one on the filter and the event.
-/

namespace Relay

open Lib

/-! ## The answer -/

/-- One of the tags has the name and one of the values. -/
def HasTag (tags : List (List String)) (name : String) (values : List String) : Prop :=
  ∃ tag ∈ tags, tag[0]? = some name ∧ ∃ v ∈ values, tag[1]? = some v

/-- The event satisfies the filter. -/
structure Filter.Satisfies (f : Filter) (e : Nostr.Event) : Prop where
  ids : ∀ ids, f.ids = some ids → e.id ∈ ids
  authors : ∀ authors, f.authors = some authors → e.pubKey ∈ authors
  kinds : ∀ kinds, f.kinds = some kinds → e.kind ∈ kinds
  since : f.since ≠ 0 → f.since ≤ e.createdAt
  «until» : f.until ≠ 0 → e.createdAt ≤ f.until
  tags : ∀ name values, f.tags.get? name = some values → HasTag e.tags name (values.getD [])

/-- The order of the answer. -/
def Before (a b : Nostr.Event) : Prop :=
  b.createdAt < a.createdAt ∨ a.createdAt = b.createdAt ∧ compare a.id b.id = .lt

/-- The text of an event is the JSON object of the protocol. -/
structure Encodes (N : Nostr.Library) (e : Nostr.Event) : Prop where
  unmarshal : N.unmarshal (N.marshal e) = some e
  parse : ∃ members, Json.parse (N.marshal e) = some (.obj members) ∧
    members.lookup "tags" = some (.arr (e.tags.map fun tag => .arr (tag.map .str)))

/-! ## Lists -/

theorem jsonEach_jsonList {α : Type} (f : α → Json) (l : List α) :
    ∃ rows, Sql.jsonEach (.text (marshal (jsonList f (some l)))) = .ok rows ∧
      rows.map (·.2) = l.map fun x => Sql.ofJson (f x) := by
  obtain ⟨rows, hrows, hvalues⟩ := Sql.jsonEach_arr (Sql.argument_write htmlEscape (.arr (l.map f)))
  refine ⟨rows, hrows, ?_⟩
  rw [hvalues, List.map_map]
  rfl

/-- A list that is there has the value. -/
theorem listed_eq {α : Type} {f : α → Json} (value : α → Sql.Value)
    (hf : ∀ x, Sql.ofJson (f x) = value x) (hinj : Function.Injective value)
    (hnull : ∀ x, value x ≠ .null) (l : Option (List α)) (x : α) :
    ∃ b, listed l.isSome (marshal (jsonList f l)) (value x) = .ok b ∧
      (b = true ↔ ∀ xs, l = some xs → x ∈ xs) := by
  cases l with
  | none => exact ⟨true, rfl, by simp⟩
  | some xs =>
    obtain ⟨rows, hrows, hvalues⟩ := jsonEach_jsonList f xs
    refine ⟨Sql.selects (Sql.isIn (value x) (rows.map (·.2))), ?_, ?_⟩
    · rw [listed, Option.isSome_some, if_pos rfl, hrows]
      rfl
    · rw [Sql.selects_isIn, hvalues, List.map_congr_left fun x _ => hf x,
        List.mem_map_of_injective hinj]
      simp [hnull]

theorem listed_strings (l : Option (List String)) (x : String) :
    ∃ b, listed l.isSome (marshal (jsonStrings l)) (.text x) = .ok b ∧
      (b = true ↔ ∀ xs, l = some xs → x ∈ xs) := by
  apply listed_eq Sql.Value.text
  · exact fun _ => rfl
  · exact fun _ _ => Sql.Value.text.inj
  · exact fun _ => Sql.Value.noConfusion

theorem listed_kinds (l : Option (List Nat)) (x : Nat) :
    ∃ b, listed l.isSome (marshal (jsonKinds l)) (.int x) = .ok b ∧
      (b = true ↔ ∀ xs, l = some xs → x ∈ xs) := by
  apply listed_eq fun k : Nat => Sql.Value.int k
  · exact fun _ => rfl
  · exact fun _ _ h => Int.ofNat.inj (Sql.Value.int.inj h)
  · exact fun _ => Sql.Value.noConfusion

/-! ## Tags -/

/-- The values of a requested tag; a nil list has none. -/
theorem jsonEach_requested (values : Option (List String)) :
    ∃ rows, Sql.jsonEach (Sql.ofJson (jsonStrings values)) = .ok rows ∧
      rows.map (·.2) = (values.getD []).map .text := by
  cases values with
  | none => exact ⟨[], rfl, rfl⟩
  | some values =>
    obtain ⟨rows, hrows, hvalues⟩ := Sql.jsonEach_arr (Sql.argument_arr (values.map .str))
    refine ⟨rows, hrows, ?_⟩
    rw [hvalues, List.map_map]
    rfl

theorem jsonExtract_tag (tag : List String) (i : Nat) :
    Sql.jsonExtract (Sql.ofJson (.arr (tag.map .str))) (.index i) =
      .ok (tag[i]?.elim .null .text) := by
  rw [Sql.jsonExtract, Sql.argument_arr]
  cases h : tag[i]? <;> simp [bind, Except.bind, pure, Except.pure, Sql.Step.find, h, Sql.ofJson]

theorem tagMatches_ok (name : String) (values : Option (List String)) (k : Sql.Value)
    (tag : List String) :
    ∃ t, tagMatches (.text name, Sql.ofJson (jsonStrings values))
        (k, Sql.ofJson (.arr (tag.map .str))) = .ok t ∧
      (Sql.selects t = true ↔ tag[0]? = some name ∧ ∃ v ∈ values.getD [], tag[1]? = some v) := by
  obtain ⟨rows, hrows, hvalues⟩ := jsonEach_requested values
  refine ⟨Sql.and (Sql.eq (tag[0]?.elim .null .text) (.text name))
    (Sql.isIn (tag[1]?.elim .null .text) (rows.map (·.2))), ?_, ?_⟩
  · rw [tagMatches, jsonExtract_tag, jsonExtract_tag, hrows]
    rfl
  · rw [Sql.selects_and, Bool.and_eq_true, Sql.selects_isIn, hvalues]
    cases h0 : tag[0]? <;> cases h1 : tag[1]? <;> simp [Sql.selects, Sql.eq]

theorem tagMissing_ok {N : Nostr.Library} {e : Nostr.Event} (h : Encodes N e) (name : String)
    (values : Option (List String)) :
    ∃ t, tagMissing (N.marshal e) (.text name, Sql.ofJson (jsonStrings values)) = .ok t ∧
      (Sql.selects t = true ↔ ¬ HasTag e.tags name (values.getD [])) := by
  obtain ⟨members, hparse, htags⟩ := h.parse
  have hextract : Sql.jsonExtract (.text (N.marshal e)) (.member "tags") =
      .ok (Sql.ofJson (.arr (e.tags.map fun tag => .arr (tag.map .str)))) := by
    simp [Sql.jsonExtract, Sql.argument, hparse, bind, Except.bind, pure, Except.pure,
      Sql.Step.find, htags]
  obtain ⟨rows, hrows, hvalues⟩ :=
    Sql.jsonEach_arr (Sql.argument_arr (e.tags.map fun tag => .arr (tag.map .str)))
  rw [List.map_map] at hvalues
  -- Each row is a tag of the event, beside its position.
  obtain ⟨b, hb, hfound⟩ := Sql.existsRow_iff hvalues
    (p := tagMatches (.text name, Sql.ofJson (jsonStrings values)))
    fun r tag _ hr => by
      obtain ⟨k, v⟩ := r
      obtain rfl : v = Sql.ofJson (.arr (tag.map .str)) := hr
      exact tagMatches_ok name values k tag
  refine ⟨some !b, ?_, ?_⟩
  · rw [tagMissing, hextract]
    simp only [bind, Except.bind, hrows, hb, pure, Except.pure]
  · rw [HasTag, ← hfound]
    simp [Sql.selects]

/-- Every requested tag is one of the event's. -/
theorem tagged_ok {N : Nostr.Library} {e : Nostr.Event} (h : Encodes N e)
    (tags : Table String (Option (List String))) :
    ∃ b, tagged (decide (tags.rows ≠ [])) (marshal (jsonTagMap tags)) (N.marshal e) = .ok b ∧
      (b = true ↔ ∀ name values, tags.get? name = some values →
        HasTag e.tags name (values.getD [])) := by
  by_cases hnil : tags.rows = []
  · refine ⟨true, by simp [tagged, hnil, pure, Except.pure], ?_⟩
    simp [Table.get?_eq_some_iff, hnil]
  have hrows := Sql.jsonEach_obj (Sql.argument_write htmlEscape (jsonTagMap tags))
  rw [List.map_map] at hrows
  obtain ⟨b, hb, hmissing⟩ := Sql.existsRow_iff (p := tagMissing (N.marshal e))
    (P := fun t : String × Option (List String) => ¬ HasTag e.tags t.1 (t.2.getD []))
    (List.map_id ((tags.rows.insertionSort fun a b => compare a.1 b.1 ≠ .gt).map fun t =>
      (.text t.1, Sql.ofJson (jsonStrings t.2))))
    fun r t _ hr => by
      obtain rfl : r = (.text t.1, Sql.ofJson (jsonStrings t.2)) := hr
      exact tagMissing_ok h t.1 t.2
  refine ⟨!b, ?_, ?_⟩
  · rw [tagged, decide_eq_true hnil, if_pos rfl, marshal, hrows]
    exact congrArg (Except.map fun v => !v) hb
  · rw [Bool.not_eq_true', ← Bool.not_eq_true, hmissing]
    simp only [List.mem_insertionSort, Table.get?_eq_some_iff, not_exists, not_and, not_not]
    exact ⟨fun h name values hm => h (name, values) hm, fun h t hm => h t.1 t.2 hm⟩

/-! ## The condition -/

/-- The row of an event is selected if the event satisfies the filter. -/
theorem selects_ok {N : Nostr.Library} {e : Nostr.Event} (h : Encodes N e) (f : Filter) :
    ∃ b, f.params.selects (e.id, eventRow N e) = .ok b ∧ (b = true ↔ f.Satisfies e) := by
  obtain ⟨ids, hids, hids'⟩ := listed_strings f.ids e.id
  obtain ⟨authors, hauthors, hauthors'⟩ := listed_strings f.authors e.pubKey
  obtain ⟨kinds, hkinds, hkinds'⟩ := listed_kinds f.kinds e.kind
  obtain ⟨tags, htags, htags'⟩ := tagged_ok h f.tags
  refine ⟨ids && authors && kinds && (!f.params.hasSince || f.since ≤ e.createdAt) &&
    (!f.params.hasUntil || e.createdAt ≤ f.until) && tags, ?_, ?_⟩
  · simp only [AllEventsParams.selects, Filter.params, eventRow, hids, hauthors, hkinds,
      htags, bind, Except.bind, pure, Except.pure]
    rfl
  · simp only [Bool.and_eq_true, Bool.or_eq_true, hids', hauthors', hkinds', htags', Filter.params,
      Bool.not_eq_true', decide_eq_false_iff_not, decide_eq_true_eq, not_not]
    constructor
    · rintro ⟨⟨⟨⟨⟨hi, ha⟩, hk⟩, hs⟩, hu⟩, ht⟩
      exact ⟨hi, ha, hk, hs.resolve_left, hu.resolve_left, ht⟩
    · intro hf
      exact ⟨⟨⟨⟨⟨hf.ids, hf.authors⟩, hf.kinds⟩, Decidable.or_iff_not_imp_left.2 hf.since⟩,
        Decidable.or_iff_not_imp_left.2 hf.until⟩, hf.tags⟩

/-! ## The order -/

theorem rowLe_iff (a b : String × EventRow) : rowLe a b = true ↔
    b.2.createdAt < a.2.createdAt ∨ a.2.createdAt = b.2.createdAt ∧ compare a.1 b.1 ≠ .gt := by
  simp [rowLe]

theorem rowLe_total (a b : String × EventRow) : rowLe a b = true ∨ rowLe b a = true := by
  rw [rowLe_iff, rowLe_iff]
  rcases lt_trichotomy a.2.createdAt b.2.createdAt with h | h | h
  · exact .inr (.inl h)
  · by_cases hgt : compare a.1 b.1 = .gt
    · refine .inr (.inr ⟨h.symm, ?_⟩)
      have hswap : compare b.1 a.1 = (compare a.1 b.1).swap := Std.OrientedCmp.eq_swap
      rw [hswap, hgt]
      decide
    · exact .inl (.inr ⟨h, hgt⟩)
  · exact .inl (.inl h)

theorem rowLe_trans {a b c : String × EventRow} (hab : rowLe a b = true) (hbc : rowLe b c = true) :
    rowLe a c = true := by
  rw [rowLe_iff] at hab hbc ⊢
  rcases hab with hab | ⟨hab, hid⟩
  · rcases hbc with hbc | ⟨hbc, -⟩
    · exact .inl (hbc.trans hab)
    · exact .inl (hbc ▸ hab)
  · rcases hbc with hbc | ⟨hbc, hid'⟩
    · exact .inl (hab ▸ hbc)
    · refine .inr ⟨hab.trans hbc, ?_⟩
      rw [Ne, Ordering.ne_gt_iff_isLE] at hid hid' ⊢
      exact Std.TransCmp.isLE_trans hid hid'

theorem before_of_rowLe {N : Nostr.Library} {a b : Nostr.Event} (hne : a.id ≠ b.id)
    (h : rowLe (a.id, eventRow N a) (b.id, eventRow N b) = true) : Before a b := by
  rcases (rowLe_iff _ _).1 h with h | ⟨h, hid⟩
  · exact .inl h
  · refine .inr ⟨h, ?_⟩
    cases hc : compare a.id b.id with
    | lt => rfl
    | eq => exact absurd (Std.LawfulEqCmp.eq_of_compare hc) hne
    | gt => exact absurd hc hid

/-! ## A codec -/

/-- The JSON object of an event. -/
def jsonEvent (e : Nostr.Event) : Json :=
  .obj [("kind", .num e.kind), ("id", .str e.id), ("pubkey", .str e.pubKey),
    ("created_at", .num e.createdAt), ("tags", .arr (e.tags.map fun tag => .arr (tag.map .str))),
    ("content", .str e.content), ("sig", .str e.sig)]

def readText : Json → Option String
  | .str s => some s
  | _ => none

def readInt : Json → Option Int
  | .num n => some n
  | _ => none

def readList {α : Type} (read : Json → Option α) : Json → Option (List α)
  | .arr items => items.mapM read
  | _ => none

def readEvent : Json → Option Nostr.Event
  | .obj members => do
    pure {
      id := ← members.lookup "id" >>= readText
      pubKey := ← members.lookup "pubkey" >>= readText
      createdAt := ← members.lookup "created_at" >>= readInt
      kind := (← members.lookup "kind" >>= readInt).toNat
      tags := ← members.lookup "tags" >>= readList (readList readText)
      content := ← members.lookup "content" >>= readText
      sig := ← members.lookup "sig" >>= readText }
  | _ => none

theorem readList_map {α : Type} {read : Json → Option α} (f : α → Json)
    (h : ∀ x, read (f x) = some x) (l : List α) : readList read (.arr (l.map f)) = some l := by
  rw [readList, List.mapM_map]
  induction l with
  | nil => rfl
  | cons x l ih => simp [List.mapM_cons, h, ih]

theorem readEvent_jsonEvent (e : Nostr.Event) : readEvent (jsonEvent e) = some e := by
  have htags : readList (readList readText) (.arr (e.tags.map fun tag => .arr (tag.map .str))) =
      some e.tags :=
    readList_map _ (readList_map Json.str fun _ => rfl) e.tags
  have hread : readEvent (jsonEvent e) =
      (readList (readList readText) (.arr (e.tags.map fun tag => .arr (tag.map .str)))).bind
        fun tags => some { e with tags } := rfl
  rw [hread, htags]
  rfl

def jsonLibrary : Nostr.Library :=
  { Nostr.Library.plain with
    unmarshal := fun s => (Json.parse s).bind readEvent
    marshal := fun e => String.ofList ((jsonEvent e).write fun _ => false) }

theorem encodes_json (e : Nostr.Event) : Encodes jsonLibrary e where
  unmarshal := by
    simp only [jsonLibrary, Json.parse_write, Option.bind_some, readEvent_jsonEvent]
  parse := ⟨_, Json.parse_write _ _, rfl⟩

/-! ## The query -/

theorem decodeAll_marshal {N : Nostr.Library} :
    ∀ {es : List Nostr.Event}, (∀ e ∈ es, Encodes N e) → decodeAll N (es.map N.marshal) = .ok es
  | [], _ => rfl
  | e :: es, h => by
    have ih := decodeAll_marshal fun e he => h e (List.mem_cons_of_mem _ he)
    simp only [List.map_cons, decodeAll, (h e List.mem_cons_self).unmarshal, ih]
    rfl

theorem limited_map {α β : Type} (limit : Int) (f : α → β) (l : List α) :
    (limited limit l).map f = limited limit (l.map f) := by
  unfold limited
  split
  · exact List.map_take
  · rfl

theorem limited_subset {α : Type} (limit : Int) (l : List α) : limited limit l ⊆ l := by
  unfold limited
  split
  · exact List.take_subset _ _
  · exact List.Subset.refl _

/-- `QueryEvents` yields the stored events that satisfy the filter, by descending time and ascending
ID, cut to the limit. -/
theorem queryEvents_answer {N : Nostr.Library} {db : DB} {stored : List Nostr.Event} (f : Filter)
    (hrows : db.events.rows = stored.map fun e => (e.id, eventRow N e))
    (henc : ∀ e ∈ stored, Encodes N e) :
    ∃ all : List Nostr.Event, (∀ e, e ∈ all ↔ e ∈ stored ∧ f.Satisfies e) ∧ all.Nodup ∧
      all.Pairwise Before ∧ queryEvents N db f =
        .ok (if f.limitZero then [] else if 0 < f.limit then all.take f.limit.toNat else all) := by
  classical
  have hids : (stored.map (·.id)).Nodup := by
    have := db.events.nodup
    rwa [hrows, List.map_map] at this
  have hfilter : Sql.filterRows db.events.rows f.params.selects =
      .ok ((stored.filter fun e => f.Satisfies e).map fun e => (e.id, eventRow N e)) := by
    rw [hrows]
    apply Sql.filterRows_map
    intro e he
    obtain ⟨b, hb, hiff⟩ := selects_ok (henc e he) f
    rw [hb, Except.ok.injEq, Bool.eq_iff_iff, hiff, decide_eq_true_iff]
  have htotal : Std.Total fun a b : Nostr.Event =>
      rowLe (a.id, eventRow N a) (b.id, eventRow N b) = true := ⟨fun a b => rowLe_total _ _⟩
  have htrans : IsTrans Nostr.Event fun a b =>
      rowLe (a.id, eventRow N a) (b.id, eventRow N b) = true := ⟨fun _ _ _ => rowLe_trans⟩
  let all := (stored.filter fun e => f.Satisfies e).insertionSort fun a b =>
    rowLe (a.id, eventRow N a) (b.id, eventRow N b) = true
  have hperm : all.Perm (stored.filter fun e => f.Satisfies e) := List.perm_insertionSort _ _
  have hmem : ∀ e, e ∈ all ↔ e ∈ stored ∧ f.Satisfies e := by
    intro e
    rw [hperm.mem_iff, List.mem_filter, decide_eq_true_iff]
  have hne : (all.map (·.id)).Nodup :=
    (hperm.map _).nodup_iff.2 (hids.sublist (List.filter_sublist.map _))
  refine ⟨all, hmem, hne.of_map _, ?_, ?_⟩
  · have hle := List.pairwise_insertionSort (fun a b : Nostr.Event =>
      rowLe (a.id, eventRow N a) (b.id, eventRow N b) = true) (stored.filter fun e => f.Satisfies e)
    exact (hle.and (List.pairwise_map.1 hne)).imp fun h => before_of_rowLe h.2 h.1
  · rw [queryEvents]
    split
    · rfl
    have hsort : ((stored.filter fun e => f.Satisfies e).map fun e =>
        (e.id, eventRow N e)).insertionSort (fun a b => rowLe a b = true) =
          all.map fun e => (e.id, eventRow N e) :=
      (List.map_insertionSort _ _ (fun e => (e.id, eventRow N e)) _ fun _ _ _ _ => Iff.rfl).symm
    have hall : db.allEvents f.params = .ok ((limited f.limit all).map N.marshal) := by
      rw [DB.allEvents, hfilter]
      simp only [bind, Except.bind, pure, Except.pure, hsort, ← limited_map, List.map_map]
      rfl
    rw [hall]
    exact decodeAll_marshal fun e he => henc e ((hmem e).1 (limited_subset _ _ he)).1

theorem queryEvents_answer_tagged :
    ∃ all : List Nostr.Event,
      (∀ e, e ∈ all ↔ e ∈ [⟨"a", "p", 5, 1, [["t", "x"]], "", ""⟩, ⟨"b", "p", 5, 1, [], "", ""⟩] ∧
        Filter.Satisfies
          { authors := some ["p"], tags := Table.empty.set "t" (some ["x", "y"]) } e) ∧
      all.Nodup ∧ all.Pairwise Before ∧
      queryEvents jsonLibrary
        ⟨⟨[⟨"a", "p", 5, 1, [["t", "x"]], "", ""⟩, ⟨"b", "p", 5, 1, [], "", ""⟩].map fun e =>
          (e.id, eventRow jsonLibrary e), by decide⟩, .empty⟩
        { authors := some ["p"], tags := Table.empty.set "t" (some ["x", "y"]) } = .ok all :=
  queryEvents_answer { authors := some ["p"], tags := Table.empty.set "t" (some ["x", "y"]) } rfl
    fun e _ => encodes_json e

end Relay
