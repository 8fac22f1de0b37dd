import Mytools.Lib.Json

/-!
# Conditions of SQL

Values, the logic with unknown truth values (`none`) and the functions on JSON texts of SQLite
(`json_each`, `json_extract`). A text that is not JSON is an error of the statement.
-/

namespace Lib.Sql

inductive Value where
  | null
  | int (n : Int)
  | text (s : String)
  deriving DecidableEq, Repr

inductive Err
  | malformedJSON
  deriving DecidableEq, Repr

/-! ## Truth values -/

/-- `a = b` -/
def eq : Value → Value → Option Bool
  | .null, _ | _, .null => none
  | a, b => some (a = b)

/-- `v IN (l)`: unknown if no value is equal and a value is unknown. -/
def isIn (v : Value) (l : List Value) : Option Bool :=
  if l = [] then some false
  else if l.any fun x => eq v x = some true then some true
  else if v = .null ∨ .null ∈ l then none
  else some false

def and : Option Bool → Option Bool → Option Bool
  | some false, _ | _, some false => some false
  | some true, some true => some true
  | _, _ => none

/-- A row is selected if its condition is true. -/
def selects (t : Option Bool) : Bool := t = some true

/-- `EXISTS (SELECT 1 FROM rows WHERE p)` -/
def existsRow {α : Type} (rows : List α) (p : α → Except Err (Option Bool)) : Except Err Bool :=
  match rows with
  | [] => .ok false
  | r :: rows => do
    let t ← p r
    if selects t then pure true else existsRow rows p

/-- The rows with a true condition. -/
def filterRows {α : Type} (rows : List α) (p : α → Except Err Bool) : Except Err (List α) :=
  match rows with
  | [] => .ok []
  | r :: rows => do
    let t ← p r
    let rest ← filterRows rows p
    pure (if t then r :: rest else rest)

theorem selects_and (s t : Option Bool) : selects (and s t) = (selects s && selects t) := by
  rcases s with _ | _ | _ <;> rcases t with _ | _ | _ <;> rfl

theorem selects_isIn (v : Value) (l : List Value) :
    selects (isIn v l) = true ↔ v ≠ .null ∧ v ∈ l := by
  have heq : ∀ x, eq v x = some true ↔ v ≠ .null ∧ x = v := by
    intro x
    cases v <;> cases x <;> simp [eq, eq_comm]
  have hany : (l.any fun x => eq v x = some true) = true ↔ v ≠ .null ∧ v ∈ l := by
    simp only [List.any_eq_true, decide_eq_true_eq, heq]
    constructor
    · rintro ⟨x, hx, hv, rfl⟩
      exact ⟨hv, hx⟩
    · rintro ⟨hv, hm⟩
      exact ⟨v, hm, hv, rfl⟩
  unfold isIn
  by_cases hl : l = []
  · simp [hl, selects]
  by_cases ha : (l.any fun x => eq v x = some true) = true
  · rw [if_neg hl, if_pos ha]
    simpa [selects] using hany.1 ha
  · rw [if_neg hl, if_neg ha, ← hany]
    simp only [ha]
    split <;> simp [selects]

/-- Rows that stand for items, with a condition that is computed without errors: there is a row as
there is an item. -/
theorem existsRow_iff {α β γ : Type} {f : α → γ} {g : β → γ} {p : α → Except Err (Option Bool)}
    {P : β → Prop} : ∀ {rows : List α} {items : List β}, rows.map f = items.map g →
      (∀ r, ∀ x ∈ items, f r = g x → ∃ t, p r = .ok t ∧ (selects t = true ↔ P x)) →
      ∃ b, existsRow rows p = .ok b ∧ (b = true ↔ ∃ x ∈ items, P x)
  | [], [], _, _ => ⟨false, rfl, by simp⟩
  | r :: rows, x :: items, hmap, h => by
    rw [List.map_cons, List.map_cons, List.cons.injEq] at hmap
    obtain ⟨t, ht, hs⟩ := h r x List.mem_cons_self hmap.1
    rw [existsRow, ht]
    by_cases hx : P x
    · refine ⟨true, ?_, ?_⟩
      · simp [bind, Except.bind, hs.2 hx, pure, Except.pure]
      · simp [hx]
    · obtain ⟨b, hb, hiff⟩ := existsRow_iff hmap.2 fun r x hm => h r x (List.mem_cons_of_mem _ hm)
      refine ⟨b, ?_, ?_⟩
      · simp [bind, Except.bind, mt hs.1 hx, hb]
      · rw [hiff]
        simp [hx]

/-- The rows that hold the items, with a condition that is computed without errors. -/
theorem filterRows_map {α β : Type} {g : β → α} {p : α → Except Err Bool} {q : β → Bool} :
    ∀ {l : List β}, (∀ x ∈ l, p (g x) = .ok (q x)) →
      filterRows (l.map g) p = .ok ((l.filter q).map g)
  | [], _ => rfl
  | x :: l, h => by
    have ih := filterRows_map fun x hx => h x (List.mem_cons_of_mem _ hx)
    rw [List.map_cons, filterRows, h x List.mem_cons_self, ih, List.filter_cons]
    cases hq : q x <;> rfl

/-! ## JSON -/

/-- The text of a value inside another one. Nothing is escaped without need. -/
def jsonText (j : Json) : String := String.ofList (Json.write (fun _ => false) j)

/-- The value of a column that holds a JSON value. -/
def ofJson : Json → Value
  | .null => .null
  | .bool b => .int (if b then 1 else 0)
  | .num n => .int n
  | .str s => .text s
  | .arr items => .text (jsonText (.arr items))
  | .obj members => .text (jsonText (.obj members))

/-- The JSON value of an argument, if it is not `NULL`. -/
def argument : Value → Except Err (Option Json)
  | .null => .ok none
  | .int n => .ok (some (.num n))
  | .text s =>
    match Json.parse s with
    | some j => .ok (some j)
    | none => .error .malformedJSON

/-- The rows of `json_each`: key and value. -/
def jsonEach (v : Value) : Except Err (List (Value × Value)) := do
  match ← argument v with
  | none => pure []
  | some (.arr items) => pure (items.zipIdx.map fun x => (.int x.2, ofJson x.1))
  | some (.obj members) => pure (members.map fun m => (.text m.1, ofJson m.2))
  | some j => pure [(.null, ofJson j)]

/-- A path of `json_extract` of one step. -/
inductive Step where
  | member (name : String)
  | index (i : Nat)
  deriving DecidableEq, Repr

def Step.find : Step → Json → Option Json
  | .member name, .obj members => members.lookup name
  | .index i, .arr items => items[i]?
  | _, _ => none

def jsonExtract (v : Value) (step : Step) : Except Err Value := do
  let j ← argument v
  pure ((j.bind step.find).elim .null ofJson)

/-- A text that was written is read as what was written. -/
theorem argument_write (escape : Char → Bool) (j : Json) :
    argument (.text (String.ofList (Json.write escape j))) = .ok (some j) := by
  rw [argument, Json.parse_write]

theorem argument_arr (items : List Json) :
    argument (ofJson (.arr items)) = .ok (some (.arr items)) :=
  argument_write _ _

/-- The rows of an array: one for every item, with a number as its key. -/
theorem jsonEach_arr {v : Value} {items : List Json} (h : argument v = .ok (some (.arr items))) :
    ∃ rows, jsonEach v = .ok rows ∧ rows.map (·.2) = items.map ofJson := by
  refine ⟨items.zipIdx.map fun x => (.int x.2, ofJson x.1), ?_, ?_⟩
  · rw [jsonEach, h]
    rfl
  · rw [List.map_map]
    calc items.zipIdx.map (fun x => ofJson x.1) = (items.zipIdx.map (·.1)).map ofJson := by
          rw [List.map_map]
          rfl
      _ = items.map ofJson := by rw [List.zipIdx_map_fst]

theorem jsonEach_obj {v : Value} {members : List (String × Json)}
    (h : argument v = .ok (some (.obj members))) :
    jsonEach v = .ok (members.map fun m => (.text m.1, ofJson m.2)) := by
  rw [jsonEach, h]
  rfl

end Lib.Sql
