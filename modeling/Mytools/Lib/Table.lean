import Mathlib.Data.List.Nodup

/-!
# Tables with a primary key

A finite table of rows with distinct keys. `set` is an upsert, `erase` and `filter` are deletions.
A table is read through `get?`; the lemmas give `get?` after each operation.
-/

namespace Lib

structure Table (K V : Type) where
  rows : List (K × V)
  nodup : (rows.map (·.1)).Nodup

namespace Table

variable {K V : Type} [DecidableEq K]

def empty : Table K V := ⟨[], List.nodup_nil⟩

def get? (t : Table K V) (k : K) : Option V := t.rows.lookup k

def filter (t : Table K V) (p : K → V → Bool) : Table K V :=
  ⟨t.rows.filter fun x => p x.1 x.2, t.nodup.sublist (List.filter_sublist.map _)⟩

def erase (t : Table K V) (k : K) : Table K V := t.filter fun k' _ => k' ≠ k

/-- Insert the row, or replace the one with its key. -/
def set (t : Table K V) (k : K) (v : V) : Table K V where
  rows := (k, v) :: (t.erase k).rows
  nodup := by
    rw [List.map_cons, List.nodup_cons]
    exact ⟨by simp [erase, filter], (t.erase k).nodup⟩

/-- `set` with a value that may not be there. -/
def setOption (t : Table K V) (k : K) : Option V → Table K V
  | none => t
  | some v => t.set k v

/-- The rows inserted one after the other. -/
def setAll (t : Table K V) (rows : List (K × V)) : Table K V :=
  rows.foldl (fun t r => t.set r.1 r.2) t

/-- The tables hold the same rows, in any order. -/
def Same (t t' : Table K V) : Prop := ∀ k, t.get? k = t'.get? k

variable {t : Table K V} {k k' : K} {v : V}

theorem get?_eq_some_iff : t.get? k = some v ↔ (k, v) ∈ t.rows := by
  constructor
  · intro h
    obtain ⟨l₁, l₂, he, -⟩ := List.lookup_eq_some_iff.1 h
    simp [he]
  · intro h
    obtain ⟨l₁, l₂, he⟩ := List.append_of_mem h
    refine List.lookup_eq_some_iff.2 ⟨l₁, l₂, he, fun x hx => ?_⟩
    rw [bne_iff_ne]
    have hn := t.nodup
    rw [he, List.map_append, List.map_cons, List.nodup_append] at hn
    have hne := hn.2.2 x.1 (List.mem_map_of_mem hx) k List.mem_cons_self
    exact Ne.symm hne

@[simp] theorem get?_empty : (empty : Table K V).get? k = none := rfl

theorem get?_filter {p : K → V → Bool} : (t.filter p).get? k = (t.get? k).filter (p k) := by
  apply Option.ext
  intro v
  rw [get?_eq_some_iff, Option.filter_eq_some_iff, get?_eq_some_iff]
  exact List.mem_filter

theorem get?_erase : (t.erase k).get? k' = if k' = k then none else t.get? k' := by
  rw [erase, get?_filter]
  split
  · rename_i h
    cases t.get? k' <;> simp [h]
  · rename_i h
    cases t.get? k' <;> simp [h]

theorem get?_set : (t.set k v).get? k' = if k' = k then some v else t.get? k' := by
  by_cases h : k' = k
  · simp [set, get?, h]
  · have he : (t.set k v).get? k' = (t.erase k).get? k' := by
      simp only [set, get?, List.lookup_cons, beq_eq_false_iff_ne.2 h]
    rw [he, get?_erase, if_neg h, if_neg h]

theorem get?_set_eq_some {x : V} :
    (t.set k v).get? k' = some x ↔ (k' = k ∧ v = x) ∨ (k' ≠ k ∧ t.get? k' = some x) := by
  rw [get?_set]
  split <;> simp [*]

theorem get?_setOption {o : Option V} :
    (t.setOption k o).get? k' = if k' = k then (o <|> t.get? k) else t.get? k' := by
  cases o with
  | some v => exact get?_set
  | none =>
    split
    · rename_i h
      rw [h]
      rfl
    · rfl

theorem get?_of_erase {x : V} (h : (t.erase k).get? k' = some x) : t.get? k' = some x := by
  rw [get?_erase] at h
  split at h
  · cases h
  · exact h

theorem get?_setAll_eq_some : ∀ {rows : List (K × V)} {t : Table K V}, (rows.map (·.1)).Nodup →
    ((t.setAll rows).get? k = some v ↔
      (k, v) ∈ rows ∨ k ∉ rows.map (·.1) ∧ t.get? k = some v)
  | [], t, _ => by simp [setAll]
  | r :: rows, t, hn => by
    rw [List.map_cons, List.nodup_cons] at hn
    have ih := get?_setAll_eq_some (t := t.set r.1 r.2) hn.2
    have hfold : t.setAll (r :: rows) = (t.set r.1 r.2).setAll rows := rfl
    rw [hfold, ih, get?_set_eq_some, List.map_cons, List.mem_cons, List.mem_cons, Prod.ext_iff,
      not_or]
    constructor
    · rintro (h | ⟨hk, ⟨he, hv⟩ | ⟨hne, hv⟩⟩)
      · exact .inl (.inr h)
      · exact .inl (.inl ⟨he, hv.symm⟩)
      · exact .inr ⟨⟨hne, hk⟩, hv⟩
    · rintro ((⟨he, hv⟩ | h) | ⟨⟨hne, hk⟩, hv⟩)
      · exact .inr ⟨fun hk => hn.1 (he ▸ hk), .inl ⟨he, hv.symm⟩⟩
      · exact .inl h
      · exact .inr ⟨hk, .inr ⟨hne, hv⟩⟩

namespace Same

variable {t₁ t₂ t₃ : Table K V}

theorem refl (t : Table K V) : Same t t := fun _ => rfl

theorem symm (h : Same t₁ t₂) : Same t₂ t₁ := fun k => (h k).symm

theorem trans (h : Same t₁ t₂) (h' : Same t₂ t₃) : Same t₁ t₃ := fun k => (h k).trans (h' k)

/-- Tables with the same rows in another order. -/
theorem of_perm (h : t₁.rows.Perm t₂.rows) : Same t₁ t₂ := by
  intro k
  apply Option.ext
  intro v
  rw [get?_eq_some_iff, get?_eq_some_iff, h.mem_iff]

theorem perm (h : Same t₁ t₂) : t₁.rows.Perm t₂.rows := by
  refine (List.perm_ext_iff_of_nodup t₁.nodup.of_map t₂.nodup.of_map).2 fun r => ?_
  rw [← get?_eq_some_iff, ← get?_eq_some_iff, h r.1]

/-- The rows of a table, inserted into the empty one in any order, give the table. -/
theorem setAll_of_perm {rows : List (K × V)} (h : rows.Perm t.rows) :
    Same (empty.setAll rows) t := by
  intro k
  apply Option.ext
  intro v
  have hn : (rows.map (·.1)).Nodup := (h.map _).nodup_iff.2 t.nodup
  rw [get?_setAll_eq_some hn, get?_empty, get?_eq_some_iff, h.mem_iff]
  simp

end Same

end Table

end Lib
