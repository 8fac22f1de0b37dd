import Mathlib.Data.List.Nodup

/-!
# The first element under each key

`distinctBy` goes through a list with the set of keys seen so far and drops what has one of them.
-/

namespace Lib

variable {α κ : Type _} [DecidableEq κ] {key : α → κ} {seen : List κ} {as : List α} {a : α}

def distinctBy (key : α → κ) : List κ → List α → List α
  | _, [] => []
  | seen, a :: as =>
    if key a ∈ seen then distinctBy key seen as else a :: distinctBy key (key a :: seen) as

theorem distinctBy_sublist (key : α → κ) :
    ∀ (seen : List κ) (as : List α), (distinctBy key seen as).Sublist as
  | _, [] => .slnil
  | seen, a :: as => by
    unfold distinctBy
    split
    · exact (distinctBy_sublist key seen as).cons a
    · exact (distinctBy_sublist key _ as).cons_cons a

theorem not_mem_seen : ∀ {as : List α} {seen : List κ}, a ∈ distinctBy key seen as → key a ∉ seen
  | [], _, h => by simp [distinctBy] at h
  | b :: as, seen, h => by
    unfold distinctBy at h
    split at h
    · exact not_mem_seen h
    · rename_i hb
      rcases List.mem_cons.1 h with rfl | h
      · exact hb
      · exact fun hs => not_mem_seen h (List.mem_cons_of_mem _ hs)

theorem distinctBy_nodup (key : α → κ) :
    ∀ (seen : List κ) (as : List α), ((distinctBy key seen as).map key).Nodup
  | _, [] => List.nodup_nil
  | seen, a :: as => by
    unfold distinctBy
    split
    · exact distinctBy_nodup key seen as
    · rw [List.map_cons, List.nodup_cons]
      refine ⟨fun h => ?_, distinctBy_nodup key _ as⟩
      obtain ⟨b, hb, hk⟩ := List.mem_map.1 h
      exact not_mem_seen hb (hk ▸ List.mem_cons_self)

theorem exists_distinctBy (key : α → κ) : ∀ (seen : List κ) {as : List α}, a ∈ as → key a ∉ seen →
    ∃ b ∈ distinctBy key seen as, key b = key a
  | _, [], h, _ => by simp at h
  | seen, b :: as, h, hs => by
    unfold distinctBy
    by_cases hb : key b ∈ seen
    · rw [if_pos hb]
      rcases List.mem_cons.1 h with rfl | h
      · exact absurd hb hs
      · exact exists_distinctBy key seen h hs
    · rw [if_neg hb]
      by_cases hk : key a = key b
      · exact ⟨b, List.mem_cons_self, hk.symm⟩
      · rcases List.mem_cons.1 h with rfl | h
        · exact absurd rfl hk
        · obtain ⟨c, hc, hck⟩ := exists_distinctBy key (key b :: seen) h
            (fun hm => (List.mem_cons.1 hm).elim hk hs)
          exact ⟨c, List.mem_cons_of_mem _ hc, hck⟩

/-- A member of a list with distinct keys is the only one under its key. -/
theorem filter_key_eq (key : α → κ) (h : (as.map key).Nodup) (ha : a ∈ as) :
    as.filter (fun b => key b = key a) = [a] := by
  induction as with
  | nil => simp at ha
  | cons b as ih =>
    rw [List.map_cons, List.nodup_cons] at h
    rcases List.mem_cons.1 ha with rfl | ha
    · rw [List.filter_cons_of_pos (by simp), List.filter_eq_nil_iff.2]
      intro c hc hk
      exact h.1 (List.mem_map.2 ⟨c, hc, of_decide_eq_true hk⟩)
    · have hne : key b ≠ key a := fun hk => h.1 (hk ▸ List.mem_map_of_mem ha)
      rw [List.filter_cons_of_neg (by simpa using hne), ih h.2 ha]

theorem flatMap_key_eq {β : Type _} (key : α → κ) (f : α → β) (h : (as.map key).Nodup)
    (ha : a ∈ as) :
    as.flatMap (fun b => if key b = key a then [f b] else []) = [f a] := by
  have hf : as.flatMap (fun b => if key b = key a then [f b] else []) =
      (as.filter fun b => key b = key a).map f := by
    clear h ha
    induction as with
    | nil => rfl
    | cons b as ih =>
      rw [List.flatMap_cons, ih, List.filter_cons]
      by_cases hk : key b = key a <;> simp [hk]
  rw [hf, filter_key_eq key h ha, List.map_singleton]

end Lib
