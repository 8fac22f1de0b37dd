import Mytools.Lib.Text

/-!
# Slash-separated paths

The lexical operations of the `path` package (`path/filepath` on Unix is the same). A path is
cleaned element by element; the stack holds the elements kept so far, the last one first.
-/

namespace Lib.Path

/-- `path.IsAbs` -/
def isAbs (p : String) : Bool := hasPrefix p "/"

/-- One more element: `.` and empty elements go, `..` takes the element before it away. -/
def push (rooted : Bool) (stack : List (List Char)) (e : List Char) : List (List Char) :=
  if e = [] ∨ e = ['.'] then stack
  else if e = ['.', '.'] then
    match stack with
    | [] => if rooted then [] else [e]
    | t :: s => if t = ['.', '.'] then e :: t :: s else s
  else e :: stack

/-- The elements of the cleaned path. -/
def elements (p : String) : List (List Char) :=
  ((p.toList.splitOn '/').foldl (push (isAbs p)) []).reverse

/-- `path.Clean` -/
def clean (p : String) : String :=
  let text := (if isAbs p then ['/'] else []) ++ ['/'].intercalate (elements p)
  if text = [] then "." else String.ofList text

/-- `path.Dir` -/
def dir (p : String) : String := clean (String.ofList (p.toList.take (lastIndex p '/' + 1).toNat))

/-- `filepath.Base` -/
def base (p : String) : String :=
  if p = "" then "."
  else
    let last := afterLast (String.ofList (trimRight (· == '/') p.toList)) '/'
    if last = "" then "/" else last

/-- `path.Join` of two elements. -/
def join (a b : String) : String :=
  if a = "" then (if b = "" then "" else clean b)
  else if b = "" then clean a
  else clean (a ++ "/" ++ b)

theorem isAbs_iff {p : String} : isAbs p = true ↔ ∃ cs, p.toList = '/' :: cs := by
  rw [isAbs, hasPrefix_iff]
  constructor
  · intro h
    obtain ⟨cs, h⟩ := h
    exact ⟨cs, h.symm⟩
  · intro h
    obtain ⟨cs, h⟩ := h
    exact ⟨cs, h.symm⟩

example : clean "/data//a/./../b/" = "/data/b" := by decide

example : clean "/../x" = "/x" ∧ clean "a/../../b" = "../b" ∧ clean "" = "." := by decide

example : dir "/data/app.db" = "/data" ∧ dir "/app.db" = "/" ∧ dir "app" = "." := by decide

example : base "/repo/project/" = "project" ∧ base "//" = "/" ∧ base "" = "." ∧ base "a" = "a" := by
  decide

/-! ## Clean paths -/

/-- An element that cleaning keeps. -/
structure Kept (e : List Char) : Prop where
  ne_nil : e ≠ []
  no_slash : '/' ∉ e
  ne_dot : e ≠ ['.']
  ne_dots : e ≠ ['.', '.']

theorem push_kept {e : List Char} (h : Kept e) (rooted : Bool) (stack : List (List Char)) :
    push rooted stack e = e :: stack := by
  simp [push, h.ne_nil, h.ne_dot, h.ne_dots]

/-- What holds of every element that is put on the stack holds of the elements of a path. -/
theorem forall_elements {p : String} {Q : List Char → Prop}
    (h : ∀ (stack : List (List Char)) (e : List Char), (∀ x ∈ stack, Q x) → '/' ∉ e →
      ∀ x ∈ push (isAbs p) stack e, Q x) : ∀ e ∈ elements p, Q e := by
  have hfold : ∀ (es stack : List (List Char)), (∀ e ∈ es, '/' ∉ e) → (∀ x ∈ stack, Q x) →
      ∀ x ∈ es.foldl (push (isAbs p)) stack, Q x := by
    intro es
    induction es with
    | nil => exact fun stack _ hs => hs
    | cons e es ih =>
      exact fun stack he hs => ih _ (fun e' h' => he e' (List.mem_cons_of_mem _ h'))
        (h stack e hs (he e List.mem_cons_self))
  intro e he
  rw [elements, List.mem_reverse] at he
  exact hfold _ [] (fun e he => not_mem_of_mem_splitOn he) (by simp) e he

theorem kept_elements {p : String} (h : isAbs p = true) : ∀ e ∈ elements p, Kept e := by
  refine forall_elements fun stack e hs he x hx => ?_
  rw [h] at hx
  unfold push at hx
  split at hx
  · exact hs x hx
  · rename_i hne
    split at hx
    · split at hx
      · simp at hx
      · rename_i t s
        split at hx
        · rename_i ht
          exact absurd ht (hs t List.mem_cons_self).ne_dots
        · exact hs x (List.mem_cons_of_mem _ hx)
    · rename_i hd
      rcases List.mem_cons.1 hx with rfl | hx
      · exact ⟨fun h => hne (.inl h), he, fun h => hne (.inr h), hd⟩
      · exact hs x hx

theorem clean_eq {p : String} (h : isAbs p = true) :
    (clean p).toList = '/' :: ['/'].intercalate (elements p) := by
  simp [clean, h]

/-- Elements that are kept are all there is in a path made of them. -/
theorem elements_of_kept {q : String} {es : List (List Char)}
    (hq : q.toList = '/' :: ['/'].intercalate es) (hes : ∀ e ∈ es, Kept e) : elements q = es := by
  have habs : isAbs q = true := isAbs_iff.2 ⟨_, hq⟩
  have hpush : ∀ (es stack : List (List Char)), (∀ e ∈ es, Kept e) →
      es.foldl (push true) stack = es.reverse ++ stack := by
    intro es
    induction es with
    | nil => simp
    | cons e es ih =>
      intro stack he
      have hk := he e List.mem_cons_self
      rw [List.foldl_cons, ih _ fun e' h' => he e' (List.mem_cons_of_mem _ h'), push_kept hk]
      simp
  have hsplit : (q.toList.splitOn '/').foldl (push true) [] = es.foldl (push true) [] := by
    rw [hq, List.splitOn_cons_eq_if_modifyHead, if_pos (by simp), List.foldl_cons]
    cases es with
    | nil => rfl
    | cons e es =>
      rw [List.splitOn_intercalate '/' (fun l hl => (hes l hl).no_slash) (by simp)]
      rfl
  rw [elements, habs, hsplit, hpush _ _ hes]
  simp

/-- The elements of any path are not empty and have no slash. -/
theorem ne_nil_of_mem_elements {p : String} : ∀ e ∈ elements p, e ≠ [] ∧ '/' ∉ e := by
  refine forall_elements fun stack e hs he x hx => ?_
  have hsub : x ∈ stack ∨ (x = e ∧ e ≠ []) := by
    unfold push at hx
    grind
  rcases hsub with hm | ⟨rfl, hne⟩
  · exact hs x hm
  · exact ⟨hne, he⟩

theorem isAbs_of_clean {p : String} (h : isAbs (clean p) = true) : isAbs p = true := by
  by_contra hp
  rw [Bool.not_eq_true] at hp
  obtain ⟨cs, hcs⟩ := isAbs_iff.1 h
  cases hes : elements p with
  | nil => simp [clean, hp, hes] at hcs
  | cons e es =>
    obtain ⟨hne, hslash⟩ := ne_nil_of_mem_elements e (hes ▸ List.mem_cons_self)
    obtain ⟨c, e', rfl⟩ := List.exists_cons_of_ne_nil hne
    have hhead : (clean p).toList.head? = some c := by
      cases es with
      | nil => simp [clean, hp, hes, List.intercalate_singleton]
      | cons f fs => simp [clean, hp, hes, List.intercalate_cons_cons]
    rw [hcs, List.head?_cons, Option.some.injEq] at hhead
    exact hslash (hhead ▸ List.mem_cons_self)

theorem isAbs_clean_self {p : String} (h : isAbs p = true) : isAbs (clean p) = true :=
  isAbs_iff.2 ⟨_, clean_eq h⟩

theorem clean_clean {p : String} (h : isAbs p = true) : clean (clean p) = clean p := by
  apply String.toList_injective
  rw [clean_eq (isAbs_clean_self h), elements_of_kept (clean_eq h) (kept_elements h), clean_eq h]

theorem clean_ne_empty (p : String) : clean p ≠ "" := by
  unfold clean
  generalize (if isAbs p then ['/'] else []) ++ ['/'].intercalate (elements p) = text
  by_cases h : text = [] <;> simp [h]

/-- A clean path ends in a slash only if it is the root. -/
theorem clean_ne_append_slash {p q : String} (h : isAbs p = true) (hq : q ≠ "") :
    clean p ≠ q ++ "/" := by
  intro he
  have hl := congrArg String.toList he
  rw [clean_eq h, String.toList_append] at hl
  have hk := kept_elements h
  cases hes : elements p with
  | nil =>
    rw [hes] at hl
    have hlen := congrArg List.length hl
    simp at hlen
    exact hq hlen
  | cons e es =>
    rw [hes] at hl hk
    have hs := congrArg (fun cs => (cs.splitOn '/').getLast?) hl
    simp only [List.splitOn_cons_eq_if_modifyHead, beq_self_eq_true, if_true] at hs
    rw [List.splitOn_intercalate '/' (fun l hl => (hk l hl).no_slash) (by simp)] at hs
    have hslash : ("/" : String).toList = '/' :: [] := rfl
    rw [hslash, List.splitOn_append_cons_self, List.splitOn_nil] at hs
    have hlast : (e :: es).getLast? = some [] := by simpa using hs
    exact (hk [] (List.mem_of_getLast? hlast)).ne_nil rfl

/-! ## The last element -/

/-- An absolute path has a last element. -/
theorem exists_cut {p : String} (h : isAbs p = true) :
    ∃ pre last, p.toList = pre ++ '/' :: last ∧ '/' ∉ last := by
  obtain ⟨cs, hcs⟩ := isAbs_iff.1 h
  have hm : '/' ∈ p.toList.reverse := by simp [hcs]
  obtain ⟨as, bs, hab, hn⟩ := List.eq_append_cons_of_mem hm
  refine ⟨bs.reverse, as.reverse, ?_, by simpa using hn⟩
  have := congrArg List.reverse hab
  simpa using this

section Cut

variable {p : String} {pre last : List Char} (habs : isAbs p = true)
  (hp : p.toList = pre ++ '/' :: last) (hl : '/' ∉ last)
include habs hp hl

omit hl in
theorem isAbs_pre : isAbs (String.ofList (pre ++ ['/'])) = true := by
  obtain ⟨cs, hcs⟩ := isAbs_iff.1 habs
  refine isAbs_iff.2 ?_
  rw [String.toList_ofList]
  cases pre with
  | nil => exact ⟨[], rfl⟩
  | cons c pre =>
    rw [hp, List.cons_append, List.cons.injEq] at hcs
    exact ⟨pre ++ ['/'], by rw [hcs.1]; rfl⟩

omit habs in
theorem dir_eq : dir p = clean (String.ofList (pre ++ ['/'])) := by
  rw [dir, lastIndex_cut hp hl, hp]
  have hlen : ((pre.length : Int) + 1).toNat = (pre ++ ['/']).length := by simp
  have happ : pre ++ '/' :: last = (pre ++ ['/']) ++ last := by simp
  rw [hlen, happ, List.take_left]

theorem elements_dir : elements (dir p) = ((pre.splitOn '/').foldl (push true) []).reverse := by
  have hpre := isAbs_pre habs hp
  rw [dir_eq hp hl, elements_of_kept (clean_eq hpre) (kept_elements hpre), elements, hpre,
    String.toList_ofList, List.splitOn_append_cons_self, List.splitOn_nil, List.foldl_append]
  rfl

theorem elements_cut : elements p = (push true (elements (dir p)).reverse last).reverse := by
  rw [elements_dir habs hp hl, List.reverse_reverse, elements, habs, hp,
    List.splitOn_append_cons_self, List.splitOn_eq_singleton hl, List.foldl_append]
  rfl

/-- A suffix that is not of dots only goes to the last element. -/
theorem elements_suffix {t : String} (ht : '/' ∉ t.toList) (hd : '-' ∈ t.toList) :
    elements (p ++ t) = elements (dir p) ++ [last ++ t.toList] := by
  have hpt : (p ++ t).toList = pre ++ '/' :: (last ++ t.toList) := by
    rw [String.toList_append, hp]
    simp
  have hlt : '/' ∉ last ++ t.toList := by
    rw [List.mem_append]
    exact fun h => h.elim hl ht
  have habst : isAbs (p ++ t) = true := by
    obtain ⟨cs, hcs⟩ := isAbs_iff.1 habs
    exact isAbs_iff.2 ⟨cs ++ t.toList, by rw [String.toList_append, hcs]; rfl⟩
  have hm : '-' ∈ last ++ t.toList := List.mem_append_right _ hd
  have hkept : Kept (last ++ t.toList) := by
    refine ⟨?_, hlt, ?_, ?_⟩ <;> intro he <;> rw [he] at hm <;> simp at hm
  have hdir : dir (p ++ t) = dir p := by rw [dir_eq hpt hlt, dir_eq hp hl]
  rw [elements_cut habst hpt hlt, hdir, push_kept hkept]
  simp

/-- No suffix leads back to the path itself. -/
theorem elements_ne_suffix {t : List Char} (ht : t ≠ []) :
    elements p ≠ elements (dir p) ++ [last ++ t] := by
  have hpre := isAbs_pre habs hp
  have hkept : ∀ e ∈ (elements (dir p)).reverse, Kept e := by
    rw [dir_eq hp hl]
    intro e he
    exact kept_elements (isAbs_clean_self hpre) e (List.mem_reverse.1 he)
  intro he
  rw [elements_cut habs hp hl] at he
  have hlen := congrArg List.length he
  simp only [List.length_reverse, List.length_append, List.length_singleton] at hlen
  unfold push at he hlen
  split at hlen
  · rw [List.length_reverse] at hlen
    omega
  rename_i hne
  rw [if_neg hne] at he
  split at hlen
  · split at hlen
    · simp only [if_true, List.length_nil] at hlen
      omega
    · rename_i t' s hs
      rw [hs] at hkept
      rw [if_neg (hkept t' List.mem_cons_self).ne_dots] at hlen
      have := congrArg List.length hs
      rw [List.length_reverse, List.length_cons] at this
      omega
  · rename_i hnd
    rw [if_neg hnd] at he
    have hlast : last = last ++ t := by simpa using he
    exact ht (List.self_eq_append_right.1 hlast)

end Cut

theorem intercalate_append_last {α : Type} (sep x y : List α) (es : List (List α)) :
    sep.intercalate (es ++ [x ++ y]) = sep.intercalate (es ++ [x]) ++ y := by
  induction es with
  | nil => simp
  | cons e es ih =>
    rw [List.cons_append, List.cons_append, List.intercalate_cons_of_ne_nil (by simp),
      List.intercalate_cons_of_ne_nil (by simp), ih]
    simp

/-- A path with one more element. -/
theorem elements_join {a b : String} (ha : isAbs a = true) (hb : Kept b.toList) :
    (join a b).toList = '/' :: ['/'].intercalate (elements a ++ [b.toList]) := by
  have hne : a ≠ "" := by
    rintro rfl
    cases ha
  have hbne : b ≠ "" := by
    rintro rfl
    exact hb.ne_nil rfl
  obtain ⟨cs, hcs⟩ := isAbs_iff.1 ha
  have habs : isAbs (a ++ "/" ++ b) = true := by
    refine isAbs_iff.2 ⟨cs ++ '/' :: b.toList, ?_⟩
    rw [String.toList_append, String.toList_append, hcs]
    simp
  have hel : elements (a ++ "/" ++ b) = elements a ++ [b.toList] := by
    have hsplit : (a ++ "/" ++ b).toList = a.toList ++ '/' :: b.toList := by
      rw [String.toList_append, String.toList_append]
      simp
    rw [elements, habs, hsplit, List.splitOn_append_cons_self,
      List.splitOn_eq_singleton hb.no_slash,
      List.foldl_append, elements, ha, List.foldl_cons, List.foldl_nil, push_kept hb,
      List.reverse_cons]
  rw [join, if_neg hne, if_neg hbne, clean_eq habs, hel]

/-- A path with one more element, the end of which is then replaced. -/
theorem elements_replaced {a b : String} {x y : List Char} (base : String) (z : List Char)
    (ha : isAbs a = true)
    (hb : b.toList = x ++ y) (hkept : Kept b.toList) (hz : Kept (x ++ z))
    (h : (join a b).toList = base.toList ++ y) :
    elements (base ++ String.ofList z) = elements a ++ [x ++ z] := by
  have hall : ∀ e ∈ elements a ++ [x ++ z], Kept e := by
    intro e he
    rcases List.mem_append.1 he with he | he
    · exact kept_elements ha e he
    · rw [List.mem_singleton.1 he]
      exact hz
  refine elements_of_kept ?_ hall
  rw [elements_join ha hkept, hb, intercalate_append_last, ← List.cons_append,
    List.append_left_inj] at h
  rw [String.toList_append, String.toList_ofList, ← h, intercalate_append_last, List.cons_append]

end Lib.Path
