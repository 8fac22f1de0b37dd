import Mathlib.Data.List.Infix

/-!
# Texts

The operations of the `strings` package that the sources use. A text is searched and cut by its
characters.
-/

namespace Lib

/-- `unicode.IsSpace` -/
def isSpace (c : Char) : Bool :=
  c.toNat ∈ [0x09, 0x0a, 0x0b, 0x0c, 0x0d, 0x20, 0x85, 0xa0, 0x1680, 0x2028, 0x2029, 0x202f, 0x205f,
    0x3000] || (0x2000 ≤ c.toNat && c.toNat ≤ 0x200a)

/-- A hexadecimal digit in lower case. -/
def hexDigit (n : Nat) : Char := Char.ofNat (if n < 10 then 48 + n else 87 + n)

/-- `strings.TrimSpace` -/
def trimSpace (s : String) : String :=
  String.ofList (((s.toList.dropWhile isSpace).reverse.dropWhile isSpace).reverse)

/-- `strings.Fields` -/
def fields (s : String) : List String :=
  ((s.toList.splitOnP isSpace).filter (· ≠ [])).map String.ofList

/-- The characters without those at the end that satisfy `p`. -/
def trimRight (p : Char → Bool) (cs : List Char) : List Char := (cs.reverse.dropWhile p).reverse

/-- The characters without those at both ends that satisfy `p`. -/
def trim (p : Char → Bool) (cs : List Char) : List Char := trimRight p (cs.dropWhile p)

/-- The words of a text, by characters. -/
def fieldsOf (cs : List Char) : List (List Char) := (cs.splitOnP isSpace).filter (· ≠ [])

/-- `strings.EqualFold` with a text of ASCII letters other than `k` and `s`, which are the letters
that only their other case folds to. -/
def equalFold (cs : List Char) (s : String) : Bool :=
  cs.map Char.toLower = s.toList.map Char.toLower

/-- `strings.HasPrefix` -/
def hasPrefix (s p : String) : Bool := p.toList.isPrefixOf s.toList

/-- `strings.TrimPrefix` -/
def trimPrefix (s p : String) : String :=
  if hasPrefix s p then String.ofList (s.toList.drop p.toList.length) else s

/-- `strings.Contains` of one character. -/
def containsChar (s : String) (c : Char) : Bool := s.toList.contains c

/-- `strings.LastIndex` of one character, `-1` if there is none. -/
def lastIndex (s : String) (c : Char) : Int :=
  match s.toList.reverse.findIdx? (· == c) with
  | none => -1
  | some i => s.toList.length - 1 - i

/-- The text before the last occurrence of a character. -/
def beforeLast (s : String) (c : Char) : String :=
  String.ofList (s.toList.take (lastIndex s c).toNat)

/-- The text after the last occurrence of a character, all of it if there is none. -/
def afterLast (s : String) (c : Char) : String :=
  String.ofList (s.toList.drop (lastIndex s c + 1).toNat)

theorem hasPrefix_iff {s p : String} : hasPrefix s p = true ↔ p.toList <+: s.toList :=
  List.isPrefixOf_iff_prefix

theorem trimPrefix_append (p s : String) : trimPrefix (p ++ s) p = s := by
  have h : hasPrefix (p ++ s) p = true := hasPrefix_iff.2 ⟨s.toList, String.toList_append.symm⟩
  simp [trimPrefix, h, String.toList_append]

/-! ## Trimming -/

section

variable {p : Char → Bool} {cs s : List Char}

theorem dropWhile_eq_self (h : ∀ c ∈ cs.head?, p c = false) : cs.dropWhile p = cs := by
  cases cs with
  | nil => rfl
  | cons c cs => rw [List.dropWhile_cons_of_neg (by simp [h c rfl])]

theorem trimRight_append_cons {c : Char} (hc : p c = false) (a b : List Char) :
    trimRight p (a ++ c :: b) = a ++ c :: trimRight p b := by
  have hrev : (a ++ c :: b).reverse = b.reverse ++ c :: a.reverse := by simp
  rw [trimRight, hrev, List.dropWhile_append, trimRight]
  split
  · rename_i h
    rw [List.isEmpty_iff.1 h, List.dropWhile_cons_of_neg (by simp [hc])]
    simp
  · simp

theorem exists_eq_trimRight_append (p : Char → Bool) (cs : List Char) :
    ∃ s, (∀ c ∈ s, p c = true) ∧ cs = trimRight p cs ++ s := by
  refine ⟨(cs.reverse.takeWhile p).reverse, ?_, ?_⟩
  · intro c hc
    exact List.all_eq_true.1 List.all_takeWhile c (List.mem_reverse.1 hc)
  · rw [trimRight, ← List.reverse_append, List.takeWhile_append_dropWhile, List.reverse_reverse]

theorem trimRight_append (h : ∀ c ∈ s, p c = true) (cs : List Char) :
    trimRight p (cs ++ s) = trimRight p cs := by
  rw [trimRight, List.reverse_append, List.dropWhile_append_of_pos, trimRight]
  intro c hc
  exact h c (List.mem_reverse.1 hc)

theorem trim_append_left (h : ∀ c ∈ s, p c = true) (cs : List Char) :
    trim p (s ++ cs) = trim p cs := by
  rw [trim, List.dropWhile_append_of_pos h, trim]

theorem trim_append_right (h : ∀ c ∈ s, p c = true) (cs : List Char) :
    trim p (cs ++ s) = trim p cs := by
  rw [trim, List.dropWhile_append, trim]
  split
  · rename_i hnil
    have hs : s.dropWhile p = [] := by
      rw [← List.append_nil s, List.dropWhile_append_of_pos h, List.dropWhile_nil]
    rw [List.isEmpty_iff.1 hnil, hs]
  · exact trimRight_append h _

theorem trim_eq_trimRight (h : ∀ c ∈ cs.head?, p c = false) : trim p cs = trimRight p cs := by
  rw [trim, dropWhile_eq_self h]

/-- Nothing is trimmed off a text whose ends do not satisfy `p`. -/
theorem trim_eq_self (hfirst : ∀ c ∈ cs.head?, p c = false)
    (hlast : ∀ c ∈ cs.getLast?, p c = false) :
    trim p cs = cs := by
  have hrev : cs.reverse.dropWhile p = cs.reverse := by
    apply dropWhile_eq_self
    intro c hc
    rw [List.head?_reverse] at hc
    exact hlast c hc
  rw [trim_eq_trimRight hfirst, trimRight, hrev, List.reverse_reverse]

theorem trim_subset (p : Char → Bool) (cs : List Char) : trim p cs ⊆ cs := by
  obtain ⟨s, -, h⟩ := exists_eq_trimRight_append p (cs.dropWhile p)
  intro c hc
  apply (List.dropWhile_sublist p).subset
  rw [h]
  exact List.mem_append_left _ hc

/-- A character at the end keeps what would be trimmed before it. -/
theorem exists_trim_append_singleton {c : Char} (hc : p c = false) (cs : List Char) :
    ∃ s, (∀ x ∈ s, p x = true) ∧ trim p cs ++ s ⊆ cs ∧
      trim p (cs ++ [c]) = trim p cs ++ s ++ [c] := by
  obtain ⟨s, hs, hdrop⟩ := exists_eq_trimRight_append p (cs.dropWhile p)
  have hd : (cs ++ [c]).dropWhile p = cs.dropWhile p ++ [c] := by
    rw [List.dropWhile_append]
    split
    · rename_i hnil
      rw [List.isEmpty_iff.1 hnil, List.dropWhile_cons_of_neg (by simp [hc]), List.nil_append]
    · rfl
  refine ⟨s, hs, ?_, ?_⟩
  · rw [trim, ← hdrop]
    exact (List.dropWhile_sublist p).subset
  · have hnil : trimRight p [] = [] := rfl
    rw [trim, hd, trimRight_append_cons hc, hnil, trim, ← hdrop]

end

/-- The words do not change with the spaces after them. -/
theorem fieldsOf_append_spaces (cs : List Char) :
    ∀ {s : List Char}, (∀ c ∈ s, isSpace c = true) → fieldsOf (cs ++ s) = fieldsOf cs := by
  intro s
  induction s using List.reverseRecOn with
  | nil => simp
  | append_singleton s c ih =>
    intro h
    have hc := h c (by simp)
    have ih := ih fun d hd => h d (by simp [hd])
    rw [← ih, fieldsOf, ← List.append_assoc, List.splitOnP_append_cons _ _ hc, List.splitOnP_nil,
      List.filter_append, fieldsOf]
    simp

/-! ## Cutting -/

/-- Two texts that are equal are cut alike behind the same number of separators. -/
theorem cut_count {α : Type _} [DecidableEq α] {a : α} : ∀ {xs xs' ys ys' : List α},
    xs.count a = xs'.count a → xs ++ a :: ys = xs' ++ a :: ys' → xs = xs' ∧ ys = ys'
  | [], [], _, _, _, h => ⟨rfl, (List.cons.inj h).2⟩
  | [], x' :: xs', _, _, hc, h => by
    have hx : a = x' := (List.cons.inj h).1
    simp [hx] at hc
  | x :: xs, [], _, _, hc, h => by
    have hx : x = a := (List.cons.inj h).1
    simp [hx] at hc
  | x :: xs, x' :: xs', _, _, hc, h => by
    rw [List.cons_append, List.cons_append, List.cons_eq_cons] at h
    obtain ⟨rfl, h⟩ := h
    have hc : xs.count a = xs'.count a := by
      rw [List.count_cons, List.count_cons] at hc
      omega
    obtain ⟨rfl, hr⟩ := cut_count hc h
    exact ⟨rfl, hr⟩

/-- Two texts that are equal are cut alike at the first occurrence of a character. -/
theorem cut_first {α : Type _} {a : α} {xs xs' ys ys' : List α} (hx : a ∉ xs) (hx' : a ∉ xs')
    (h : xs ++ a :: ys = xs' ++ a :: ys') : xs = xs' ∧ ys = ys' := by
  classical
  apply cut_count _ h
  rw [List.count_eq_zero_of_not_mem hx, List.count_eq_zero_of_not_mem hx']

theorem cut_last {α : Type _} {a : α} {xs xs' ys ys' : List α} (hy : a ∉ ys) (hy' : a ∉ ys')
    (h : xs ++ a :: ys = xs' ++ a :: ys') : xs = xs' ∧ ys = ys' := by
  have hr := congrArg List.reverse h
  simp only [List.reverse_append, List.reverse_cons, List.append_assoc, List.singleton_append] at hr
  obtain ⟨h1, h2⟩ := cut_first (by simpa using hy) (by simpa using hy') hr
  exact ⟨List.reverse_injective h2, List.reverse_injective h1⟩

/-! ## The last occurrence -/

section

variable {s : String} {c : Char} {pre last : List Char}

theorem findIdx?_reverse_eq_none (hl : c ∉ last) : last.reverse.findIdx? (· == c) = none := by
  simp only [List.findIdx?_eq_none_iff, List.mem_reverse, beq_eq_false_iff_ne]
  intro x hx he
  exact hl (he ▸ hx)

theorem lastIndex_cut (h : s.toList = pre ++ c :: last) (hl : c ∉ last) :
    lastIndex s c = pre.length := by
  have hrev : s.toList.reverse = last.reverse ++ c :: pre.reverse := by simp [h]
  have hfind : s.toList.reverse.findIdx? (· == c) = some last.length := by
    rw [hrev, List.findIdx?_append, findIdx?_reverse_eq_none hl, List.findIdx?_cons,
      beq_self_eq_true]
    simp
  rw [lastIndex, hfind, h]
  simp only [List.length_append, List.length_cons]
  omega

theorem beforeLast_cut (h : s.toList = pre ++ c :: last) (hl : c ∉ last) :
    beforeLast s c = String.ofList pre := by
  rw [beforeLast, lastIndex_cut h hl, h]
  simp

theorem afterLast_cut (h : s.toList = pre ++ c :: last) (hl : c ∉ last) :
    afterLast s c = String.ofList last := by
  have hlen : ((pre.length : Int) + 1).toNat = (pre ++ [c]).length := by simp
  have happ : pre ++ c :: last = (pre ++ [c]) ++ last := by simp
  rw [afterLast, lastIndex_cut h hl, h, hlen, happ, List.drop_left]

/-- A character that is not in the last part of a text is not found there. -/
theorem lastIndex_lt (h : s.toList = pre ++ last) (hl : c ∉ last) : lastIndex s c < pre.length := by
  have hrev : s.toList.reverse = last.reverse ++ pre.reverse := by simp [h]
  rw [lastIndex, hrev, List.findIdx?_append, findIdx?_reverse_eq_none hl, h]
  cases pre.reverse.findIdx? (· == c) with
  | none => simp; omega
  | some i => simp; omega

end

/-! ## Pieces -/

/-- The pieces between the elements that satisfy `p` hold none of them. -/
theorem forall_mem_splitOnP {α : Type _} {p : α → Bool} :
    ∀ {cs w : List α}, w ∈ cs.splitOnP p → ∀ c ∈ w, p c = false
  | [], w, hw => by
    rw [List.splitOnP_nil, List.mem_singleton] at hw
    simp [hw]
  | d :: cs, w, hw => by
    have ih : ∀ w ∈ cs.splitOnP p, ∀ c ∈ w, p c = false := fun w => forall_mem_splitOnP
    rw [List.splitOnP_cons_eq_if_modifyHead] at hw
    split at hw
    · rcases List.mem_cons.1 hw with rfl | hw
      · simp
      · exact ih w hw
    · next hd =>
      obtain ⟨x, xs, hx⟩ := List.exists_cons_of_ne_nil (List.splitOnP_ne_nil p cs)
      rw [hx, List.modifyHead_cons] at hw
      rw [hx] at ih
      rcases List.mem_cons.1 hw with rfl | hw
      · intro c hc
        rcases List.mem_cons.1 hc with rfl | hc
        · simpa using hd
        · exact ih x List.mem_cons_self c hc
      · exact ih w (List.mem_cons_of_mem _ hw)

/-- The pieces of a list cut at an element do not hold it. -/
theorem not_mem_of_mem_splitOn {α : Type _} [DecidableEq α] {a : α} {cs e : List α}
    (h : e ∈ cs.splitOn a) : a ∉ e := by
  intro hm
  have ha := forall_mem_splitOnP h a hm
  simp at ha

end Lib
