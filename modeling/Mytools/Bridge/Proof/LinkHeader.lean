import Mytools.Bridge.Mastodon

/-!
# Reading `Link` headers

A link has a target and parameters, and is rendered with any spaces around the commas and
semicolons. `splitLinks` cuts a header into its links. The parameters of a link are then cut at
every semicolon, also at those in a quoted value, so `nextLink` may take a part of a value for a
parameter, or a `rel` for less than it is (`nextLink_renderLinks`). Without semicolons in the values
it finds the first link that lists `next` (`nextLink_of_no_semicolon`).
-/

namespace Bridge.Mastodon

open Lib

/-! ## Headers -/

/-- The characters of a token: digits, letters and some others. -/
def isTokenChar (c : Char) : Bool :=
  (48 ≤ c.toNat && c.toNat ≤ 57) || (65 ≤ c.toNat && c.toNat ≤ 90) ||
    (97 ≤ c.toNat && c.toNat ≤ 122) ||
    c.toNat ∈ [33, 35, 36, 37, 38, 39, 42, 43, 45, 46, 94, 95, 96, 124, 126]

structure Token where
  chars : List Char
  ne_nil : chars ≠ []
  token : ∀ c ∈ chars, isTokenChar c = true

/-- Optional spaces. -/
structure Spaces where
  chars : List Char
  blank : ∀ c ∈ chars, c = ' ' ∨ c = '\t'

inductive ParamValue
  | token (t : Token)
  | quoted (chars : List Char) (h : doubleQuote ∉ chars)

def ParamValue.chars : ParamValue → List Char
  | .token t => t.chars
  | .quoted chars _ => chars

def ParamValue.text : ParamValue → List Char
  | .token t => t.chars
  | .quoted chars _ => doubleQuote :: (chars ++ [doubleQuote])

/-- A parameter, with the spaces around the semicolon before it. -/
structure Param where
  before : Spaces
  after : Spaces
  name : Token
  value : ParamValue

def Param.text (p : Param) : List Char := p.name.chars ++ '=' :: p.value.text

def Param.render (p : Param) : List Char := p.before.chars ++ ';' :: (p.after.chars ++ p.text)

/-- A link, with the spaces around it. -/
structure LinkValue where
  before : Spaces
  after : Spaces
  target : List Char
  plain : ∀ c ∈ target, c ≠ '<' ∧ c ≠ '>' ∧ c ≠ doubleQuote
  params : List Param

def LinkValue.text (l : LinkValue) : List Char :=
  '<' :: (l.target ++ '>' :: l.params.flatMap Param.render)

def LinkValue.render (l : LinkValue) : List Char := l.before.chars ++ l.text ++ l.after.chars

/-- The links, with commas in between. -/
def renderLinks : List LinkValue → List Char
  | [] => []
  | [l] => l.render
  | l :: ls => l.render ++ ',' :: renderLinks ls

/-- A `rel` that lists `next`, by its name and its value. -/
def relNext (name value : List Char) : Bool :=
  equalFold name "rel" && (fieldsOf value).any (equalFold · "next")

def Param.listsNext (p : Param) : Bool := relNext p.name.chars p.value.chars

def LinkValue.listsNext (l : LinkValue) : Bool := l.params.any Param.listsNext

/-- The target of the first link that satisfies `p`, and nothing if there is none. -/
def firstTarget (p : LinkValue → Bool) (links : List LinkValue) : List Char :=
  ((links.find? p).map LinkValue.target).getD []

/-! ## Scanning -/

/-- The text leaves the scanner in the given state, and is a part of what it has scanned. -/
def Scans (text : List Char) (quoted angled quoted' angled' : Bool) : Prop :=
  ∀ rest part, scanLinks (text ++ rest) part quoted angled =
    scanLinks rest (part ++ text) quoted' angled'

section

variable {s t : List Char} {q a q' a' q'' a'' : Bool}

theorem Scans.append (h : Scans s q a q' a') (k : Scans t q' a' q'' a'') :
    Scans (s ++ t) q a q'' a'' := by
  intro rest part
  rw [List.append_assoc, h, k, List.append_assoc]

theorem Scans.cons {c : Char} (h : Scans [c] q a q' a') (k : Scans t q' a' q'' a'') :
    Scans (c :: t) q a q'' a'' := h.append k

theorem scans_nil : Scans [] q a q a := by
  intro rest part
  rw [List.nil_append, List.append_nil]

/-- A text of characters that leave the state. -/
theorem scans_of_forall (h : ∀ c ∈ s, Scans [c] q a q a) : Scans s q a q a := by
  induction s with
  | nil => exact scans_nil
  | cons c s ih =>
    rw [List.forall_mem_cons] at h
    exact h.1.cons (ih h.2)

/-- A character without a meaning. -/
theorem scans_plain {c : Char} (hq : c ≠ doubleQuote) (hl : c ≠ '<') (hr : c ≠ '>')
    (hc : c = ',' → q = true ∨ a = true) : Scans [c] q a q a := by
  intro rest part
  have hcomma : ¬ (c = ',' ∧ q = false ∧ a = false) := by
    rintro ⟨rfl, rfl, rfl⟩
    simpa using hc rfl
  rw [List.singleton_append, scanLinks, if_neg hq, if_neg hl, if_neg hr, if_neg hcomma]

theorem scans_quote : Scans [doubleQuote] q false (!q) false := by
  intro rest part
  rw [List.singleton_append, scanLinks, if_pos rfl]
  rfl

theorem scans_open : Scans ['<'] false a false true := by
  intro rest part
  rw [List.singleton_append, scanLinks, if_neg (by decide), if_pos rfl]
  rfl

theorem scans_close : Scans ['>'] false a false false := by
  intro rest part
  rw [List.singleton_append, scanLinks, if_neg (by decide), if_neg (by decide), if_pos rfl]
  rfl

/-- Inside quotes everything but the quotation mark is skipped. -/
theorem scans_quoted (h : doubleQuote ∉ s) : Scans s true false true false := by
  apply scans_of_forall
  intro c hc rest part
  have hq : c ≠ doubleQuote := fun he => h (he ▸ hc)
  rw [List.singleton_append, scanLinks, if_neg hq]
  split
  · rfl
  · split
    · rfl
    · rw [if_neg (by simp)]

end

theorem ne_of_isTokenChar {c d : Char} (h : isTokenChar c = true) (hd : isTokenChar d = false) :
    c ≠ d := by
  rintro rfl
  rw [h] at hd
  cases hd

theorem isSpace_of_isTokenChar {c : Char} (h : isTokenChar c = true) : isSpace c = false := by
  have hrange : 33 ≤ c.toNat ∧ c.toNat ≤ 126 := by
    simp only [isTokenChar, Bool.or_eq_true, Bool.and_eq_true, decide_eq_true_eq, List.mem_cons,
      List.not_mem_nil, or_false] at h
    omega
  simp only [isSpace, List.mem_cons, List.not_mem_nil, or_false, Bool.or_eq_false_iff,
    decide_eq_false_iff_not, Bool.and_eq_false_iff, not_or]
  omega

theorem Token.scans (t : Token) : Scans t.chars false false false false := by
  apply scans_of_forall
  intro c hc
  have h := t.token c hc
  apply scans_plain
  · exact ne_of_isTokenChar h (by decide)
  · exact ne_of_isTokenChar h (by decide)
  · exact ne_of_isTokenChar h (by decide)
  · exact fun hcomma => absurd hcomma (ne_of_isTokenChar h (by decide))

theorem Spaces.scans (s : Spaces) : Scans s.chars false false false false := by
  apply scans_of_forall
  intro c hc
  rcases s.blank c hc with rfl | rfl
  · exact scans_plain (by decide) (by decide) (by decide) (by decide)
  · exact scans_plain (by decide) (by decide) (by decide) (by decide)

theorem Spaces.isSpace (s : Spaces) : ∀ c ∈ s.chars, isSpace c = true := by
  intro c hc
  rcases s.blank c hc with rfl | rfl <;> decide

theorem ParamValue.scans : ∀ v : ParamValue, Scans v.text false false false false
  | .token t => t.scans
  | .quoted _ h => scans_quote.cons ((scans_quoted h).append scans_quote)

theorem Param.scans (p : Param) : Scans p.render false false false false := by
  have hsemi : Scans [';'] false false false false :=
    scans_plain (by decide) (by decide) (by decide) (by decide)
  have heq : Scans ['='] false false false false :=
    scans_plain (by decide) (by decide) (by decide) (by decide)
  exact p.before.scans.append (hsemi.cons (p.after.scans.append (p.name.scans.append
    (heq.cons p.value.scans))))

/-- A link is scanned as a whole. -/
theorem LinkValue.scans (l : LinkValue) : Scans l.text false false false false := by
  have htarget : Scans l.target false true false true := by
    apply scans_of_forall
    intro c hc
    obtain ⟨hl, hr, hq⟩ := l.plain c hc
    exact scans_plain hq hl hr fun _ => .inr rfl
  have hparams : Scans (l.params.flatMap Param.render) false false false false := by
    induction l.params with
    | nil => exact scans_nil
    | cons p ps ih =>
      rw [List.flatMap_cons]
      exact p.scans.append ih
  exact scans_open.cons (htarget.append (scans_close.cons hparams))

/-! ## Links -/

/-- The last character is no space. -/
def EndsPlain (s : List Char) : Prop := ∃ init c, s = init ++ [c] ∧ isSpace c = false

theorem EndsPlain.append {t : List Char} (h : EndsPlain t) (s : List Char) :
    EndsPlain (s ++ t) := by
  obtain ⟨init, c, rfl, hc⟩ := h
  exact ⟨s ++ init, c, (List.append_assoc _ _ _).symm, hc⟩

theorem Token.endsPlain (t : Token) : EndsPlain t.chars := by
  rcases List.eq_nil_or_concat t.chars with h | ⟨init, c, h⟩
  · exact absurd h t.ne_nil
  · rw [List.concat_eq_append] at h
    exact ⟨init, c, h, isSpace_of_isTokenChar (t.token c (by simp [h]))⟩

theorem Param.endsPlain (p : Param) : EndsPlain p.text := by
  have hvalue : EndsPlain p.value.text := by
    cases p.value with
    | token t => exact t.endsPlain
    | quoted chars h => exact ⟨doubleQuote :: chars, doubleQuote, rfl, by decide⟩
  exact (hvalue.append ['=']).append p.name.chars

theorem LinkValue.endsPlain (l : LinkValue) : EndsPlain l.text := by
  rcases List.eq_nil_or_concat l.params with h | ⟨ps, p, h⟩
  · exact ⟨'<' :: l.target, '>', by rw [LinkValue.text, h]; rfl, by decide⟩
  · have htext : l.text = '<' :: (l.target ++ '>' :: (ps.flatMap Param.render ++
        (p.before.chars ++ ';' :: p.after.chars))) ++ p.text := by
      rw [LinkValue.text, h, List.concat_eq_append, List.flatMap_append]
      simp [Param.render]
    rw [htext]
    exact p.endsPlain.append _

/-- The spaces around a link are trimmed, and nothing of the link. -/
theorem LinkValue.trim_render (l : LinkValue) : trim Lib.isSpace l.render = l.text := by
  rw [LinkValue.render, trim_append_right l.after.isSpace, trim_append_left l.before.isSpace]
  apply trim_eq_self
  · intro c hc
    obtain rfl : '<' = c := Option.some.inj hc
    decide
  · intro c hc
    obtain ⟨init, d, h, hd⟩ := l.endsPlain
    rw [h, List.getLast?_concat] at hc
    obtain rfl : d = c := Option.some.inj hc
    exact hd

theorem LinkValue.scans_render (l : LinkValue) : Scans l.render false false false false :=
  (l.before.scans.append l.scans).append l.after.scans

theorem splitLinks_render : ∀ links : List LinkValue,
    splitLinks (renderLinks links) = links.map LinkValue.text
  | [] => rfl
  | [l] => by
    have h := l.scans_render [] []
    rw [List.append_nil] at h
    have hne : trim isSpace l.render ≠ [] := by
      rw [l.trim_render]
      exact List.cons_ne_nil _ _
    rw [splitLinks, renderLinks, h, scanLinks, List.nil_append, if_pos hne, l.trim_render]
    rfl
  | l :: l' :: ls => by
    have ih := splitLinks_render (l' :: ls)
    have h := l.scans_render (',' :: renderLinks (l' :: ls)) []
    rw [splitLinks, renderLinks, h, scanLinks, if_neg (by decide), if_neg (by decide),
      if_neg (by decide), if_pos ⟨rfl, rfl, rfl⟩, List.nil_append, l.trim_render, List.map_cons]
    · exact congrArg _ ih
    · exact List.cons_ne_nil _ _

/-! ## Parameters -/

/-- One of the pieces between the semicolons is read as a `rel` with `next`. -/
def readsNext (text : List Char) : Bool := (text.splitOn ';').any paramIsNext

theorem readsNext_of_not_mem {u : List Char} (h : ';' ∉ u) : readsNext u = paramIsNext u := by
  rw [readsNext, List.splitOn_eq_singleton h, List.any_cons, List.any_nil, Bool.or_false]

theorem readsNext_cut (u v : List Char) :
    readsNext (u ++ ';' :: v) = (readsNext u || readsNext v) := by
  rw [readsNext, List.splitOn_append_cons_self, List.any_append]
  rfl

theorem paramIsNext_append_left (s : Spaces) (u : List Char) :
    paramIsNext (s.chars ++ u) = paramIsNext u := by
  rw [paramIsNext, trim_append_left s.isSpace, paramIsNext]

theorem paramIsNext_append_right (s : Spaces) (u : List Char) :
    paramIsNext (u ++ s.chars) = paramIsNext u := by
  rw [paramIsNext, trim_append_right s.isSpace, paramIsNext]

theorem Spaces.not_mem (s : Spaces) : ';' ∉ s.chars := by
  intro h
  rcases s.blank _ h with h | h <;> revert h <;> decide

theorem readsNext_append_left (s : Spaces) (u : List Char) :
    readsNext (s.chars ++ u) = readsNext u := by
  by_cases h : ';' ∈ u
  · obtain ⟨v, w, rfl, hv⟩ := List.eq_append_cons_of_mem h
    rw [← List.append_assoc, readsNext_cut, readsNext_cut, readsNext_of_not_mem hv,
      readsNext_of_not_mem (by simp [s.not_mem, hv]), paramIsNext_append_left]
  · rw [readsNext_of_not_mem h, readsNext_of_not_mem (by simp [s.not_mem, h]),
      paramIsNext_append_left]

theorem readsNext_append_right (s : Spaces) (u : List Char) :
    readsNext (u ++ s.chars) = readsNext u := by
  have hpiece : ∀ w, ';' ∉ w → readsNext (w ++ s.chars) = readsNext w := by
    intro w hw
    rw [readsNext_of_not_mem hw, readsNext_of_not_mem (by simp [s.not_mem, hw]),
      paramIsNext_append_right]
  by_cases h : ';' ∈ u
  · -- The spaces belong to the piece after the last semicolon.
    obtain ⟨w, v, hr, hw⟩ := List.eq_append_cons_of_mem (List.mem_reverse.2 h)
    obtain rfl : u = v.reverse ++ ';' :: w.reverse := by
      rw [← List.reverse_reverse u, hr]
      simp
    rw [List.append_assoc, List.cons_append, readsNext_cut, readsNext_cut,
      hpiece _ (by simpa using hw)]
  · exact hpiece u h

/-- The parameters of a link are read one by one, each by its pieces. -/
theorem readsNext_params : ∀ (ps : List Param) (u : List Char),
    readsNext (u ++ ps.flatMap Param.render) = (readsNext u || ps.any fun p => readsNext p.text)
  | [], u => by simp
  | p :: ps, u => by
    have hcut : u ++ (p :: ps).flatMap Param.render =
        (u ++ p.before.chars) ++ ';' :: ((p.after.chars ++ p.text) ++ ps.flatMap Param.render) := by
      rw [List.flatMap_cons, Param.render]
      simp
    rw [hcut, readsNext_cut, readsNext_append_right, readsNext_params ps, readsNext_append_left,
      List.any_cons]

/-! ## Parameters with semicolons -/

/-- The text, without a quotation mark, is a `rel` that lists `next`. -/
def spellsNext (part : List Char) : Bool :=
  let part := trim isSpace part
  match part.dropWhile (· ≠ '=') with
  | [] => false
  | _ :: value => relNext (part.takeWhile (· ≠ '=')) value

/-- The parameter seems to list `next` if it is cut at the semicolons of its value: it is a `rel`
that does so up to the first semicolon, or a later part is a `rel` that does. -/
def Param.seemsNext (p : Param) : Bool :=
  match p.value.chars.splitOn ';' with
  | [] => false
  | first :: rest => relNext p.name.chars first || rest.any spellsNext

section

variable {u n v : List Char}

theorem takeWhile_cut (hn : '=' ∉ n) (v : List Char) : (n ++ '=' :: v).takeWhile (· ≠ '=') = n := by
  rw [List.takeWhile_append_of_pos, List.takeWhile_cons_of_neg (by simp), List.append_nil]
  intro c hc
  exact decide_eq_true fun he => hn (he ▸ hc)

theorem dropWhile_cut (hn : '=' ∉ n) (v : List Char) :
    (n ++ '=' :: v).dropWhile (· ≠ '=') = '=' :: v := by
  rw [List.dropWhile_append_of_pos, List.dropWhile_cons_of_neg (by simp)]
  intro c hc
  exact decide_eq_true fun he => hn (he ▸ hc)

theorem dropWhile_uncut (hn : '=' ∉ n) : n.dropWhile (· ≠ '=') = [] := by
  rw [← List.append_nil n, List.dropWhile_append_of_pos, List.dropWhile_nil]
  intro c hc
  exact decide_eq_true fun he => hn (he ▸ hc)

theorem paramIsNext_cut (hu : trim isSpace u = n ++ '=' :: v) (hn : '=' ∉ n) :
    paramIsNext u = relNext n (trim (· = doubleQuote) v) := by
  simp only [paramIsNext, hu, takeWhile_cut hn, dropWhile_cut hn, relNext]

theorem paramIsNext_uncut (hu : '=' ∉ trim isSpace u) : paramIsNext u = false := by
  simp only [paramIsNext, dropWhile_uncut hu]

theorem spellsNext_cut (hu : trim isSpace u = n ++ '=' :: v) (hn : '=' ∉ n) :
    spellsNext u = relNext n v := by
  simp only [spellsNext, hu, takeWhile_cut hn, dropWhile_cut hn]

theorem spellsNext_uncut (hu : '=' ∉ trim isSpace u) : spellsNext u = false := by
  simp only [spellsNext, dropWhile_uncut hu]

theorem relNext_append_spaces {s : List Char} (hs : ∀ c ∈ s, isSpace c = true) :
    relNext n (v ++ s) = relNext n v := by
  rw [relNext, fieldsOf_append_spaces _ hs, relNext]

theorem trim_quote_eq_self (h : doubleQuote ∉ v) : trim (· = doubleQuote) v = v := by
  apply trim_eq_self
  · intro c hc
    exact decide_eq_false fun he => h (he ▸ List.mem_of_mem_head? hc)
  · intro c hc
    exact decide_eq_false fun he => h (he ▸ List.mem_of_getLast? hc)

theorem paramIsNext_eq_spellsNext (h : doubleQuote ∉ u) : paramIsNext u = spellsNext u := by
  by_cases hm : '=' ∈ trim isSpace u
  · obtain ⟨n, v, hu, hn⟩ := List.eq_append_cons_of_mem hm
    have hv : doubleQuote ∉ v := fun hv => h (trim_subset isSpace u (by simp [hu, hv]))
    rw [paramIsNext_cut hu hn, spellsNext_cut hu hn, trim_quote_eq_self hv]
  · rw [paramIsNext_uncut hm, spellsNext_uncut hm]

/-- The last part of a quoted value has the quotation mark at its end, behind which no spaces are
trimmed. -/
theorem paramIsNext_append_quote (h : doubleQuote ∉ u) :
    paramIsNext (u ++ [doubleQuote]) = spellsNext u := by
  obtain ⟨s, hs, hsub, htrim⟩ :=
    exists_trim_append_singleton (show isSpace doubleQuote = false by decide) u
  by_cases hm : '=' ∈ trim isSpace u
  · obtain ⟨n, v, hu, hn⟩ := List.eq_append_cons_of_mem hm
    have hv : doubleQuote ∉ v ++ s := by
      intro hv
      apply h
      apply hsub
      rw [hu, List.append_assoc]
      exact List.mem_append_right _ (List.mem_cons_of_mem _ hv)
    have hcut : trim isSpace (u ++ [doubleQuote]) = n ++ '=' :: (v ++ s ++ [doubleQuote]) := by
      rw [htrim, hu]
      simp
    rw [paramIsNext_cut hcut hn, spellsNext_cut hu hn, trim_append_right (by simp),
      trim_quote_eq_self hv, relNext_append_spaces hs]
  · rw [spellsNext_uncut hm, paramIsNext_uncut]
    rw [htrim, List.mem_append, List.mem_append]
    rintro ((hmem | hmem) | hmem)
    · exact hm hmem
    · exact absurd (hs _ hmem) (by decide)
    · exact absurd hmem (by decide)

end

theorem Token.not_mem (t : Token) {c : Char} (hc : isTokenChar c = false) : c ∉ t.chars :=
  fun h => ne_of_isTokenChar (t.token c h) hc rfl

/-- The first part of a parameter, which has the name. -/
theorem paramIsNext_name (t : Token) (v : List Char) :
    paramIsNext (t.chars ++ '=' :: v) =
      relNext t.chars (trim (· = doubleQuote) (trimRight isSpace v)) := by
  apply paramIsNext_cut
  · rw [trim_eq_trimRight, trimRight_append_cons (by decide)]
    intro c hc
    obtain ⟨d, ds, hd⟩ := List.exists_cons_of_ne_nil t.ne_nil
    rw [hd] at hc
    obtain rfl : d = c := Option.some.inj hc
    exact isSpace_of_isTokenChar (t.token d (by simp [hd]))
  · exact t.not_mem (by decide)

/-- A quoted value that was cut at a semicolon. -/
theorem paramIsNext_opened (t : Token) {v : List Char} (h : doubleQuote ∉ v) :
    paramIsNext (t.chars ++ '=' :: doubleQuote :: v) = relNext t.chars v := by
  obtain ⟨s, hs, hv⟩ := exists_eq_trimRight_append isSpace v
  have htrim : trimRight isSpace (doubleQuote :: v) = [doubleQuote] ++ trimRight isSpace v :=
    trimRight_append_cons (by decide) [] v
  have hq : doubleQuote ∉ trimRight isSpace v := fun hm => h (hv ▸ List.mem_append_left _ hm)
  rw [paramIsNext_name, htrim, trim_append_left (by simp), trim_quote_eq_self hq,
    ← relNext_append_spaces hs, ← hv]

theorem paramIsNext_quoted (t : Token) {v : List Char} (h : doubleQuote ∉ v) :
    paramIsNext (t.chars ++ '=' :: doubleQuote :: (v ++ [doubleQuote])) = relNext t.chars v := by
  have htrim : trimRight isSpace (doubleQuote :: (v ++ [doubleQuote])) =
      [doubleQuote] ++ (v ++ [doubleQuote]) :=
    trimRight_append_cons (by decide) (doubleQuote :: v) []
  rw [paramIsNext_name, htrim, trim_append_left (by simp), trim_append_right (by simp),
    trim_quote_eq_self h]

/-- The parts after the first semicolon, by the number of semicolons in them. -/
theorem readsNext_append_quote : ∀ (k : Nat) {u : List Char}, u.count ';' = k → doubleQuote ∉ u →
    readsNext (u ++ [doubleQuote]) = (u.splitOn ';').any spellsNext
  | 0, u, hk, hq => by
    have hu : ';' ∉ u := List.count_eq_zero.1 hk
    have hu' : ';' ∉ u ++ [doubleQuote] := by
      rw [List.mem_append]
      exact fun h => h.elim hu (by decide)
    rw [readsNext_of_not_mem hu', paramIsNext_append_quote hq, List.splitOn_eq_singleton hu,
      List.any_cons, List.any_nil, Bool.or_false]
  | k + 1, u, hk, hq => by
    have hmem : ';' ∈ u := List.count_pos_iff.1 (by omega)
    obtain ⟨v, w, rfl, hv⟩ := List.eq_append_cons_of_mem hmem
    rw [List.mem_append, List.mem_cons, not_or, not_or] at hq
    have hw : w.count ';' = k := by
      rw [List.count_append, List.count_cons_self, List.count_eq_zero.2 hv] at hk
      omega
    rw [List.append_assoc, List.cons_append, readsNext_cut, readsNext_append_quote k hw hq.2.2,
      readsNext_of_not_mem hv, paramIsNext_eq_spellsNext hq.1, List.splitOn_append_cons_self,
      List.splitOn_eq_singleton hv, List.singleton_append, List.any_cons]

/-- A parameter is read as it seems. -/
theorem Param.readsNext_text (p : Param) : readsNext p.text = p.seemsNext := by
  have hname : ∀ v, ';' ∉ v → ';' ∉ p.name.chars ++ '=' :: v := by
    intro v hv h
    rw [List.mem_append, List.mem_cons] at h
    rcases h with h | h | h
    · exact p.name.not_mem (by decide) h
    · exact absurd h (by decide)
    · exact hv h
  unfold Param.text Param.seemsNext
  cases p.value with
  | token t =>
    have ht : ';' ∉ t.chars := t.not_mem (by decide)
    obtain ⟨init, c, hc, hplain⟩ := t.endsPlain
    have htrim : trimRight isSpace t.chars = t.chars := by
      rw [hc, trimRight_append_cons hplain]
      rfl
    simp only [ParamValue.text, ParamValue.chars]
    rw [readsNext_of_not_mem (hname _ ht), paramIsNext_name, htrim,
      trim_quote_eq_self (t.not_mem (by decide)), List.splitOn_eq_singleton ht]
    simp
  | quoted chars hq =>
    simp only [ParamValue.text, ParamValue.chars]
    by_cases hs : ';' ∈ chars
    · obtain ⟨v, w, rfl, hv⟩ := List.eq_append_cons_of_mem hs
      rw [List.mem_append, List.mem_cons, not_or, not_or] at hq
      have hcut : p.name.chars ++ '=' :: doubleQuote :: (v ++ ';' :: w ++ [doubleQuote]) =
          (p.name.chars ++ '=' :: doubleQuote :: v) ++ ';' :: (w ++ [doubleQuote]) := by simp
      have hv' : ';' ∉ doubleQuote :: v := by
        rw [List.mem_cons]
        exact fun h => h.elim (by decide) hv
      rw [hcut, readsNext_cut, readsNext_of_not_mem (hname _ hv'), paramIsNext_opened _ hq.1,
        readsNext_append_quote _ rfl hq.2.2, List.splitOn_append_cons_self,
        List.splitOn_eq_singleton hv]
      rfl
    · have hs' : ';' ∉ doubleQuote :: (chars ++ [doubleQuote]) := by
        simp only [List.mem_cons, List.mem_append, List.not_mem_nil, or_false]
        exact fun h => h.elim (by decide) fun h => h.elim hs (by decide)
      rw [readsNext_of_not_mem (hname _ hs'), paramIsNext_quoted _ hq, List.splitOn_eq_singleton hs]
      simp

/-! ## The next page -/

def LinkValue.seemsNext (l : LinkValue) : Bool := l.params.any Param.seemsNext

theorem nextTarget_text (l : LinkValue) :
    nextTarget l.text = if l.seemsNext then some l.target else none := by
  have hleft : l.text.findIdx? (· = '<') = some 0 := rfl
  have hright : l.text.findIdx? (· = '>') = some (l.target.length + 1) := by
    rw [LinkValue.text, List.findIdx?_cons, List.findIdx?_append,
      List.findIdx?_eq_none_iff.2 fun c hc => decide_eq_false (l.plain c hc).2.1]
    simp [List.findIdx?_cons]
  have hdrop : l.text.drop (l.target.length + 1 + 1) = l.params.flatMap Param.render := by
    simp [LinkValue.text]
  have htake : (l.text.take (l.target.length + 1)).drop (0 + 1) = l.target := by
    simp [LinkValue.text]
  have hreads : ((l.params.flatMap Param.render).splitOn ';').any paramIsNext = l.seemsNext := by
    have h := readsNext_params l.params []
    simp only [List.nil_append, Param.readsNext_text] at h
    exact h
  simp only [nextTarget, hleft, hright, hdrop, htake, hreads]
  rw [if_neg (by omega)]

/-- `nextLink` returns the target of the first link that seems to list `next`. -/
theorem nextLink_renderLinks (links : List LinkValue) :
    nextLink (renderLinks links) = firstTarget LinkValue.seemsNext links := by
  rw [nextLink, splitLinks_render, firstTarget]
  congr 1
  induction links with
  | nil => rfl
  | cons l ls ih =>
    rw [List.map_cons, List.findSome?_cons, nextTarget_text, List.find?_cons]
    cases l.seemsNext
    · exact ih
    · rfl

/-- The first link that lists `next` or seems to do both, or else the first link after it of the
other kind has the same target. -/
def ReadAlike : List LinkValue → Prop
  | [] => True
  | l :: ls =>
    match l.listsNext, l.seemsNext with
    | true, true => True
    | false, false => ReadAlike ls
    | true, false => l.target = firstTarget LinkValue.seemsNext ls
    | false, true => l.target = firstTarget LinkValue.listsNext ls

theorem firstTarget_cons (p : LinkValue → Bool) (l : LinkValue) (ls : List LinkValue) :
    firstTarget p (l :: ls) = if p l then l.target else firstTarget p ls := by
  rw [firstTarget, List.find?_cons]
  cases p l <;> rfl

theorem firstTarget_eq_iff : ∀ links : List LinkValue,
    firstTarget LinkValue.seemsNext links = firstTarget LinkValue.listsNext links ↔ ReadAlike links
  | [] => by simp [ReadAlike, firstTarget]
  | l :: ls => by
    have ih := firstTarget_eq_iff ls
    rw [firstTarget_cons, firstTarget_cons, ReadAlike]
    cases hl : l.listsNext <;> cases hr : l.seemsNext
    · simpa using ih
    · simp
    · simp [eq_comm]
    · simp

/-- A value without a semicolon is read as what it is. -/
theorem Param.seemsNext_eq {p : Param} (h : ';' ∉ p.value.chars) : p.seemsNext = p.listsNext := by
  rw [Param.seemsNext, List.splitOn_eq_singleton h, Param.listsNext]
  simp

theorem LinkValue.seemsNext_eq {l : LinkValue} (h : ∀ p ∈ l.params, ';' ∉ p.value.chars) :
    l.seemsNext = l.listsNext := by
  rw [LinkValue.seemsNext, LinkValue.listsNext, Bool.eq_iff_iff, List.any_eq_true, List.any_eq_true]
  refine exists_congr fun p => and_congr_right fun hp => ?_
  rw [Param.seemsNext_eq (h p hp)]

/-- Without semicolons in the values, `nextLink` finds the first link that lists `next`. -/
theorem nextLink_of_no_semicolon {links : List LinkValue}
    (h : ∀ l ∈ links, ∀ p ∈ l.params, ';' ∉ p.value.chars) :
    nextLink (renderLinks links) = firstTarget LinkValue.listsNext links := by
  rw [nextLink_renderLinks]
  induction links with
  | nil => rfl
  | cons l ls ih =>
    rw [List.forall_mem_cons] at h
    rw [firstTarget_cons, firstTarget_cons, ih h.2, LinkValue.seemsNext_eq h.1]

/-- `nextLink` returns the target of the first link that lists `next`, unless a quoted value that is
cut at its semicolons seems to say otherwise. -/
theorem nextLink_iff (links : List LinkValue) :
    nextLink (renderLinks links) = firstTarget LinkValue.listsNext links ↔ ReadAlike links := by
  rw [nextLink_renderLinks, firstTarget_eq_iff]

def Spaces.none : Spaces := ⟨[], fun _ h => absurd h List.not_mem_nil⟩

theorem titled_plain : ∀ c ∈ ['/', 'p'], c ≠ '<' ∧ c ≠ '>' ∧ c ≠ doubleQuote := by
  simp only [List.forall_mem_cons]
  exact ⟨by decide, by decide, fun _ h => absurd h List.not_mem_nil⟩

theorem titled_name : ∀ c ∈ ['t', 'i', 't', 'l', 'e'], isTokenChar c = true :=
  List.all_eq_true.1 rfl

theorem titled_value : doubleQuote ∉ ['a', ';', ' ', 'r', 'e', 'l', '=', 'n', 'e', 'x', 't'] := by
  decide

/-- A link whose title mentions a parameter. -/
def titledLink : LinkValue where
  before := .none
  after := .none
  target := ['/', 'p']
  plain := titled_plain
  params := [
    { before := .none
      after := .none
      name := ⟨['t', 'i', 't', 'l', 'e'], List.cons_ne_nil _ _, titled_name⟩
      value := .quoted ['a', ';', ' ', 'r', 'e', 'l', '=', 'n', 'e', 'x', 't'] titled_value }]

theorem nextLink_titled :
    titledLink.listsNext = false ∧ firstTarget LinkValue.listsNext [titledLink] = [] ∧
      nextLink (renderLinks [titledLink]) = ['/', 'p'] := by
  decide

end Bridge.Mastodon
