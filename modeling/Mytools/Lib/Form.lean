import Mytools.Lib.Bytes
import Mytools.Lib.Table
import Mathlib.Data.List.Sort

/-!
# Form-encoded values

`url.Values` as `net/url` writes and reads them. A form that was written with one value for each of
its keys is read back as the same form, as long as the reader's limit on the number of parameters
allows it.
-/

namespace Lib.Form

/-! ## Escaping -/

def upperDigit (n : Nat) : UInt8 := UInt8.ofNat (hexDigit n).toUpper.toNat

/-- The value of a hexadecimal digit, of either case. -/
def hexValue? (b : UInt8) : Option Nat :=
  if 48 ≤ b.toNat ∧ b.toNat ≤ 57 then some (b.toNat - 48)
  else if 97 ≤ b.toNat ∧ b.toNat ≤ 102 then some (b.toNat - 87)
  else if 65 ≤ b.toNat ∧ b.toNat ≤ 70 then some (b.toNat - 55)
  else none

/-- A letter, a digit or one of `-_.~`. -/
def isUnreserved (b : UInt8) : Bool :=
  (48 ≤ b.toNat && b.toNat ≤ 57) || (65 ≤ b.toNat && b.toNat ≤ 90) ||
    (97 ≤ b.toNat && b.toNat ≤ 122) || b == 45 || b == 95 || b == 46 || b == 126

def escapeByte (b : UInt8) : Bytes :=
  if b = 32 then [43]
  else if isUnreserved b then [b]
  else [37, upperDigit (b.toNat / 16), upperDigit (b.toNat % 16)]

/-- `url.QueryEscape` -/
def queryEscape (s : Bytes) : Bytes := s.flatMap escapeByte

/-- A byte that stands for itself, or a plus sign for a space. -/
def plain (b : UInt8) : UInt8 := if b = 43 then 32 else b

/-- `url.QueryUnescape` -/
def queryUnescape : Bytes → Option Bytes
  | [] => some []
  | b :: h :: l :: s =>
    if b = 37 then do
      let x ← hexValue? h
      let y ← hexValue? l
      let t ← queryUnescape s
      some (UInt8.ofNat (x * 16 + y) :: t)
    else (queryUnescape (h :: l :: s)).map (plain b :: ·)
  | b :: s => if b = 37 then none else (queryUnescape s).map (plain b :: ·)

theorem queryUnescape_cons {b : UInt8} (hb : b ≠ 37) (s : Bytes) :
    queryUnescape (b :: s) = (queryUnescape s).map (plain b :: ·) := by
  match s with
  | [] => simp [queryUnescape, hb]
  | [_] => simp [queryUnescape, hb]
  | _ :: _ :: _ => rw [queryUnescape, if_neg hb]

theorem hexValue?_upperDigit : ∀ n < 16, hexValue? (upperDigit n) = some n := by decide

theorem isUnreserved_upperDigit : ∀ n < 16, isUnreserved (upperDigit n) = true := by decide

theorem queryUnescape_escapeByte (b : UInt8) (s : Bytes) :
    queryUnescape (escapeByte b ++ s) = (queryUnescape s).map (b :: ·) := by
  unfold escapeByte
  split
  · rename_i h
    rw [h, List.singleton_append, queryUnescape_cons (by decide)]
    rfl
  · split
    · rename_i hu
      have h37 : b ≠ 37 := fun he => absurd (he ▸ hu) (by decide)
      have h43 : b ≠ 43 := fun he => absurd (he ▸ hu) (by decide)
      rw [List.singleton_append, queryUnescape_cons h37, plain, if_neg h43]
    · have hb := b.toNat_lt
      have he : b.toNat / 16 * 16 + b.toNat % 16 = b.toNat := by omega
      simp only [List.cons_append, List.nil_append, queryUnescape, if_true,
        hexValue?_upperDigit (b.toNat / 16) (by omega),
        hexValue?_upperDigit (b.toNat % 16) (by omega),
        Option.bind_eq_bind, Option.bind_some, he, UInt8.ofNat_toNat]
      cases queryUnescape s <;> rfl

theorem queryUnescape_queryEscape (s : Bytes) : queryUnescape (queryEscape s) = some s := by
  induction s with
  | nil => rfl
  | cons b s ih =>
    rw [queryEscape, List.flatMap_cons, queryUnescape_escapeByte]
    rw [queryEscape] at ih
    rw [ih, Option.map_some]

/-- A byte of an escaped text. -/
def isEscaped (b : UInt8) : Bool := isUnreserved b || b == 37 || b == 43

theorem isEscaped_of_mem {b : UInt8} {s : Bytes} (h : b ∈ queryEscape s) : isEscaped b = true := by
  obtain ⟨a, -, ha⟩ := List.mem_flatMap.1 h
  have hlt := a.toNat_lt
  unfold escapeByte at ha
  split at ha
  · simp [isEscaped, List.mem_singleton.1 ha]
  · split at ha
    · rename_i hu
      simp [isEscaped, List.mem_singleton.1 ha, hu]
    · simp only [List.mem_cons, List.not_mem_nil, or_false] at ha
      rcases ha with ha | ha | ha
      · simp [isEscaped, ha]
      · simp [isEscaped, ha, isUnreserved_upperDigit (a.toNat / 16) (by omega)]
      · simp [isEscaped, ha, isUnreserved_upperDigit (a.toNat % 16) (by omega)]

theorem not_mem_queryEscape {b : UInt8} (h : isEscaped b = false) (s : Bytes) :
    b ∉ queryEscape s := by
  intro hm
  rw [isEscaped_of_mem hm] at h
  cases h

/-! ## Forms -/

/-- `url.Values` -/
abbrev Values := Table Bytes (List Bytes)

/-- The keys of a table in the order of `slices.Sorted`. -/
def sortedKeys {V : Type} (t : Table Bytes V) : List Bytes :=
  (t.rows.map (·.1)).insertionSort fun a b => Bytes.le a b = true

def encodePair (p : Bytes × Bytes) : Bytes := queryEscape p.1 ++ 61 :: queryEscape p.2

def encodePairs (ps : List (Bytes × Bytes)) : Bytes := Bytes.join 38 (ps.map encodePair)

/-- `Values.Encode` -/
def encode (values : Values) : Bytes :=
  encodePairs ((sortedKeys values).flatMap fun k => ((values.get? k).getD []).map fun v => (k, v))

/-- `m[key] = append(m[key], value)` -/
def add (values : Values) (p : Bytes × Bytes) : Values :=
  values.set p.1 ((values.get? p.1).getD [] ++ [p.2])

/-- The form with the one value of each key that `Values.Set` gives it. -/
def ofMap (t : Table Bytes Bytes) : Values := Table.empty.setAll (t.rows.map fun r => (r.1, [r.2]))

/-- The first value of each key. -/
def firsts (values : Values) : List (Bytes × Bytes) :=
  values.rows.filterMap fun r => r.2.head?.map fun v => (r.1, v)

/-- One parameter of a query; a semicolon or an escape that is not one is an error. -/
def parsePair (values : Values) (s : Bytes) : Option Values :=
  if 59 ∈ s then none
  else if s = [] then some values
  else do
    let (key, value) := (Bytes.cut 61 s).getD (s, [])
    let key ← queryUnescape key
    let value ← queryUnescape value
    some (add values (key, value))

/-- `url.ParseQuery`, where `withinMax` is the limit on the number of parameters. The values that it
returns beside an error are not modelled. -/
def parseQuery (withinMax : Nat → Bool) (query : Bytes) : Option Values :=
  if withinMax (query.count 38 + 1) then (Bytes.split 38 query).foldlM parsePair Table.empty
  else none

theorem parsePair_encodePair (values : Values) (p : Bytes × Bytes) :
    parsePair values (encodePair p) = some (add values p) := by
  have h59 : (59 : UInt8) ∉ encodePair p := by
    simp [encodePair, not_mem_queryEscape (b := 59) (by decide)]
  have hne : encodePair p ≠ [] := by simp [encodePair]
  have hcut : Bytes.cut 61 (encodePair p) = some (queryEscape p.1, queryEscape p.2) :=
    Bytes.cut_append (not_mem_queryEscape (by decide) p.1)
  rw [parsePair, if_neg h59, if_neg hne, hcut]
  simp only [Option.getD_some, queryUnescape_queryEscape]
  rfl

theorem foldlM_parsePair : ∀ (ps : List (Bytes × Bytes)) (values : Values),
    (ps.map encodePair).foldlM parsePair values = some (ps.foldl add values)
  | [], _ => rfl
  | p :: ps, values => by
    rw [List.map_cons, List.foldlM_cons, parsePair_encodePair, List.foldl_cons]
    exact foldlM_parsePair ps (add values p)

theorem not_mem_encodePair {b : UInt8} (h : isEscaped b = false) (h61 : b ≠ 61)
    (p : Bytes × Bytes) :
    b ∉ encodePair p := by
  simp [encodePair, not_mem_queryEscape h, h61]

theorem count_encodePairs : ∀ ps : List (Bytes × Bytes), ps ≠ [] →
    (encodePairs ps).count 38 + 1 = ps.length
  | [p], _ => by
    have h := List.count_eq_zero.2 (not_mem_encodePair (b := 38) (by decide) (by decide) p)
    simpa [encodePairs, Bytes.join] using h
  | p :: q :: ps, _ => by
    have h := List.count_eq_zero.2 (not_mem_encodePair (b := 38) (by decide) (by decide) p)
    have ih := count_encodePairs (q :: ps) (by simp)
    simp only [encodePairs, Bytes.join, List.map_cons] at ih ⊢
    rw [List.intercalate_cons_cons, List.count_append, List.count_append, h]
    simp only [List.count_singleton_self, List.length_cons] at ih ⊢
    omega

theorem split_encodePairs {ps : List (Bytes × Bytes)} (hne : ps ≠ []) :
    Bytes.split 38 (encodePairs ps) = ps.map encodePair := by
  refine Bytes.split_join (fun x hx => ?_) (by simpa using hne)
  obtain ⟨p, -, rfl⟩ := List.mem_map.1 hx
  exact not_mem_encodePair (by decide) (by decide) p

/-- The pairs of a form are read back, within the limit. -/
theorem parseQuery_encodePairs {withinMax : Nat → Bool} {ps : List (Bytes × Bytes)}
    (hne : ps ≠ []) :
    parseQuery withinMax (encodePairs ps) =
      if withinMax ps.length then some (ps.foldl add Table.empty) else none := by
  rw [parseQuery, count_encodePairs ps hne, split_encodePairs hne, foldlM_parsePair]

theorem mem_encodePairs : ∀ {ps : List (Bytes × Bytes)}, ps ≠ [] → (61 : UInt8) ∈ encodePairs ps
  | [p], _ => by simp [encodePairs, Bytes.join, encodePair]
  | p :: q :: ps, _ => by
    simp only [encodePairs, Bytes.join, List.map_cons, List.intercalate_cons_cons]
    simp [encodePair]

theorem not_mem_encodePairs {b : UInt8} (h : isEscaped b = false) (h61 : b ≠ 61) (h38 : b ≠ 38) :
    ∀ ps : List (Bytes × Bytes), b ∉ encodePairs ps
  | [] => by simp [encodePairs, Bytes.join]
  | [p] => by simpa [encodePairs, Bytes.join] using not_mem_encodePair h h61 p
  | p :: q :: ps => by
    have hp := not_mem_encodePair h h61 p
    have ih := not_mem_encodePairs h h61 h38 (q :: ps)
    simp only [encodePairs, Bytes.join, List.map_cons] at ih ⊢
    rw [List.intercalate_cons_cons]
    simp [hp, ih, h38]

theorem lt_of_isEscaped {b : UInt8} (h : isEscaped b = true) : b.toNat < 128 := by
  simp only [isEscaped, isUnreserved, Bool.or_eq_true, Bool.and_eq_true, decide_eq_true_eq,
    beq_iff_eq] at h
  rcases h with ((((((((⟨-, h⟩ | ⟨-, h⟩) | ⟨-, h⟩) | h) | h) | h) | h) | h) | h)
  all_goals first | omega | (rw [h]; decide)

/-- A form is an ASCII text. -/
theorem encode_valid (values : Values) : Bytes.Valid (encode values) := by
  refine Bytes.valid_of_ascii fun b hb => ?_
  by_cases h61 : b = 61
  · rw [h61]; decide
  by_cases h38 : b = 38
  · rw [h38]; decide
  cases hu : isEscaped b with
  | true => exact lt_of_isEscaped hu
  | false => exact absurd hb (not_mem_encodePairs hu h61 h38 _)

/-! ## Maps as forms -/

theorem sortedKeys_perm {V : Type} (t : Table Bytes V) (d : V) :
    ((sortedKeys t).map fun k => (k, (t.get? k).getD d)).Perm t.rows := by
  have hp : ((sortedKeys t).map fun k => (k, (t.get? k).getD d)).Perm
      ((t.rows.map (·.1)).map fun k => (k, (t.get? k).getD d)) :=
    (List.perm_insertionSort _ _).map _
  have hrows : ((t.rows.map (·.1)).map fun k => (k, (t.get? k).getD d)) = t.rows := by
    rw [List.map_map]
    refine (List.map_congr_left fun r hr => ?_).trans (List.map_id t.rows)
    have hget : t.get? r.1 = some r.2 := Table.get?_eq_some_iff.2 hr
    simp [hget]
  rwa [hrows] at hp

theorem ofMap_perm (t : Table Bytes Bytes) :
    (ofMap t).rows.Perm (t.rows.map fun r => (r.1, [r.2])) := by
  have hn : ((t.rows.map fun r => (r.1, [r.2])).map (·.1)).Nodup := by
    rw [List.map_map]
    exact t.nodup
  exact (Table.Same.setAll_of_perm (t := ⟨_, hn⟩) (List.Perm.refl _)).perm

/-- The pairs that the form of a map is written as. -/
def pairs (t : Table Bytes Bytes) : List (Bytes × Bytes) :=
  (sortedKeys (ofMap t)).flatMap fun k => (((ofMap t).get? k).getD []).map fun v => (k, v)

theorem pairs_perm (t : Table Bytes Bytes) : (pairs t).Perm t.rows := by
  have he : pairs t = ((sortedKeys (ofMap t)).map fun k => (k, ((ofMap t).get? k).getD [])).flatMap
      fun r => r.2.map fun v => (r.1, v) := by
    rw [pairs, List.flatMap_map]
  have hp := ((sortedKeys_perm (ofMap t) []).trans (ofMap_perm t)).flatMap_right
    fun r => r.2.map fun v => (r.1, v)
  rw [← he, List.flatMap_map] at hp
  simpa using hp

theorem foldl_add : ∀ {ps : List (Bytes × Bytes)} {values : Values}, (ps.map (·.1)).Nodup →
    (∀ p ∈ ps, values.get? p.1 = none) →
    ps.foldl add values = values.setAll (ps.map fun p => (p.1, [p.2]))
  | [], _, _, _ => rfl
  | p :: ps, values, hn, h => by
    rw [List.map_cons, List.nodup_cons] at hn
    have hadd : add values p = values.set p.1 [p.2] := by
      rw [add, h p List.mem_cons_self]
      rfl
    have hrest : ∀ q ∈ ps, (values.set p.1 [p.2]).get? q.1 = none := by
      intro q hq
      have hne : q.1 ≠ p.1 := fun he => hn.1 (he ▸ List.mem_map_of_mem hq)
      rw [Table.get?_set, if_neg hne]
      exact h q (List.mem_cons_of_mem p hq)
    rw [List.foldl_cons, hadd, foldl_add hn.2 hrest]
    rfl

/-- The form of a map that has a key is read back within the limit, and not at all beyond it. -/
theorem parseQuery_encode_ofMap (withinMax : Nat → Bool) {t : Table Bytes Bytes}
    (hne : t.rows ≠ []) :
    ∃ values, (firsts values).Perm t.rows ∧
      parseQuery withinMax (encode (ofMap t)) =
        if withinMax t.rows.length then some values else none := by
  have hp := pairs_perm t
  have hne' : pairs t ≠ [] := fun he => hne (List.perm_nil.1 (he ▸ hp).symm)
  have hn : ((pairs t).map (·.1)).Nodup := (hp.map _).nodup_iff.2 t.nodup
  have hn' : (((pairs t).map fun p => (p.1, [p.2])).map (·.1)).Nodup := by
    rw [List.map_map]
    exact hn
  refine ⟨(pairs t).foldl add Table.empty, ?_, ?_⟩
  · rw [foldl_add hn fun p _ => rfl]
    have hrows := (Table.Same.setAll_of_perm (t := ⟨_, hn'⟩) (List.Perm.refl _)).perm
    have hf := hrows.filterMap fun r => r.2.head?.map fun v => (r.1, v)
    have hsome : ((fun r : Bytes × List Bytes => r.2.head?.map fun v => (r.1, v)) ∘
        fun p : Bytes × Bytes => (p.1, [p.2])) = some := rfl
    rw [List.filterMap_map, hsome, List.filterMap_some] at hf
    exact hf.trans hp
  · have henc : encode (ofMap t) = encodePairs (pairs t) := rfl
    rw [henc, parseQuery_encodePairs hne', hp.length_eq]

/-! ## Forms with the same parameters -/

/-- The two forms have the same values of every key. -/
def SameParams (v v' : Values) : Prop := ∀ k, (v.get? k).getD [] = (v'.get? k).getD []

theorem encodePair_injective : Function.Injective encodePair := by
  intro p q h
  have hcut : ∀ p : Bytes × Bytes, Bytes.cut 61 (encodePair p) =
      some (queryEscape p.1, queryEscape p.2) :=
    fun p => Bytes.cut_append (not_mem_queryEscape (by decide) p.1)
  have hc := hcut p
  rw [h, hcut q, Option.some.injEq, Prod.mk.injEq] at hc
  have hescape : ∀ {s t : Bytes}, queryEscape s = queryEscape t → s = t := fun he =>
    Option.some.inj (by rw [← queryUnescape_queryEscape, he, queryUnescape_queryEscape])
  exact Prod.ext (hescape hc.1).symm (hescape hc.2).symm

theorem encodePairs_injective : Function.Injective encodePairs := by
  have hnil : ∀ {ps : List (Bytes × Bytes)}, encodePairs [] = encodePairs ps → ps = [] := by
    intro ps h
    by_contra hne
    have hm := mem_encodePairs hne
    rw [← h] at hm
    simp [encodePairs, Bytes.join] at hm
  intro ps qs h
  by_cases hp : ps = []
  · rw [hp] at h ⊢
    exact (hnil h).symm
  by_cases hq : qs = []
  · rw [hq] at h ⊢
    exact hnil h.symm
  have hs := congrArg (Bytes.split 38) h
  rw [split_encodePairs hp, split_encodePairs hq] at hs
  exact List.map_injective_iff.2 encodePair_injective hs

/-- The values of a key among the pairs that a form is written as. -/
theorem filter_pairs {g : Bytes → List Bytes} {k : Bytes} : ∀ {ks : List Bytes}, ks.Nodup →
    (k ∉ ks → g k = []) →
    ((ks.flatMap fun k => (g k).map fun v => (k, v)).filter (·.1 = k)).map (·.2) = g k
  | [], _, h => (h (by simp)).symm
  | a :: ks, hn, h => by
    rw [List.nodup_cons] at hn
    by_cases he : a = k
    · subst he
      have hrest : (ks.flatMap fun k => (g k).map fun v => (k, v)).filter (·.1 = a) = [] := by
        rw [List.filter_eq_nil_iff]
        intro p hp
        obtain ⟨b, hb, hm⟩ := List.mem_flatMap.1 hp
        obtain ⟨v, -, rfl⟩ := List.mem_map.1 hm
        simpa using fun hab : b = a => hn.1 (hab ▸ hb)
      rw [List.flatMap_cons, List.filter_append, hrest, List.append_nil, List.filter_map]
      simp [Function.comp_def]
    · have hfirst : ((g a).map fun v => (a, v)).filter (·.1 = k) = [] := by
        simp [List.filter_eq_nil_iff, he]
      rw [List.flatMap_cons, List.filter_append, hfirst, List.nil_append]
      exact filter_pairs hn.2 fun hk => h (by simp [Ne.symm he, hk])

/-- Only forms with the same parameters are written the same. -/
theorem sameParams_of_encode {v v' : Values} (h : encode v = encode v') : SameParams v v' := by
  intro k
  have hvalues : ∀ v : Values, (((sortedKeys v).flatMap fun k => ((v.get? k).getD []).map
      fun x => (k, x)).filter (·.1 = k)).map (·.2) = (v.get? k).getD [] := by
    intro v
    have hp := List.perm_insertionSort (fun a b => Bytes.le a b = true) (v.rows.map (·.1))
    refine filter_pairs (g := fun k => (v.get? k).getD []) (hp.nodup_iff.2 v.nodup) fun hk => ?_
    cases hget : v.get? k with
    | none => rfl
    | some x =>
      have hm := List.mem_map_of_mem (f := (·.1)) (Table.get?_eq_some_iff.1 hget)
      exact absurd (hp.mem_iff.2 hm) hk
  rw [← hvalues v, ← hvalues v', encodePairs_injective h]

end Lib.Form
