import Mathlib.Data.List.Basic
import Mathlib.Data.Nat.Digits.Defs
import Mytools.Lib.Text

/-!
# JSON texts

Values, the texts they are written as and the reading of a text (`parse`). Writers differ in which
characters they escape although they need not; what they write is read alike (`parse_write`).
Numbers are integers.
-/

namespace Lib

inductive Json where
  | null
  | bool (b : Bool)
  | num (n : Int)
  | str (s : String)
  | arr (items : List Json)
  | obj (members : List (String × Json))

namespace Json

def quotation : Char := Char.ofNat 34

def backslash : Char := Char.ofNat 92

def openBrace : Char := Char.ofNat 123

def closeBrace : Char := Char.ofNat 125

/-! ## Writing -/

/-- Characters that are escaped with a letter. -/
def letters : List (Char × Char) :=
  [(quotation, quotation), (backslash, backslash), ('\n', 'n'), ('\r', 'r'), ('\t', 't'),
    (Char.ofNat 8, 'b'), (Char.ofNat 12, 'f')]

def hex4 (n : Nat) : List Char :=
  [hexDigit (n / 4096 % 16), hexDigit (n / 256 % 16), hexDigit (n / 16 % 16), hexDigit (n % 16)]

/-- One character of a string; `escape` says which characters are escaped without need. -/
def writeChar (escape : Char → Bool) (c : Char) : List Char :=
  match letters.lookup c with
  | some l => [backslash, l]
  | none =>
    if c.toNat < 32 ∨ (escape c = true ∧ c.toNat < 65536) then backslash :: 'u' :: hex4 c.toNat
    else [c]

def writeString (escape : Char → Bool) (s : String) : List Char :=
  quotation :: s.toList.flatMap (writeChar escape) ++ [quotation]

def writeInt (n : Int) : List Char :=
  if n < 0 then '-' :: Nat.toDigits 10 n.natAbs else Nat.toDigits 10 n.natAbs

mutual

def write (escape : Char → Bool) : Json → List Char
  | .null => "null".toList
  | .bool true => "true".toList
  | .bool false => "false".toList
  | .num n => writeInt n
  | .str s => writeString escape s
  | .arr [] => ['[', ']']
  | .arr (j :: js) => '[' :: (write escape j ++ writeItems escape js)
  | .obj [] => [openBrace, closeBrace]
  | .obj ((k, j) :: ms) =>
    openBrace :: (writeString escape k ++ ':' :: (write escape j ++ writeMembers escape ms))

/-- The items after the first one, and the end. -/
def writeItems (escape : Char → Bool) : List Json → List Char
  | [] => [']']
  | j :: js => ',' :: (write escape j ++ writeItems escape js)

def writeMembers (escape : Char → Bool) : List (String × Json) → List Char
  | [] => [closeBrace]
  | (k, j) :: ms =>
    ',' :: (writeString escape k ++ ':' :: (write escape j ++ writeMembers escape ms))

end

/-! ## Reading -/

def isBlank (c : Char) : Bool := c = ' ' || c = '\t' || c = '\n' || c = '\r'

def skipSpace (cs : List Char) : List Char := cs.dropWhile isBlank

def hexValue? (c : Char) : Option Nat :=
  if c.isDigit then some (c.toNat - 48)
  else if 97 ≤ c.toNat ∧ c.toNat ≤ 102 then some (c.toNat - 87)
  else if 65 ≤ c.toNat ∧ c.toNat ≤ 70 then some (c.toNat - 55)
  else none

/-- The character of an escape with four digits; halves of a pair are refused. -/
def unhex4 (a b c d : Char) : Option Char := do
  let n := (← hexValue? a) * 4096 + (← hexValue? b) * 256 + (← hexValue? c) * 16 + (← hexValue? d)
  if n < 55296 ∨ 57343 < n then some (Char.ofNat n) else none

/-- The character of an escape with a letter. -/
def unletter (l : Char) : Option Char :=
  if l = '/' then some l else (letters.find? (·.2 = l)).map (·.1)

/-- A string after its quotation mark, up to the next one. -/
def readString : List Char → Option (List Char × List Char)
  | [] => none
  | c :: cs =>
    if c = quotation then some ([], cs)
    else if c = backslash then
      match cs with
      | [] => none
      | 'u' :: w :: x :: y :: z :: rest => do
        let d ← unhex4 w x y z
        let r ← readString rest
        some (d :: r.1, r.2)
      | l :: rest => do
        let d ← unletter l
        let r ← readString rest
        some (d :: r.1, r.2)
    else if c.toNat < 32 then none
    else (readString cs).map fun r => (c :: r.1, r.2)

def readNat (cs : List Char) : Option (Nat × List Char) :=
  let ds := cs.takeWhile Char.isDigit
  if ds = [] then none else some (Nat.ofDigitChars 10 ds 0, cs.dropWhile Char.isDigit)

def readWord (word : String) (j : Json) (cs : List Char) : Option (Json × List Char) :=
  if word.toList.isPrefixOf cs then some (j, cs.drop word.length) else none

mutual

def readValue : Nat → List Char → Option (Json × List Char)
  | 0, _ => none
  | n + 1, cs =>
    match skipSpace cs with
    | [] => none
    | c :: rest =>
      if c = quotation then (readString rest).map fun r => (.str (String.ofList r.1), r.2)
      else if c = '[' then
        if (skipSpace rest).head? = some ']' then some (.arr [], (skipSpace rest).tail)
        else do
          let r ← readValue n rest
          let s ← readItems n r.2
          some (.arr (r.1 :: s.1), s.2)
      else if c = openBrace then
        if (skipSpace rest).head? = some closeBrace then some (.obj [], (skipSpace rest).tail)
        else do
          let r ← readMember n rest
          let s ← readMembers n r.2
          some (.obj (r.1 :: s.1), s.2)
      else if c = '-' then (readNat rest).map fun r => (.num (-r.1), r.2)
      else if c.isDigit then (readNat (c :: rest)).map fun r => (.num r.1, r.2)
      else if c = 'n' then readWord "null" .null (c :: rest)
      else if c = 't' then readWord "true" (.bool true) (c :: rest)
      else readWord "false" (.bool false) (c :: rest)

def readItems : Nat → List Char → Option (List Json × List Char)
  | 0, _ => none
  | n + 1, cs =>
    match skipSpace cs with
    | [] => none
    | c :: rest =>
      if c = ']' then some ([], rest)
      else if c = ',' then do
        let r ← readValue n rest
        let s ← readItems n r.2
        some (r.1 :: s.1, s.2)
      else none

def readMember : Nat → List Char → Option ((String × Json) × List Char)
  | 0, _ => none
  | n + 1, cs =>
    if (skipSpace cs).head? = some quotation then do
      let k ← readString (skipSpace cs).tail
      if (skipSpace k.2).head? = some ':' then do
        let r ← readValue n (skipSpace k.2).tail
        some ((String.ofList k.1, r.1), r.2)
      else none
    else none

def readMembers : Nat → List Char → Option (List (String × Json) × List Char)
  | 0, _ => none
  | n + 1, cs =>
    match skipSpace cs with
    | [] => none
    | c :: rest =>
      if c = closeBrace then some ([], rest)
      else if c = ',' then do
        let r ← readMember n rest
        let s ← readMembers n r.2
        some (r.1 :: s.1, s.2)
      else none

end

/-- The value of a text. Every call of the reader but one for each member reads a character. -/
def parse (s : String) : Option Json :=
  match readValue (2 * s.length + 2) s.toList with
  | some (j, rest) => if skipSpace rest = [] then some j else none
  | none => none

/-! ## Strings that are read back -/

theorem hexValue?_hexDigit : ∀ n < 16, hexValue? (hexDigit n) = some n := by decide

theorem unhex4_hex4 {c : Char} (h : c.toNat < 65536) :
    unhex4 (hexDigit (c.toNat / 4096 % 16)) (hexDigit (c.toNat / 256 % 16))
      (hexDigit (c.toNat / 16 % 16)) (hexDigit (c.toNat % 16)) = some c := by
  have hn : c.toNat / 4096 % 16 * 4096 + c.toNat / 256 % 16 * 256 + c.toNat / 16 % 16 * 16 +
      c.toNat % 16 = c.toNat := by omega
  have hvalid : c.toNat < 55296 ∨ 57343 < c.toNat := by
    rcases c.valid with hv | hv
    · exact .inl hv
    · exact .inr hv.1
  simp only [unhex4, hexValue?_hexDigit _ (Nat.mod_lt _ (by decide)), Option.bind_eq_bind,
    Option.bind_some, hn, if_pos hvalid, Char.ofNat_toNat]

theorem readString_letter : ∀ p ∈ letters, ∀ rest, readString (backslash :: p.2 :: rest) =
    (readString rest).map fun r => (p.1 :: r.1, r.2) := by
  intro p hp rest
  simp only [letters, List.mem_cons, List.not_mem_nil, or_false] at hp
  rcases hp with rfl | rfl | rfl | rfl | rfl | rfl | rfl
  all_goals
    rw [readString.eq_def]
    cases hr : readString rest <;> simp [hr, backslash, quotation, unletter, letters]

theorem readString_writeChar (escape : Char → Bool) (c : Char) (rest : List Char) :
    readString (writeChar escape c ++ rest) = (readString rest).map fun r => (c :: r.1, r.2) := by
  unfold writeChar
  cases hl : letters.lookup c with
  | some l =>
    obtain ⟨as, bs, he, -⟩ := List.lookup_eq_some_iff.1 hl
    exact readString_letter (c, l) (by simp [he]) rest
  | none =>
    have hne : ∀ p ∈ letters, c ≠ p.1 := fun p hp he =>
      absurd (List.lookup_eq_none_iff.1 hl p hp) (by simp [he])
    have hq : c ≠ quotation := hne (quotation, quotation) (by decide)
    have hb : c ≠ backslash := hne (backslash, backslash) (by decide)
    by_cases hu : c.toNat < 32 ∨ (escape c = true ∧ c.toNat < 65536)
    · have hlt : c.toNat < 65536 := by
        rcases hu with hu | hu
        · omega
        · exact hu.2
      simp only [if_pos hu, hex4, List.cons_append, List.nil_append]
      rw [readString.eq_def]
      simp only [unhex4_hex4 hlt, Option.bind_eq_bind, Option.bind_some]
      cases readString rest <;> rfl
    · have h32 : ¬ c.toNat < 32 := fun h => hu (.inl h)
      simp only [if_neg hu, List.singleton_append]
      rw [readString.eq_def]
      simp only [if_neg hq, if_neg hb, if_neg h32]

theorem readString_writeString (escape : Char → Bool) (s : String) (rest : List Char) :
    readString (s.toList.flatMap (writeChar escape) ++ quotation :: rest) =
      some (s.toList, rest) := by
  induction s.toList with
  | nil =>
    rw [readString.eq_def]
    rfl
  | cons c cs ih =>
    rw [List.flatMap_cons, List.append_assoc, readString_writeChar, ih]
    rfl

theorem writeString_append (escape : Char → Bool) (s : String) (rest : List Char) :
    writeString escape s ++ rest =
      quotation :: (s.toList.flatMap (writeChar escape) ++ quotation :: rest) := by
  simp [writeString]

/-! ## Numbers that are read back -/

/-- What follows a number does not prolong it. -/
def Ends (rest : List Char) : Prop := ∀ c ∈ rest.head?, c.isDigit = false

theorem ends_cons {c : Char} (h : c.isDigit = false) (rest : List Char) : Ends (c :: rest) := by
  intro d hd
  obtain rfl := Option.some.inj hd
  exact h

theorem takeWhile_digits {ds rest : List Char} (hd : ∀ d ∈ ds, d.isDigit = true) (hr : Ends rest) :
    (ds ++ rest).takeWhile Char.isDigit = ds ∧ (ds ++ rest).dropWhile Char.isDigit = rest := by
  have hrest : rest.takeWhile Char.isDigit = [] ∧ rest.dropWhile Char.isDigit = rest := by
    cases rest with
    | nil => exact ⟨rfl, rfl⟩
    | cons c rest => simp [hr c rfl]
  rw [List.takeWhile_append_of_pos hd, List.dropWhile_append_of_pos hd, hrest.1, hrest.2,
    List.append_nil]
  exact ⟨rfl, rfl⟩

theorem readNat_toDigits (n : Nat) {rest : List Char} (h : Ends rest) :
    readNat (Nat.toDigits 10 n ++ rest) = some (n, rest) := by
  have hd : ∀ d ∈ Nat.toDigits 10 n, d.isDigit = true := fun d hd =>
    Nat.isDigit_of_mem_toDigits (by decide) (le_refl _) hd
  obtain ⟨ht, hr⟩ := takeWhile_digits hd h
  rw [readNat, ht, hr, if_neg Nat.toDigits_ne_nil, Nat.ofDigitChars_ten_toDigits]

/-! ## Values that are read back -/

theorem skipSpace_cons {c : Char} (h : isBlank c = false) (cs : List Char) :
    skipSpace (c :: cs) = c :: cs := by
  rw [skipSpace, List.dropWhile_cons, if_neg (by simp [h])]

theorem blank_of_isDigit {c : Char} (h : c.isDigit = true) : isBlank c = false ∧ c ≠ ']' ∧
    c ≠ quotation ∧ c ≠ '[' ∧ c ≠ openBrace ∧ c ≠ '-' := by
  refine ⟨?_, ?_, ?_, ?_, ?_, ?_⟩
  · by_contra hb
    simp only [isBlank, Bool.not_eq_false, Bool.or_eq_true, decide_eq_true_eq] at hb
    rcases hb with ((rfl | rfl) | rfl) | rfl <;> revert h <;> decide
  all_goals
    rintro rfl
    revert h
    decide

/-- A value starts with neither a blank nor the end of a list. -/
theorem write_cons (escape : Char → Bool) (j : Json) :
    ∃ c cs, write escape j = c :: cs ∧ isBlank c = false ∧ c ≠ ']' := by
  cases j with
  | null => exact ⟨'n', _, rfl, by decide, by decide⟩
  | bool b =>
    cases b
    · exact ⟨'f', _, rfl, by decide, by decide⟩
    · exact ⟨'t', _, rfl, by decide, by decide⟩
  | num n =>
    obtain ⟨d, ds, hds⟩ := List.exists_cons_of_ne_nil
      (Nat.toDigits_ne_nil (n := n.natAbs) (b := 10))
    have hd : d.isDigit = true := Nat.isDigit_of_mem_toDigits (by decide) (le_refl 10)
      (n := n.natAbs) (hds ▸ List.mem_cons_self)
    rw [write, writeInt]
    split
    · exact ⟨'-', _, rfl, by decide, by decide⟩
    · exact ⟨d, ds, hds, (blank_of_isDigit hd).1, (blank_of_isDigit hd).2.1⟩
  | str s =>
    exact ⟨quotation, _, by rw [write, writeString, List.cons_append], by decide, by decide⟩
  | arr items =>
    cases items with
    | nil => exact ⟨'[', _, by rw [write], by decide, by decide⟩
    | cons _ _ => exact ⟨'[', _, by rw [write], by decide, by decide⟩
  | obj members =>
    cases members with
    | nil => exact ⟨openBrace, _, by rw [write], by decide, by decide⟩
    | cons m _ => exact ⟨openBrace, _, by rw [write], by decide, by decide⟩

theorem readValue_cons {c : Char} (h : isBlank c = false) (n : Nat) (rest : List Char) :
    readValue (n + 1) (c :: rest) =
      if c = quotation then (readString rest).map fun r => (.str (String.ofList r.1), r.2)
      else if c = '[' then
        if (skipSpace rest).head? = some ']' then some (.arr [], (skipSpace rest).tail)
        else do
          let r ← readValue n rest
          let s ← readItems n r.2
          some (.arr (r.1 :: s.1), s.2)
      else if c = openBrace then
        if (skipSpace rest).head? = some closeBrace then some (.obj [], (skipSpace rest).tail)
        else do
          let r ← readMember n rest
          let s ← readMembers n r.2
          some (.obj (r.1 :: s.1), s.2)
      else if c = '-' then (readNat rest).map fun r => (.num (-r.1), r.2)
      else if c.isDigit then (readNat (c :: rest)).map fun r => (.num r.1, r.2)
      else if c = 'n' then readWord "null" .null (c :: rest)
      else if c = 't' then readWord "true" (.bool true) (c :: rest)
      else readWord "false" (.bool false) (c :: rest) := by
  rw [readValue, skipSpace_cons h]

theorem readValue_num (n : Nat) (k : Int) {rest : List Char} (h : Ends rest) :
    readValue (n + 1) (writeInt k ++ rest) = some (.num k, rest) := by
  unfold writeInt
  split
  · rename_i hk
    rw [List.cons_append, readValue_cons (by decide), if_neg (by decide), if_neg (by decide),
      if_neg (by decide), if_pos rfl, readNat_toDigits _ h, Option.map_some]
    congr 3
    omega
  · rename_i hk
    obtain ⟨d, ds, hds⟩ := List.exists_cons_of_ne_nil
      (Nat.toDigits_ne_nil (n := k.natAbs) (b := 10))
    have hd : d.isDigit = true := Nat.isDigit_of_mem_toDigits (by decide) (le_refl 10)
      (n := k.natAbs) (hds ▸ List.mem_cons_self)
    obtain ⟨hb, -, hq, ha, ho, hm⟩ := blank_of_isDigit hd
    have hnat := readNat_toDigits k.natAbs h
    rw [hds, List.cons_append] at hnat
    rw [hds, List.cons_append, readValue_cons hb, if_neg hq, if_neg ha, if_neg ho, if_neg hm,
      if_pos hd, hnat, Option.map_some]
    congr 3
    omega

theorem readMember_write {escape : Char → Bool} {j : Json} {n : Nat} {rest : List Char}
    (h : readValue n (write escape j ++ rest) = some (j, rest)) (k : String) :
    readMember (n + 1) (writeString escape k ++ ':' :: (write escape j ++ rest)) =
      some ((k, j), rest) := by
  rw [readMember, writeString_append, skipSpace_cons (by decide), List.head?_cons, if_pos rfl,
    List.tail_cons, readString_writeString]
  simp only [Option.bind_eq_bind, Option.bind_some]
  rw [skipSpace_cons (by decide), List.head?_cons, if_pos rfl, List.tail_cons, h]
  simp only [Option.bind_some, String.ofList_toList]

mutual

/-- A value is read back, whatever follows it. -/
theorem readValue_write (escape : Char → Bool) : ∀ (j : Json) (n : Nat) (rest : List Char),
    (write escape j).length ≤ n → Ends rest → readValue n (write escape j ++ rest) = some (j, rest)
  | j, 0, rest, hn, _ => by
    obtain ⟨c, cs, he, -⟩ := write_cons escape j
    rw [he] at hn
    cases hn
  | .null, n + 1, rest, _, _ => by
    rw [write]
    rfl
  | .bool true, n + 1, rest, _, _ => by
    rw [write]
    rfl
  | .bool false, n + 1, rest, _, _ => by
    rw [write]
    rfl
  | .num k, n + 1, rest, _, hr => by
    rw [write]
    exact readValue_num n k hr
  | .str s, n + 1, rest, _, _ => by
    rw [write, writeString_append, readValue_cons (by decide), if_pos rfl, readString_writeString,
      Option.map_some, String.ofList_toList]
  | .arr [], n + 1, rest, _, _ => by
    rw [write]
    rfl
  | .arr (j :: js), n + 1, rest, hn, hr => by
    simp only [write, List.length_cons, List.length_append] at hn
    have hends : Ends (writeItems escape js ++ rest) := by
      cases js <;> exact ends_cons (by decide) _
    have hj := readValue_write escape j n (writeItems escape js ++ rest) (by omega) hends
    have hjs := readItems_write escape js n rest (by omega)
    obtain ⟨c, cs, he, hb, hc⟩ := write_cons escape j
    have hhead :
        (skipSpace (write escape j ++ (writeItems escape js ++ rest))).head? ≠ some ']' := by
      rw [he, List.cons_append, skipSpace_cons hb]
      simpa using hc
    rw [write, List.cons_append, List.append_assoc, readValue_cons (by decide), if_neg (by decide),
      if_pos rfl, if_neg hhead, hj]
    simp only [Option.bind_eq_bind, Option.bind_some, hjs]
  | .obj [], n + 1, rest, _, _ => by
    rw [write]
    rfl
  | .obj ((k, j) :: ms), 1, rest, hn, _ => by
    simp only [write, List.length_cons, List.length_append] at hn
    omega
  | .obj ((k, j) :: ms), n + 2, rest, hn, hr => by
    simp only [write, List.length_cons, List.length_append] at hn
    have hends : Ends (writeMembers escape ms ++ rest) := by
      cases ms <;> exact ends_cons (by decide) _
    have hj := readValue_write escape j n (writeMembers escape ms ++ rest) (by omega) hends
    have hms := readMembers_write escape ms (n + 1) rest (by omega)
    have hhead : (skipSpace (writeString escape k ++ ':' :: (write escape j ++
        (writeMembers escape ms ++ rest)))).head? ≠ some closeBrace := by
      rw [writeString_append, skipSpace_cons (by decide), List.head?_cons]
      decide
    rw [write, List.cons_append, List.append_assoc, List.cons_append, List.append_assoc,
      readValue_cons (by decide), if_neg (by decide), if_neg (by decide), if_pos rfl, if_neg hhead,
      readMember_write hj]
    simp only [Option.bind_eq_bind, Option.bind_some, hms]

theorem readItems_write (escape : Char → Bool) : ∀ (js : List Json) (n : Nat) (rest : List Char),
    (writeItems escape js).length ≤ n → readItems n (writeItems escape js ++ rest) = some (js, rest)
  | [], 0, _, hn => by cases hn
  | _ :: _, 0, _, hn => by cases hn
  | [], n + 1, rest, _ => by
    rw [writeItems]
    rfl
  | j :: js, n + 1, rest, hn => by
    simp only [writeItems, List.length_cons, List.length_append] at hn
    have hends : Ends (writeItems escape js ++ rest) := by
      cases js <;> exact ends_cons (by decide) _
    have hj := readValue_write escape j n (writeItems escape js ++ rest) (by omega) hends
    have hjs := readItems_write escape js n rest (by omega)
    rw [writeItems, List.cons_append, List.append_assoc, readItems, skipSpace_cons (by decide)]
    simp only [hj, hjs, Option.bind_eq_bind, Option.bind_some]
    rfl

theorem readMembers_write (escape : Char → Bool) : ∀ (ms : List (String × Json)) (n : Nat)
    (rest : List Char), (writeMembers escape ms).length ≤ n →
      readMembers n (writeMembers escape ms ++ rest) = some (ms, rest)
  | [], 0, _, hn => by cases hn
  | _ :: _, 0, _, hn => by cases hn
  | [], n + 1, rest, _ => by
    rw [writeMembers]
    rfl
  | (k, j) :: ms, 1, rest, hn => by
    simp only [writeMembers, List.length_cons, List.length_append] at hn
    omega
  | (k, j) :: ms, n + 2, rest, hn => by
    simp only [writeMembers, List.length_cons, List.length_append] at hn
    have hends : Ends (writeMembers escape ms ++ rest) := by
      cases ms <;> exact ends_cons (by decide) _
    have hj := readValue_write escape j n (writeMembers escape ms ++ rest) (by omega) hends
    have hms := readMembers_write escape ms (n + 1) rest (by omega)
    rw [writeMembers, List.cons_append, List.append_assoc, List.cons_append, List.append_assoc,
      readMembers, skipSpace_cons (by decide)]
    simp only [readMember_write hj, hms, Option.bind_eq_bind, Option.bind_some]
    rfl

end

/-- What a writer writes is read as what it wrote. -/
theorem parse_write (escape : Char → Bool) (j : Json) :
    parse (String.ofList (write escape j)) = some j := by
  have h := readValue_write escape j (2 * (write escape j).length + 2) [] (by omega)
    (fun c hc => by cases hc)
  rw [List.append_nil] at h
  have hlen : (String.ofList (write escape j)).length = (write escape j).length := by simp
  rw [parse, hlen, String.toList_ofList, h]
  rfl

end Json

end Lib
