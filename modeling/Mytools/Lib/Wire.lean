/-!
# Self-delimiting texts

A value is written as characters and read back from the front of any text that begins with them.
The combinators write pairs, lists and numbers; each of them reads back what it wrote
(`read_write`), so that writing is injective.
-/

namespace Lib

structure Wire (α : Type) where
  write : α → List Char
  read : List Char → Option (α × List Char)
  read_write : ∀ a rest, read (write a ++ rest) = some (a, rest)

namespace Wire

variable {α β : Type}

/-- The value of a whole text. -/
def decode (w : Wire α) (s : String) : Option α := (w.read s.toList).map (·.1)

def encode (w : Wire α) (a : α) : String := String.ofList (w.write a)

theorem decode_encode (w : Wire α) (a : α) : w.decode (w.encode a) = some a := by
  have h := w.read_write a []
  rw [List.append_nil] at h
  rw [decode, encode, String.toList_ofList, h]
  rfl

theorem encode_injective (w : Wire α) {a b : α} (h : w.encode a = w.encode b) : a = b := by
  have hd := w.decode_encode a
  rw [h, w.decode_encode b] at hd
  exact (Option.some.inj hd).symm

/-! ## Combinators -/

/-- The values of `β`, through their image in `α`. -/
def via (w : Wire α) (f : β → α) (g : α → β) (h : ∀ b, g (f b) = b) : Wire β where
  write b := w.write (f b)
  read cs := (w.read cs).map fun x => (g x.1, x.2)
  read_write b rest := by rw [w.read_write, Option.map_some, h]

def char : Wire Char where
  write c := [c]
  read
    | [] => none
    | c :: rest => some (c, rest)
  read_write _ _ := rfl

def pair (w : Wire α) (v : Wire β) : Wire (α × β) where
  write x := w.write x.1 ++ v.write x.2
  read cs := do
    let (a, cs) ← w.read cs
    let (b, cs) ← v.read cs
    some ((a, b), cs)
  read_write x rest := by
    rw [List.append_assoc, w.read_write]
    show (v.read (v.write x.2 ++ rest)).bind _ = _
    rw [v.read_write]
    rfl

/-- Each element is marked, and an end mark follows the last one. -/
def writeList (w : Wire α) : List α → List Char
  | [] => ['.']
  | a :: l => ',' :: (w.write a ++ writeList w l)

def readList (w : Wire α) : (fuel : Nat) → List Char → Option (List α × List Char)
  | 0, _ => none
  | n + 1, c :: cs =>
    if c = '.' then some ([], cs)
    else do
      let (a, cs) ← w.read cs
      let (l, cs) ← readList w n cs
      some (a :: l, cs)
  | _ + 1, [] => none

theorem length_lt_writeList (w : Wire α) : ∀ l : List α, l.length < (writeList w l).length
  | [] => Nat.zero_lt_one
  | a :: l => by
    have h := length_lt_writeList w l
    rw [writeList, List.length_cons, List.length_cons, List.length_append]
    omega

theorem readList_writeList (w : Wire α) (rest : List Char) : ∀ (l : List α) (n : Nat),
    l.length < n → readList w n (writeList w l ++ rest) = some (l, rest)
  | [], n + 1, _ => rfl
  | a :: l, n + 1, h => by
    have hl := readList_writeList w rest l n (Nat.lt_of_succ_lt_succ h)
    show (w.read ((w.write a ++ writeList w l) ++ rest)).bind _ = _
    rw [List.append_assoc, w.read_write]
    show (readList w n (writeList w l ++ rest)).bind _ = _
    rw [hl]
    rfl

def list (w : Wire α) : Wire (List α) where
  write := writeList w
  read cs := readList w cs.length cs
  read_write l rest := by
    refine readList_writeList w rest l _ ?_
    have h := length_lt_writeList w l
    rw [List.length_append]
    omega

def string : Wire String := char.list.via String.toList String.ofList fun _ => String.ofList_toList

/-- A number is written in unary. -/
def nat : Wire Nat :=
  char.list.via (fun n => List.replicate n '|') List.length fun _ => List.length_replicate

def int : Wire Int :=
  (nat.pair nat).via (fun n => (n.toNat, (-n).toNat)) (fun x => x.1 - x.2) fun n => by
    show (n.toNat : Int) - ((-n).toNat : Int) = n
    omega

end Wire

end Lib
