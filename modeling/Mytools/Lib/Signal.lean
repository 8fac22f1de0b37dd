/-!
# Changes behind a one-slot channel

A value that is set from outside, and a channel that holds at most one token. Setting a value that
is not the same as the one there leaves a token. A party that has read the value and then waits for
a token misses no change (`Noticed`): what it read still holds, or there is a token, or it has taken
one.
-/

namespace Lib

structure Signal (V : Type) where
  value : V
  token : Bool

namespace Signal

variable {V : Type} {P : V → Prop} {taken taken' : Prop} {s : Signal V}

/-- The token is sent without blocking: it is lost if the slot is taken. -/
def put (same : V → V → Bool) (s : Signal V) (v : V) : Signal V :=
  if same s.value v then s else ⟨v, true⟩

/-- The slot is emptied. -/
def take (s : Signal V) : Signal V := { s with token := false }

/-- `P` was read of the value, and no change since was missed. -/
def Noticed (P : V → Prop) (taken : Prop) (s : Signal V) : Prop :=
  P s.value ∨ s.token = true ∨ taken

theorem noticed_put {same : V → V → Bool} {v : V} (h : s.Noticed P taken) :
    (s.put same v).Noticed P taken := by
  unfold put
  split
  · exact h
  · exact .inr (.inl rfl)

/-- The party itself takes the token. -/
theorem noticed_take (h : taken') : s.take.Noticed P taken' := .inr (.inr h)

theorem Noticed.mono (h : s.Noticed P taken) (ht : taken → taken') : s.Noticed P taken' :=
  h.imp_right (Or.imp_right ht)

/-- The value that was set is there, up to what is the same. -/
theorem put_value {same : V → V → Bool} {v : V} {R : V → V → Prop} (hrefl : R v v)
    (hsame : ∀ a, same a v = true → R a v) : R (s.put same v).value v := by
  unfold put
  split
  · exact hsame _ ‹_›
  · exact hrefl

end Signal

end Lib
