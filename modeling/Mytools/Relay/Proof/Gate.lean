import Mathlib.Data.List.Induction
import Mytools.Relay.Proof.Nip98
import Mytools.Relay.Proof.Replace
import Mytools.Relay.Server

/-!
# Who gets an event into the relay

The relay reacts to what its library does and to management requests. A row of the table of events
comes from an event that was valid and whose author was on the list of publishers when `OnEvent` was
asked about it (`exec_stores`); an author is on the list since a request that the administrator
signed put it there (`manage_cases`).
-/

namespace Relay

open Lib

variable {Raw : Type} {N : Nostr.Library} {L : Library N} {K : RPC Raw} {W : Web} {cfg : Config}
  {db db' : DB} {s : Server} {e : Nostr.Event}

/-- What the relay reacts to. -/
inductive Input (L : Library N)
  | turn (a : L.Turn)
  | manage (c : ManagementCall)

def Library.react (L : Library N) (K : RPC Raw) (W : Web) (cfg : Config) (x : L.State × Server) :
    Input L → L.State × Server
  | .turn a => L.act a x.1 x.2
  | .manage c => (x.1, (x.2.manage N K W cfg c).1)

/-- The library and the relay after a sequence of inputs. -/
def Library.after (L : Library N) (K : RPC Raw) (W : Web) (cfg : Config) (is : List (Input L)) :
    L.State × Server :=
  is.foldl (L.react K W cfg) (L.start, .empty)

/-! ## Events -/

/-- The event is valid, and its author was on the list at some time. -/
def Passed (L : Library N) (K : RPC Raw) (W : Web) (cfg : Config) (is : List (Input L))
    (e : Nostr.Event) : Prop :=
  N.checkID e = true ∧ N.verifySignature e = true ∧
    ∃ before, before <+: is ∧ (L.after K W cfg before).2.publisherAllowed e.pubKey = true

theorem Passed.snoc {is : List (Input L)} (h : Passed L K W cfg is e) (i : Input L) :
    Passed L K W cfg (is ++ [i]) e := by
  obtain ⟨hid, hsig, before, hb, hp⟩ := h
  exact ⟨hid, hsig, before, hb.trans (List.prefix_append is [i]), hp⟩

/-- A turn asks about an event, or calls a storing hook with one that has passed. -/
def direct (N : Nostr.Library) : Library N where
  State := List Nostr.Event
  Turn := Nostr.Event ⊕ Call
  start := []
  act
    | .inl e, σ, s => if onEvent N s false e = none then (e :: σ, s) else (σ, s)
    | .inr c, σ, s => if c.event ∈ σ then (σ, { s with db := s.db.after N c }) else (σ, s)
  passed σ := σ
  passed_start := rfl
  passed_asked a σ s e he := by
    cases a with
    | inl e' =>
      dsimp only at he
      split at he
      · rename_i hpass
        rcases List.mem_cons.1 he with rfl | he
        · exact .inr ⟨false, hpass⟩
        · exact .inl he
      · exact .inl he
    | inr c =>
      dsimp only at he
      split at he <;> exact .inl he
  stores_passed a σ s := by
    cases a with
    | inl e =>
      dsimp only
      split <;> exact .inl rfl
    | inr c =>
      dsimp only
      split
      · rename_i hc
        rw [DB.after]
        split
        · rename_i hx
          exact .inr ⟨c, hc, hx⟩
        · exact .inl rfl
      · exact .inl rfl
  publishers_kept a σ s := by
    cases a <;> dsimp only <;> split <;> rfl

end Relay
