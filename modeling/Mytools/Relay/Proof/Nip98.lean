import Mytools.Bridge.NostrPlain
import Mytools.Relay.Nip98

/-!
# An authorization is accepted once

The record of an accepted event is dropped only when the event is out of the acceptance window for
good: it is kept for twice the skew, and the event was accepted no earlier than one skew before its
timestamp.
-/

namespace Relay

open Lib

variable {N : Nostr.Library} {W : Web} {v : NIP98Validator} {r : Request} {payload : List UInt8}
  {now : Int} {seen seen' : SeenEvents} {e : Nostr.Event} {id : String}

theorem NIP98Validator.skew_pos : 0 < v.skew := by
  unfold skew
  split
  · decide
  · omega

/-- The double of the skew is a duration. -/
def NIP98Validator.Representable (v : NIP98Validator) : Prop :=
  v.maxSkew ≤ 0 ∨ 2 * v.maxSkew ≤ Clock.maxDuration

theorem NIP98Validator.Representable.two_mul_le (h : v.Representable) :
    2 * v.skew ≤ Clock.maxDuration := by
  unfold skew
  split
  · decide
  · rcases h with h | h
    · omega
    · exact h

/-! ## The record of an event -/

theorem consumeNIP98Event_ok {retention : Int} (hr : 0 < retention)
    (h : consumeNIP98Event seen id now retention = .ok seen') :
    (∀ s, seen.get? id = some s → s < Clock.unix (now - retention)) ∧
      seen'.get? id = some (Clock.unix now) ∧
      ∀ i s, i ≠ id → seen.get? i = some s → Clock.unix (now - retention) ≤ s →
        seen'.get? i = some s := by
  unfold consumeNIP98Event at h
  simp only [if_neg (not_le.2 hr)] at h
  split at h
  · cases h
  · rename_i hnone
    cases h
    refine ⟨?_, by rw [Table.get?_set, if_pos rfl], ?_⟩
    · intro s hs
      rw [Table.get?_filter, hs] at hnone
      simpa [Option.filter] using hnone
    · intro i s hi hs hle
      rw [Table.get?_set, if_neg hi, Table.get?_filter, hs, Option.filter_some, if_pos]
      simpa using hle

/-! ## Validation -/

/-- What an accepted request has passed. -/
structure Accepted (N : Nostr.Library) (v : NIP98Validator) (now : Int) (seen : SeenEvents)
    (e : Nostr.Event) (seen' : SeenEvents) : Prop where
  id : e.id = N.getID e
  early : Clock.ofUnix e.createdAt - v.skew ≤ now
  late : now ≤ Clock.ofUnix e.createdAt + v.skew
  consumed : consumeNIP98Event seen e.id now (2 * v.skew) = .ok seen'

theorem validate_ok (hv : v.Representable) (hs : v.hasReplayStore = true)
    (h : v.validate N W r payload now seen = .ok (e, seen')) : Accepted N v now seen e seen' := by
  have h2 := hv.two_mul_le
  have hpos := v.skew_pos
  have hmax : v.skew < Clock.maxDuration := by omega
  have hmin : Clock.minDuration < -v.skew := by
    unfold Clock.maxDuration at h2
    unfold Clock.minDuration
    omega
  unfold NIP98Validator.validate at h
  simp only [bind_ok_iff, require_eq_ok, hs, if_true, mapError_ok_iff, pure_ok_iff,
    Prod.mk.injEq] at h
  obtain ⟨event, -, -, -, -, hid, -, -, -, -, -, hw, -, -, -, -, -, -, t, ht, rfl, rfl⟩ := h
  rw [not_or, not_lt, not_lt, Clock.sub_le_iff (by omega) hmax,
    Clock.le_sub_iff hmin (by omega)] at hw
  refine ⟨by simpa [Nostr.Library.checkID] using hid, by omega, by omega, ?_⟩
  rw [Clock.wrap_eq (by omega) h2] at ht
  exact ht

/-! ## Runs -/

/-- The calls `as` are made with one skew `S` by validators that record what they accept. -/
structure Recorded (S : Int) (as : List Attempt) : Prop where
  skew : ∀ a ∈ as, a.validator.skew = S
  representable : ∀ a ∈ as, a.validator.Representable
  store : ∀ a ∈ as, a.validator.hasReplayStore = true
  clock : as.Pairwise fun a b => a.now ≤ b.now

theorem Recorded.tail {S : Int} {a : Attempt} {as : List Attempt} (h : Recorded S (a :: as)) :
    Recorded S as where
  skew b hb := h.skew b (List.mem_cons_of_mem a hb)
  representable b hb := h.representable b (List.mem_cons_of_mem a hb)
  store b hb := h.store b (List.mem_cons_of_mem a hb)
  clock := (List.pairwise_cons.1 h.clock).2

theorem Recorded.validate_ok {S : Int} {a : Attempt} {as : List Attempt}
    (h : Recorded S (a :: as))
    (hok : a.validator.validate N W a.request a.payload a.now seen = .ok (e, seen')) :
    Accepted N a.validator a.now seen e seen' :=
  Relay.validate_ok (h.representable a List.mem_cons_self) (h.store a List.mem_cons_self) hok

/-- An event accepted at `t` is recorded, or its window has closed for the calls that follow. -/
theorem not_mem_accepted (hid : ∀ e e', N.getID e = N.getID e' → e.createdAt = e'.createdAt)
    {S t : Int} (hS : 0 < S) (he : e.id = N.getID e) (ht : Clock.ofUnix e.createdAt - S ≤ t) :
    ∀ (as : List Attempt) (seen : SeenEvents), Recorded S as →
      (seen.get? e.id = some (Clock.unix t) ∨ ∀ a ∈ as, Clock.ofUnix e.createdAt + S < a.now) →
      e.id ∉ accepted N W seen as
  | [], _, _, _ => List.not_mem_nil
  | a :: as, seen, hr, hseen => by
    have hrest : (∀ b ∈ a :: as, Clock.ofUnix e.createdAt + S < b.now) →
        ∀ b ∈ as, Clock.ofUnix e.createdAt + S < b.now := fun h b hb =>
      h b (List.mem_cons_of_mem a hb)
    unfold accepted
    split
    · rename_i x seen' hok
      have hx := hr.validate_ok hok
      have hskew := hr.skew a List.mem_cons_self
      obtain ⟨hfresh, -, hkept⟩ := consumeNIP98Event_ok (by omega) hx.consumed
      -- the record is pruned only after the window of the event has closed
      have hpruned : Clock.unix t < Clock.unix (a.now - 2 * a.validator.skew) →
          Clock.ofUnix e.createdAt + S < a.now := by
        intro hlt
        by_contra hle
        exact absurd (Clock.unix_mono (t := a.now - 2 * a.validator.skew) (u := t) (by omega))
          (not_le.2 hlt)
      have hne : x.id ≠ e.id := by
        intro heq
        have hc : x.createdAt = e.createdAt := hid x e (by rw [← hx.id, heq, he])
        have hlate := hx.late
        rw [hc, hskew] at hlate
        rcases hseen with hin | hout
        · rw [heq] at hfresh
          have := hpruned (hfresh _ hin)
          omega
        · have := hout a List.mem_cons_self
          omega
      rw [List.mem_cons, not_or]
      refine ⟨hne.symm, not_mem_accepted hid hS he ht as seen' hr.tail ?_⟩
      rcases hseen with hin | hout
      · by_cases hlt : Clock.unix t < Clock.unix (a.now - 2 * a.validator.skew)
        · refine .inr fun b hb => ?_
          have := (List.pairwise_cons.1 hr.clock).1 b hb
          have := hpruned hlt
          omega
        · exact .inl (hkept _ _ hne.symm hin (by omega))
      · exact .inr (hrest hout)
    · exact not_mem_accepted hid hS he ht as seen hr.tail (hseen.imp_right hrest)

theorem accepted_nodup (hid : ∀ e e', N.getID e = N.getID e' → e.createdAt = e'.createdAt)
    {S : Int} : ∀ (as : List Attempt) (seen : SeenEvents), Recorded S as →
      (accepted N W seen as).Nodup
  | [], _, _ => List.nodup_nil
  | a :: as, seen, hr => by
    unfold accepted
    split
    · rename_i e seen' hok
      have he := hr.validate_ok hok
      have hskew := hr.skew a List.mem_cons_self
      have hpos := a.validator.skew_pos
      have hearly := he.early
      rw [hskew] at hpos hearly
      obtain ⟨-, hin, -⟩ := consumeNIP98Event_ok (by omega) he.consumed
      exact List.nodup_cons.2 ⟨not_mem_accepted hid hpos he.id hearly as seen' hr.tail (.inl hin),
        accepted_nodup hid as seen' hr.tail⟩
    · exact accepted_nodup hid as seen hr.tail

/-- No event ID is accepted twice, whatever the table held at first. -/
theorem nip98_accepted_once (hid : ∀ e e', N.getID e = N.getID e' → e.createdAt = e'.createdAt)
    (maxSkew : Int) (hskew : maxSkew ≤ 0 ∨ 2 * maxSkew ≤ Clock.maxDuration)
    (as : List Attempt) (hsame : ∀ a ∈ as, a.validator.maxSkew = maxSkew)
    (hstore : ∀ a ∈ as, a.validator.hasReplayStore = true)
    (hclock : as.Pairwise fun a b => a.now ≤ b.now) (seen : SeenEvents) :
    (accepted N W seen as).Nodup := by
  have hr : Recorded (if maxSkew ≤ 0 then 60 * Clock.second else maxSkew) as := by
    refine ⟨fun a ha => ?_, fun a ha => ?_, hstore, hclock⟩
    · rw [NIP98Validator.skew, hsame a ha]
    · rw [NIP98Validator.Representable, hsame a ha]
      exact hskew
  exact accepted_nodup hid as seen hr

/-- The ID of an event is its time. -/
def sampleLibrary : Nostr.Library :=
  { Nostr.Library.plain with hash := fun _ createdAt _ _ _ => Wire.int.encode createdAt }

def sampleAuthorization : Nostr.Event where
  id := Wire.int.encode 0
  pubKey := "k"
  createdAt := 0
  kind := nip98Kind
  tags := [["u", "https://relay/"], ["method", "POST"], ["payload", "00"]]

/-- Every header carries the sample event, and every payload has its hash. -/
def sampleWeb : Web where
  base64 _ := some []
  unmarshal _ := some sampleAuthorization
  parseURL s := some ⟨"https", "relay", false, "", "/", "", "/", s⟩
  sha256 _ := List.replicate 32 0
  hex _ := some (List.replicate 32 0)

def sampleAttempt (now : Int) : Attempt where
  validator := ⟨"k", "https://relay/", 0, true⟩
  request := ⟨["Nostr e"], "POST", ⟨"", "", false, "", "/", "", "/", "/"⟩, "relay", true⟩
  payload := []
  now := now

/-- The same authorization, repeated after a nanosecond. -/
theorem nip98_accepted_once_repeated :
    (accepted sampleLibrary sampleWeb .empty [sampleAttempt 0, sampleAttempt 1]).Nodup ∧
      sampleAuthorization.id ∈
        accepted sampleLibrary sampleWeb .empty [sampleAttempt 0, sampleAttempt 1] := by
  refine ⟨nip98_accepted_once (N := sampleLibrary) (fun e e' h => Wire.int.encode_injective h) 0
    (.inl (by decide)) _ (by simp [sampleAttempt]) (by simp [sampleAttempt])
    (by simp [sampleAttempt]) _, ?_⟩
  have hok : (sampleAttempt 0).validator.validate sampleLibrary sampleWeb (sampleAttempt 0).request
      (sampleAttempt 0).payload (sampleAttempt 0).now .empty =
        .ok (sampleAuthorization, Table.empty.set sampleAuthorization.id 0) := rfl
  rw [accepted, hok]
  exact List.mem_cons_self

end Relay
