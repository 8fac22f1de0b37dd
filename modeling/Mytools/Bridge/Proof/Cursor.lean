import Mytools.Bridge.Jetstream
import Mytools.Bridge.Proof.Stream

/-!
# The cursor never passes a commit that is not handled

The syncer is a consumer of the server's feed in the sense of `Lib.Feed` (`consumer_step`): each of
its writes stores the time of the commit, and a connection starts at the stored cursor or before it.
-/

namespace Bridge.Bluesky

open Lib

namespace Syncer

variable {N : Nostr.Library} {C : Codec} {s : Syncer} {log : List Event} {w w' : World}

/-! ## The text of the cursor -/

theorem parseInt_ofList {cs : List Char} (hne : cs ≠ []) (hd : ∀ c ∈ cs, c.isDigit = true)
    (hb : Nat.ofDigitChars 10 cs 0 < 2 ^ 63) :
    parseInt (String.ofList cs) = some (Nat.ofDigitChars 10 cs 0 : Int) := by
  obtain ⟨c, rest, rfl⟩ := List.exists_cons_of_ne_nil hne
  have hc := hd c List.mem_cons_self
  have hm : c ≠ '-' := by rintro rfl; revert hc; decide
  have hp : c ≠ '+' := by rintro rfl; revert hc; decide
  have hv : parseDigits (c :: rest) = some (Nat.ofDigitChars 10 (c :: rest) 0) :=
    if_pos ⟨hne, List.all_eq_true.2 hd⟩
  unfold parseInt
  rw [String.toList_ofList]
  split
  · exact absurd (by assumption) (by simp [hm])
  · exact absurd (by assumption) (by simp [hp])
  · rw [hv]
    refine Option.filter_eq_some_iff.2 ⟨rfl, ?_⟩
    rw [decide_eq_true_eq]
    generalize Nat.ofDigitChars 10 (c :: rest) 0 = n at hb
    show (-2 ^ 63 : Int) ≤ (n : Int) ∧ (n : Int) < 2 ^ 63
    omega

/-- A stored time is read back. -/
theorem parseInt_sprint {n : Int} (h₀ : 0 < n) (hn : n < 2 ^ 63) :
    parseInt (sprint n) = some n := by
  obtain ⟨m, rfl⟩ := Int.eq_ofNat_of_zero_le h₀.le
  have hs : sprint (m : Int) = String.ofList (Nat.toDigits 10 m) := Nat.repr_eq_ofList_toDigits
  have hv : Nat.ofDigitChars 10 (Nat.toDigits 10 m) 0 = m := Nat.ofDigitChars_ten_toDigits
  rw [hs, parseInt_ofList Nat.toDigits_ne_nil, hv]
  · intro c hc
    exact Nat.isDigit_of_mem_toDigits (by decide) (le_refl _) hc
  · rw [hv]
    omega

theorem sprint_ne_empty (n : Int) : sprint n ≠ "" := by
  intro h
  have hl := congrArg String.toList h
  cases n with
  | ofNat n =>
    have hs : sprint (n : Int) = String.ofList (Nat.toDigits 10 n) := Nat.repr_eq_ofList_toDigits
    rw [show Int.ofNat n = (n : Int) from rfl, hs, String.toList_ofList] at hl
    exact Nat.toDigits_ne_nil hl
  | negSucc n =>
    have hs : sprint (.negSucc n) = "-" ++ (n + 1).repr := rfl
    rw [hs, String.toList_append] at hl
    simp at hl

/-! ## The store's cursor -/

section
variable {db : DB} {t : Int} (h₀ : 0 < t) (ht : t < 2 ^ 63)
  (hc : SQLiteStore.cursor db s.scope jetstreamCursor = some (sprint t))
include h₀ ht hc

theorem cursorOf_eq : s.cursorOf db = some t := by
  rw [cursorOf, hc]
  exact parseInt_sprint h₀ ht

theorem storedCursor_eq : s.storedCursor db = .ok t := by
  rw [storedCursor, hc]
  show (if sprint t = "" then _ else _) = _
  rw [if_neg (sprint_ne_empty t), parseInt_sprint h₀ ht]

/-- A connection starts at the stored cursor or before it. -/
theorem subscription_cursor {sub : Subscription} (hr : 0 < s.rewind)
    (h : s.subscription db = .ok sub) : ∃ c, sub.cursor = some c ∧ c ≤ t := by
  obtain ⟨-, h⟩ := check_ok_iff.1 h
  rw [storedCursor_eq h₀ ht hc] at h
  cases h
  refine ⟨_, if_pos h₀, ?_⟩
  have : 0 ≤ s.rewind / 1000 := by omega
  omega

end

/-! ## The bridge as a consumer -/

def feedOf : Phase → Option (List Event)
  | .idle => none
  | .listening feed => some feed
  | .writing e _ _ _ feed => some (e :: feed)

def consumer (w : World) : Consumer Event where
  stored := w.stored
  done := w.handled.map fun h => (h.event, h.stored)
  feed := feedOf w.phase

/-- A commit of a target, at a positive time; times are 64-bit integers. -/
structure TargetCommit (s : Syncer) (e : Event) : Prop where
  collection : e.collection = postCollection ∨ e.collection = repostCollection
  target : s.isTarget e.did = true
  positive : 0 < e.timeUS
  bounded : e.timeUS < 2 ^ 63

/-- The call returned nil. -/
def Returned (N : Nostr.Library) (C : Codec) (s : Syncer) (h : Handled) : Prop :=
  ∃ op, s.Plan N C h.clock h.seen h.event op ∧ write N h.before op = .ok h.after

structure WorldInv (N : Nostr.Library) (C : Codec) (s : Syncer) (log : List Event) (w : World) :
    Prop where
  cursor : SQLiteStore.cursor w.db s.scope jetstreamCursor = w.stored.head?.map sprint
  bounds : ∀ v ∈ w.stored, 0 < v ∧ v < 2 ^ 63
  feed : ∀ feed, feedOf w.phase = some feed → ∀ e ∈ feed, e ∈ log
  plan : ∀ e clock seen op feed, w.phase = .writing e clock seen op feed →
    s.Plan N C clock seen e op
  returned : ∀ h ∈ w.handled, s.Returned N C h

section
variable (hlog : ∀ e ∈ log, s.TargetCommit e) (hi : s.WorldInv N C log w)
include hlog hi

/-- A write stores the time of its commit. -/
theorem WorldInv.store {e : Event} {clock : Clock} {seen db' : DB} {op : Option StoreOp}
    {feed : List Event} (hp : w.phase = .writing e clock seen op feed)
    (h : write N w.db op = .ok db') :
    SQLiteStore.cursor db' s.scope jetstreamCursor = some (sprint e.timeUS) ∧
      s.store w db' = e.timeUS :: w.stored ∧ s.TargetCommit e := by
  have he : e ∈ log := by
    refine hi.feed (e :: feed) ?_ e List.mem_cons_self
    rw [hp, feedOf]
  have ht := hlog e he
  have hc := (hi.plan _ _ _ _ _ hp).cursor h ht.positive
  exact ⟨hc, by rw [Syncer.store, cursorOf_eq ht.positive ht.bounded hc]; rfl, ht⟩

theorem WorldInv.step (h : s.Step N C log w w') : s.WorldInv N C log w' := by
  cases h with
  | connect hp hs hc hd =>
    refine ⟨hi.cursor, hi.bounds, ?_, fun _ _ _ _ _ h => (nomatch h), hi.returned⟩
    intro feed hfeed
    cases hfeed
    exact hd.mem
  | read hp h =>
    refine ⟨hi.cursor, hi.bounds, ?_, ?_, hi.returned⟩
    · intro feed hfeed
      cases hfeed
      refine hi.feed _ ?_
      rw [hp, feedOf]
    · intro e clock seen op feed he
      cases he
      exact h
  | @write e clock seen op feed db' hp h =>
    obtain ⟨hc, hst, ht⟩ := hi.store hlog hp h
    refine ⟨by rw [hst]; exact hc, ?_, ?_, fun _ _ _ _ _ h => (nomatch h), ?_⟩
    · intro v hv
      rw [hst] at hv
      rcases List.mem_cons.1 hv with rfl | hv
      · exact ⟨ht.positive, ht.bounded⟩
      · exact hi.bounds v hv
    · intro feed' hfeed x hx
      cases hfeed
      refine hi.feed (e :: feed) ?_ x (List.mem_cons_of_mem e hx)
      rw [hp, feedOf]
    · intro x hx
      rcases List.mem_cons.1 hx with rfl | hx
      · exact ⟨op, hi.plan _ _ _ _ _ hp, h⟩
      · exact hi.returned x hx
  | @crash e clock seen op feed db' hp h =>
    obtain ⟨hc, hst, ht⟩ := hi.store hlog hp h
    refine ⟨by rw [hst]; exact hc, ?_, fun _ h => (nomatch h), fun _ _ _ _ _ h => (nomatch h),
      hi.returned⟩
    intro v hv
    rw [hst] at hv
    rcases List.mem_cons.1 hv with rfl | hv
    · exact ⟨ht.positive, ht.bounded⟩
    · exact hi.bounds v hv
  | drop =>
    exact ⟨hi.cursor, hi.bounds, fun _ h => (nomatch h), fun _ _ _ _ _ h => (nomatch h),
      hi.returned⟩
  | other h hc => exact ⟨hc.trans hi.cursor, hi.bounds, hi.feed, hi.plan, hi.returned⟩

/-- A step of the bridge is a step of the consumer, or none. -/
theorem consumer_step (hrew : 0 < s.rewind) (h : s.Step N C log w w') :
    consumer w' = consumer w ∨
      Consumer.Step Event.timeUS log (consumer w) (consumer w') := by
  cases h with
  | @connect sub start feed hp hs hc hd =>
    refine .inr (.connect hd ?_)
    intro v hv
    have hv : w.stored.head? = some v := hv
    have hcur := hi.cursor
    rw [hv] at hcur
    obtain ⟨hv₀, hv₁⟩ := hi.bounds v (List.mem_of_mem_head? hv)
    obtain ⟨c, hsub, hle⟩ := subscription_cursor hv₀ hv₁ hcur hrew hs
    rw [hc c hsub]
    exact hle
  | read hp h =>
    left
    simp only [consumer, hp, feedOf]
  | @write e clock seen op feed db' hp h =>
    obtain ⟨-, hst, -⟩ := hi.store hlog hp h
    have hf : (consumer w).feed = some (e :: feed) := by
      simp only [consumer, hp, feedOf]
    have hstep : Consumer.Step Event.timeUS log (consumer w) _ := .handle hf
    right
    simp only [consumer, hst]
    exact hstep
  | @crash e clock seen op feed db' hp h =>
    obtain ⟨-, hst, -⟩ := hi.store hlog hp h
    have hf : (consumer w).feed = some (e :: feed) := by
      simp only [consumer, hp, feedOf]
    have hstep : Consumer.Step Event.timeUS log (consumer w) _ := .lose hf
    right
    simp only [consumer, hst]
    exact hstep
  | drop => exact .inr .drop
  | other h hc => exact .inl rfl

end

theorem consumer_run (hlog : ∀ e ∈ log, s.TargetCommit e) (hrew : 0 < s.rewind)
    (hr : s.Runs N C log w) : s.WorldInv N C log w ∧
      Relation.ReflTransGen (Consumer.Step Event.timeUS log) {} (consumer w) := by
  obtain ⟨db, hdb, hr⟩ := hr
  induction hr with
  | refl =>
    refine ⟨⟨hdb, ?_, fun _ h => (nomatch h), fun _ _ _ _ _ h => (nomatch h), ?_⟩, .refl⟩
    · intro v hv
      cases hv
    · intro h hh
      cases hh
  | tail _ hs ih =>
    obtain ⟨hi, hc⟩ := ih
    refine ⟨hi.step hlog hs, ?_⟩
    rcases consumer_step hlog hi hrew hs with he | hs
    · rw [he]
      exact hc
    · exact hc.tail hs

/-- Every commit between the first stored cursor and the current one was handled by a call that
returned nil, when no later cursor had been stored. Its effect was in the store before the call, or
the call made it in the transaction that stored the cursor. -/
theorem cursor_covers (hlog : ∀ e ∈ log, s.TargetCommit e) (hrew : 0 < s.rewind)
    (hr : s.Runs N C log w) {c first : Int} (hc : s.storedCursor w.db = .ok c)
    (hf : w.stored.getLast? = some first) {x : Event} (hx : x ∈ log) (h₁ : first < x.timeUS)
    (h₂ : x.timeUS < c) :
    ∃ h ∈ w.handled, h.event = x ∧ s.Returned N C h ∧ (∀ v ∈ h.stored, v ≤ x.timeUS) ∧
      (s.Settled C h.seen x ∨ s.Settled C h.after x ∧ s.storedCursor h.after = .ok x.timeUS) := by
  obtain ⟨hi, hrun⟩ := consumer_run hlog hrew hr
  obtain ⟨v, hv⟩ : ∃ v, w.stored.head? = some v := by
    cases hs : w.stored with
    | nil => rw [hs] at hf; cases hf
    | cons v vs => exact ⟨v, rfl⟩
  have hmem : v ∈ w.stored := List.mem_of_mem_head? hv
  have hcur := hi.cursor
  rw [hv] at hcur
  obtain ⟨hv₀, hv₁⟩ := hi.bounds v hmem
  rw [storedCursor_eq hv₀ hv₁ hcur] at hc
  cases hc
  obtain ⟨d, hd, rfl, hle⟩ := Consumer.covered hrun hf hmem hx h₁ h₂
  obtain ⟨h, hh, rfl⟩ := List.mem_map.1 hd
  obtain ⟨op, hplan, hwrite⟩ := hi.returned h hh
  refine ⟨h, hh, rfl, ⟨op, hplan, hwrite⟩, hle, ?_⟩
  have ht := hlog _ hx
  refine (hplan.settled_after hwrite).imp_right fun hset => ⟨hset, ?_⟩
  exact storedCursor_eq ht.positive ht.bounded (hplan.cursor hwrite ht.positive)

/-- A call of `Handle` without an interruption is two steps. -/
theorem handle_steps {e : Event} {feed : List Event} {db' : DB} (clock : Clock)
    (hc : s.TargetCommit e) (hp : w.phase = .listening (e :: feed))
    (h : s.handle N C w.db clock e = .ok db') :
    Relation.ReflTransGen (s.Step N C log) w ⟨db', .listening feed, s.store w db',
      ⟨e, clock, w.db, w.db, db', w.stored⟩ :: w.handled⟩ := by
  rw [handle_ok_iff hc.collection hc.target, outcome_iff_plan] at h
  obtain ⟨op, hplan, hwrite⟩ := h
  exact .tail (.single (.read hp hplan)) (.write rfl hwrite)

/-- Three deletions that are handled in one connection. -/
def sampleLog : List Event :=
  [⟨"did:plc:a", postCollection, "3k", "", .delete, 1, ""⟩,
    ⟨"did:plc:a", postCollection, "3l", "", .delete, 2, ""⟩,
    ⟨"did:plc:a", postCollection, "3m", "", .delete, 3, ""⟩]

theorem cursor_covers_second : ∃ w, sample.Runs .plain sampleCodec sampleLog w ∧
    sample.storedCursor w.db = .ok 3 ∧ w.stored.getLast? = some 1 ∧
    ∃ h ∈ w.handled, h.event.timeUS = 2 ∧ sample.Returned .plain sampleCodec h := by
  have hlog : ∀ e ∈ sampleLog, sample.TargetCommit e := by
    intro e he
    simp only [sampleLog, List.mem_cons, List.not_mem_nil, or_false] at he
    rcases he with rfl | rfl | rfl <;> exact ⟨.inl rfl, by decide, by decide, by decide⟩
  have hfeed : Consumer.Delivers Event.timeUS sampleLog 0 sampleLog :=
    ⟨by decide, fun _ h => h, by decide, fun _ h _ => h⟩
  have hconnect : Relation.ReflTransGen (sample.Step .plain sampleCodec sampleLog) { db := .empty }
      { db := .empty, phase := .listening sampleLog } :=
    .single (.connect rfl rfl (fun _ h => (nomatch h)) hfeed)
  have hfirst := hconnect.trans (handle_steps ⟨0, 0⟩ (hlog _ (by simp [sampleLog])) rfl rfl)
  have hsecond := hfirst.trans (handle_steps ⟨0, 0⟩ (hlog _ (by simp [sampleLog])) rfl rfl)
  have hrun := hsecond.trans (handle_steps ⟨0, 0⟩ (hlog _ (by simp [sampleLog])) rfl rfl)
  have hr : sample.Runs .plain sampleCodec sampleLog _ := ⟨.empty, rfl, hrun⟩
  obtain ⟨h, hh, he, hret, -⟩ := cursor_covers hlog (by decide) hr rfl rfl
    (x := ⟨"did:plc:a", postCollection, "3l", "", .delete, 2, ""⟩) (by simp [sampleLog]) (by decide)
    (by decide)
  exact ⟨_, hr, rfl, rfl, h, hh, by rw [he], hret⟩

end Syncer

end Bridge.Bluesky
