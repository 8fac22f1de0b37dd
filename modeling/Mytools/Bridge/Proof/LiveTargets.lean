import Mytools.Bridge.LiveTargets

/-!
# No change of the targets is missed

A connection asks for the targets that `Subscription` read. Until the watcher of the connection has
taken an update, nobody else takes one, so a later `Set` with other targets leaves an update in the
channel or finds one there (`Lib.Signal.Noticed`).
-/

namespace Bridge.Bluesky

open Lib Syncer

theorem didSetsEqual_iff (a b : DIDSet) :
    didSetsEqual a b = true ↔ ∀ did, did ∈ a.dids ↔ did ∈ b.dids := by
  simp only [didSetsEqual, Bool.and_eq_true, decide_eq_true_eq, List.all_eq_true]
  constructor
  · rintro ⟨hlen, hsub⟩ did
    have hperm : a.dids.Perm b.dids :=
      (List.subperm_of_subset a.nodup hsub).perm_of_length_le hlen.ge
    exact hperm.mem_iff
  · intro h
    exact ⟨((List.perm_ext_iff_of_nodup a.nodup b.nodup).2 h).length_eq, fun did => (h did).1⟩

/-- The subscription asks for the targets. -/
def Wants (sub : Subscription) (values : DIDSet) : Prop :=
  ∀ did, did ∈ sub.wantedDids ↔ did ∈ values.dids

theorem Wants.congr {sub : Subscription} {a b : DIDSet} (h : Wants sub a)
    (hab : ∀ did, did ∈ a.dids ↔ did ∈ b.dids) : Wants sub b :=
  fun did => (h did).trans (hab did)

theorem wants_of_subscription {s : Syncer} {db : DB} {sub : Subscription} {values : DIDSet}
    (h : Syncer.subscription { s with targets := some values.dids } db = .ok sub) :
    Wants sub values := by
  obtain ⟨-, -, h⟩ := bind_ok_iff.1 h
  obtain ⟨cursor, -, h⟩ := bind_ok_iff.1 h
  cases h
  intro did
  rw [List.mem_insertionSort, List.mem_eraseDups]
  rfl

/-- What `Run` has noticed of the targets, by its phase. -/
def RunPhase.Noticed (targets : LiveTargets) : RunPhase → Prop
  | .connect sub | .opened sub => Signal.Noticed (Wants sub) False targets
  | .watched sub w _ => Signal.Noticed (Wants sub) (w.watcher.closing = true) targets
  | _ => True

theorem RunPhase.Noticed.set {targets : LiveTargets} {phase : RunPhase} (values : DIDSet)
    (h : phase.Noticed targets) : phase.Noticed (targets.set values) := by
  cases phase with
  | connect sub => exact Signal.noticed_put h
  | opened sub => exact Signal.noticed_put h
  | watched sub w c => exact Signal.noticed_put h
  | _ => trivial

/-- The targets are those of the last `Set`, and `Run` has noticed their changes. -/
structure Live.Inv (l : Live) : Prop where
  current : ∀ did, did ∈ l.targets.value.dids ↔ did ∈ l.current.dids
  noticed : l.phase.Noticed l.targets

theorem mem_set (t : LiveTargets) (values : DIDSet) (did : String) :
    did ∈ (t.set values).value.dids ↔ did ∈ values.dids :=
  Signal.put_value (R := fun a b : DIDSet => ∀ did, did ∈ a.dids ↔ did ∈ b.dids)
    (fun _ => Iff.rfl) (fun a h => (didSetsEqual_iff a values).1 h) did

theorem Live.Inv.start (values : DIDSet) : (Live.start values).Inv where
  current := mem_set _ values
  noticed := trivial

/-- The watcher moves on without touching the targets. -/
theorem Live.Inv.watcher {l : Live} (hl : l.Inv) {sub : Subscription} {w w' : Watch}
    {c c' : Consuming} (h : l.phase = .watched sub w c)
    (hw : w.watcher.closing = true → w'.watcher.closing = true) :
    { l with phase := .watched sub w' c' }.Inv where
  current := hl.current
  noticed := by
    have hn := hl.noticed
    rw [h] at hn
    exact Signal.Noticed.mono hn hw

theorem Live.Inv.step {s : Syncer} {l l' : Live} (hl : l.Inv) (h : Live.Step s l l') : l'.Inv := by
  cases h with
  | set values => exact ⟨mem_set _ values, hl.noticed.set values⟩
  | done => exact ⟨hl.current, hl.noticed⟩
  | subscribe h hs => exact ⟨hl.current, .inl (wants_of_subscription hs)⟩
  | connected h =>
    have hn := hl.noticed
    rw [h] at hn
    exact ⟨hl.current, hn⟩
  | watch h =>
    have hn := hl.noticed
    rw [h] at hn
    exact ⟨hl.current, Signal.Noticed.mono hn False.elim⟩
  | tail h =>
    refine ⟨hl.current, ?_⟩
    split
    · trivial
    · split
      · trivial
      · split <;> trivial
  | consumed err h => exact hl.watcher h id
  | cancel h => exact hl.watcher h id
  | join h _ => exact hl.watcher h id
  | watcherStops h hw _ => exact hl.watcher h fun hc => (by rw [hw] at hc; cases hc)
  | watcherReceives h hw _ => exact ⟨hl.current, Signal.noticed_take rfl⟩
  | watcherSignals h hw => exact hl.watcher h fun _ => rfl
  | watcherCancels h hw => exact hl.watcher h fun _ => rfl
  | watcherCloses h hw => exact hl.watcher h fun _ => rfl
  | _ => exact ⟨hl.current, trivial⟩

theorem Live.Inv.of_reaches {s : Syncer} {values : DIDSet} {l : Live} (h : s.Reaches values l) :
    l.Inv := by
  induction h with
  | refl => exact .start values
  | tail _ hs ih => exact ih.step hs

/-- While a connection is consumed that does not ask for the current targets, there is an update in
the channel, or the watcher of the connection has received one and closes the connection. -/
theorem targets_noticed {s : Syncer} {values : DIDSet} {l : Live} {sub : Subscription}
    (h : s.Reaches values l) (hdiff : ¬ Wants sub l.current) :
    (l.phase = .opened sub → l.targets.token = true) ∧
      ∀ w c, l.phase = .watched sub w c →
        l.targets.token = true ∨ w.watcher.closing = true := by
  have hl := Live.Inv.of_reaches h
  have hwants : ¬ Wants sub l.targets.value := fun hw => hdiff (hw.congr hl.current)
  have hn := hl.noticed
  constructor
  · intro hp
    rw [hp] at hn
    exact (hn.resolve_left hwants).resolve_right id
  · intro w c hp
    rw [hp] at hn
    exact hn.resolve_left hwants

/-- A connection for one account. -/
def soleSubscription (did : String) : Subscription where
  wantedDids := [did]
  wantedCollections := [postCollection, repostCollection]
  cursor := none

/-- The targets are replaced while the connection is consumed. -/
theorem reaches_replaced (s : Syncer) (did did' : String) :
    s.Reaches ⟨[did], List.nodup_singleton _⟩
      { targets := (newLiveTargets ⟨[did], List.nodup_singleton _⟩).set
          ⟨[did'], List.nodup_singleton _⟩
        phase := .watched (soleSubscription did) {} .consume
        current := ⟨[did'], List.nodup_singleton _⟩ } := by
  have h : s.Reaches ⟨[did], List.nodup_singleton _⟩ (.start ⟨[did], List.nodup_singleton _⟩) :=
    .refl
  have h := h.tail (.backfilled rfl)
  have h := h.tail (.enter rfl rfl)
  have hs : Syncer.subscription { s with targets := some [did] } .empty =
      .ok (soleSubscription did) := rfl
  have h := h.tail (.subscribe rfl hs)
  have h := h.tail (.connected rfl)
  have h := h.tail (.watch rfl)
  exact h.tail (.set _)

theorem targets_noticed_replaced :
    ¬ Wants (soleSubscription "did:plc:alice") ⟨["did:plc:bob"], List.nodup_singleton _⟩ ∧
      ((LiveTargets.set (newLiveTargets ⟨["did:plc:alice"], List.nodup_singleton _⟩)
        ⟨["did:plc:bob"], List.nodup_singleton _⟩).token = true ∨
          Watcher.selecting.closing = true) := by
  have hdiff : ¬ Wants (soleSubscription "did:plc:alice")
      ⟨["did:plc:bob"], List.nodup_singleton _⟩ := by
    intro h
    exact absurd ((h "did:plc:bob").2 List.mem_cons_self) (by decide)
  exact ⟨hdiff, (targets_noticed (reaches_replaced ⟨⟨"bluesky", "did:plc:me"⟩, 0, [], none, 0⟩ _ _)
    hdiff).2 _ _ rfl⟩

end Bridge.Bluesky
