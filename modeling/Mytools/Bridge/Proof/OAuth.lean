import Mytools.Bridge.OAuth

/-!
# Refresh tokens are used once

Along every interleaving of the calls of the OAuth client. `Lawful` is what each action of each call
obeys: a refresh request carries the stored token, with the mutex, and a token that is stored was
issued to the thread that stores it or was there before. `Good` is kept by every such action, and
`Free` holds whenever the mutex is free: the stored token was not rotated, and after a permanent
failure it is not used. The programs of the calls meet their preconditions under this discipline
(`wp_program`), so every run obeys it (`refresh_safe`).
-/

namespace Bridge.OAuth

open Lib Lib.Threads

/-! ## What the log says -/

/-- The refresh token that a request carries. -/
def Act.carried : Act → Option String
  | .send ⟨_, .refreshToken token, _, _⟩ => some token
  | _ => none

/-- A permanent refresh failure is recorded. -/
def Act.Fails : Act → Prop
  | .updateRefreshFailure _ _ reauthRequired => reauthRequired = true
  | _ => False

def Act.isSave : Act → Bool
  | .saveToken _ => true
  | _ => false

/-- The action changes the rows of the tokens. -/
def Act.writes : Act → Bool
  | .saveToken _ => true
  | .updateRefreshFailure _ _ _ => true
  | _ => false

/-- The thread runs `HandleCallback`. -/
def IsCallback (calls : Nat → Call) (i : Nat) : Prop := ∃ q, calls i = .handleCallback q

/-- `HandleCallback` stores a token. -/
def Event.Authorizes (calls : Nat → Call) (e : Event) : Prop :=
  e.act.isSave = true ∧ IsCallback calls e.thread

/-- A refresh request with the token got a successful answer with another one. -/
def Rotated (log : List Event) (token : String) : Prop :=
  ∃ e ∈ log, e.act.carried = some token ∧ e.issued.isSome

/-- A permanent failure was recorded, and no callback has stored a token since. -/
def Down (calls : Nat → Call) (log : List Event) : Prop :=
  ∃ pre e post, log = pre ++ e :: post ∧ e.act.Fails ∧ ∀ x ∈ post, ¬ x.Authorizes calls

/-- The token was carried by a request or is stored. -/
def Used (L : Library) (s : Shared) (token : String) : Prop :=
  (∃ e ∈ s.log, e.act.carried = some token) ∨ Stored L s.tokens token

/-- The token was issued to the thread. -/
def IssuedTo (s : Shared) (i : Nat) (token : String) : Prop :=
  ∃ e ∈ s.log, e.thread = i ∧ e.issued = some token

/-- The thread has loaded the row, and no row was written since. -/
def LoadedBy (j : Nat) (accountDID : String) (row : OAuthToken) (log : List Event) : Prop :=
  ∃ pre post, log = pre ++ ⟨j, .loadToken accountDID, some row⟩ :: post ∧
    ∀ x ∈ post, x.act.writes = false

theorem LoadedBy.snoc {j : Nat} {accountDID : String} {row : OAuthToken} {log : List Event}
    {e : Event} (h : LoadedBy j accountDID row log) (he : e.act.writes = false) :
    LoadedBy j accountDID row (log ++ [e]) := by
  obtain ⟨pre, post, rfl, hpost⟩ := h
  refine ⟨pre, post ++ [e], by simp, fun x hx => ?_⟩
  rw [List.mem_append, List.mem_singleton] at hx
  obtain hx | rfl := hx
  · exact hpost x hx
  · exact he

theorem down_snoc {calls : Nat → Call} {log : List Event} {e : Event}
    (h : Down calls (log ++ [e])) : e.act.Fails ∨ Down calls log ∧ ¬ e.Authorizes calls := by
  obtain ⟨pre, x, post, heq, hx, hpost⟩ := h
  obtain ⟨-, rfl, -⟩ | ⟨mid, rfl, hlog⟩ := snoc_eq_append_cons heq
  · exact .inl hx
  · exact .inr ⟨⟨pre, x, mid, hlog, hx, fun z hz => hpost z (List.mem_append_left _ hz)⟩,
      hpost e (by simp)⟩

theorem rotated_snoc {log : List Event} {e : Event} {token : String} :
    Rotated (log ++ [e]) token ↔
      Rotated log token ∨ e.act.carried = some token ∧ e.issued.isSome := by
  simp [Rotated, or_and_right, exists_or]

/-! ## The discipline -/

section

variable (L : Library) (c : Client) (tokens₀ : Table String OAuthToken) (calls : Nat → Call)

/-- What the actions of the calls obey. -/
def Lawful (i : Nat) (l : Bool) (s : Shared) : (a : Act) → Ans a → Prop
  | .loadToken _, r => l = true ∧
      (Down calls s.log → ∀ row, r = some row → row.reauthRequired = true)
  | .saveToken token, _ => l = true ∧ token.accountDID = c.account ∧ token.reauthRequired = false ∧
      (∀ payload, L.decryptToken token.encryptedPayload = some payload →
        payload.refreshToken = "" ∨ Used L s payload.refreshToken ∨
          IssuedTo s i payload.refreshToken) ∧
      (IsCallback calls i ∨ ¬ Down calls s.log)
  | .updateRefreshFailure accountDID _ _, _ =>
      l = true ∧ ∃ row, s.tokens.get? accountDID = some row ∧ row.reauthRequired = false ∧
        LoadedBy i accountDID row s.log
  | .send request, _ => ∀ token, (Act.send request).carried = some token →
      l = true ∧ token ≠ "" ∧ Stored L s.tokens token ∧ ¬ Rotated s.log token ∧ ¬ Down calls s.log
  | _, _ => True

/-- What was lawful when the event was added to the log. -/
structure InOrder (log : List Event) (e : Event) : Prop where
  carried : ∀ token, e.act.carried = some token → ¬ Rotated log token ∧ ¬ Down calls log
  loaded : ∀ accountDID row, Down calls log →
    e = ⟨e.thread, .loadToken accountDID, some row⟩ → row.reauthRequired = true

structure Good (s : Shared) : Prop where
  account : ∀ accountDID row, s.tokens.get? accountDID = some row →
    accountDID = c.account ∧ row.accountDID = accountDID
  carried : ∀ e ∈ s.log, ∀ token, e.act.carried = some token →
    token ≠ "" ∧ Known L tokens₀ s token
  stored : ∀ token, Stored L s.tokens token → token = "" ∨ Known L tokens₀ s token
  issued : ∀ e ∈ s.log, ∀ e' ∈ s.log, ∀ token, e.issued = some token → e'.issued = some token →
    e.thread = e'.thread
  inOrder : ∀ pre e post, s.log = pre ++ e :: post → InOrder calls pre e

structure Free (s : Shared) : Prop where
  fresh : ∀ accountDID row payload, s.tokens.get? accountDID = some row →
    row.reauthRequired = false → L.decryptToken row.encryptedPayload = some payload →
    ¬ Rotated s.log payload.refreshToken
  down : Down calls s.log → ∀ accountDID row, s.tokens.get? accountDID = some row →
    row.reauthRequired = true

variable {L c tokens₀ calls}

variable {i : Nat} {l : Bool} {s s' : Shared} {a : Act} {r : Ans a}

theorem Known.mono {token : String} {e : Event} (h : Known L tokens₀ s token)
    (hlog : s'.log = s.log ++ [e]) : Known L tokens₀ s' token := by
  obtain h | ⟨x, hx, hissued⟩ := h
  · exact .inl h
  · exact .inr ⟨x, by simp [hlog, hx], hissued⟩

theorem Good.known_of_used {token : String} (h : Good L c tokens₀ calls s) (hu : Used L s token) :
    token = "" ∨ Known L tokens₀ s token := by
  obtain ⟨e, he, hcarried⟩ | hstored := hu
  · exact .inr (h.carried e he token hcarried).2
  · exact h.stored token hstored

theorem exec_log (h : exec L tokens₀ i a s r s') : s'.log = s.log ++ [⟨i, a, r⟩] := by rw [h.2]

theorem exec_tokens (h : exec L tokens₀ i a s r s') : s'.tokens = (effect a s).tokens := by rw [h.2]

/-! ### What an action does to the rows -/

/-- The rows after an action: those from before, the saved one, or one with a recorded failure. -/
theorem row_cases (h : exec L tokens₀ i a s r s') {accountDID : String} {row : OAuthToken}
    (hrow : s'.tokens.get? accountDID = some row) :
    s.tokens.get? accountDID = some row ∨
    (∃ token, a = .saveToken token ∧ accountDID = token.accountDID ∧ row = token) ∨
    ∃ errorClass reauthRequired old,
      a = .updateRefreshFailure accountDID errorClass reauthRequired ∧
      s.tokens.get? accountDID = some old ∧
      row = { old with reauthRequired := reauthRequired, lastRefreshErrorClass := errorClass } := by
  rw [exec_tokens h] at hrow
  cases a with
  | saveToken token =>
    obtain ⟨hk, hv⟩ | ⟨-, hv⟩ := Table.get?_set_eq_some.1 hrow
    · exact .inr (.inl ⟨token, rfl, hk, hv.symm⟩)
    · exact .inl hv
  | updateRefreshFailure did errorClass reauthRequired =>
    rw [effect, Table.get?_setOption] at hrow
    split at hrow
    · rename_i hk
      subst hk
      cases hold : s.tokens.get? accountDID with
      | none =>
        rw [hold] at hrow
        cases hrow
      | some old =>
        rw [hold] at hrow
        exact .inr (.inr ⟨errorClass, reauthRequired, old, rfl, rfl, (Option.some.inj hrow).symm⟩)
    · exact .inl hrow
  | _ => exact .inl hrow

/-- The stored tokens after an action: those from before and the saved one. -/
theorem stored_cases (h : exec L tokens₀ i a s r s') {token : String}
    (hstored : Stored L s'.tokens token) :
    Stored L s.tokens token ∨ ∃ saved payload, a = .saveToken saved ∧
      L.decryptToken saved.encryptedPayload = some payload ∧ payload.refreshToken = token := by
  obtain ⟨accountDID, row, payload, hrow, hpayload, htoken⟩ := hstored
  obtain hold | ⟨saved, ha, -, rfl⟩ | ⟨_, _, old, -, hold, rfl⟩ := row_cases h hrow
  · exact .inl ⟨accountDID, row, payload, hold, hpayload, htoken⟩
  · exact .inr ⟨row, payload, ha, hpayload, htoken⟩
  · exact .inl ⟨accountDID, old, payload, hold, hpayload, htoken⟩

theorem carried_eq_some {token : String} (h : a.carried = some token) :
    ∃ request, a = .send request := by
  cases a with
  | send request => exact ⟨request, rfl⟩
  | _ => cases h

/-! ### Good -/

theorem good_step (hgood : Good L c tokens₀ calls s) (h : exec L tokens₀ i a s r s')
    (hlawful : Lawful L c calls i l s a r) : Good L c tokens₀ calls s' := by
  have hlog := exec_log h
  have hmono : ∀ token, Known L tokens₀ s token → Known L tokens₀ s' token :=
    fun token hk => hk.mono hlog
  have hcarried : ∀ token, a.carried = some token →
      token ≠ "" ∧ Stored L s.tokens token ∧ ¬ Rotated s.log token ∧ ¬ Down calls s.log := by
    intro token ht
    obtain ⟨request, rfl⟩ := carried_eq_some ht
    exact (hlawful token ht).2
  constructor
  case account =>
    intro accountDID row hrow
    obtain hold | ⟨token, rfl, rfl, rfl⟩ | ⟨_, _, old, -, hold, rfl⟩ := row_cases h hrow
    · exact hgood.account accountDID row hold
    · exact ⟨hlawful.2.1, rfl⟩
    · exact hgood.account accountDID old hold
  case carried =>
    intro e he token ht
    rw [hlog, List.mem_append, List.mem_singleton] at he
    obtain he | rfl := he
    · exact ⟨(hgood.carried e he token ht).1, hmono token (hgood.carried e he token ht).2⟩
    · obtain ⟨hne, hstored, -⟩ := hcarried token ht
      exact ⟨hne, hmono token ((hgood.stored token hstored).resolve_left hne)⟩
  case stored =>
    intro token hstored
    obtain hold | ⟨saved, payload, rfl, hpayload, rfl⟩ := stored_cases h hstored
    · exact (hgood.stored token hold).imp_right (hmono token)
    · obtain hnil | hused | ⟨e, he, -, hissued⟩ := hlawful.2.2.2.1 payload hpayload
      · exact .inl hnil
      · exact (hgood.known_of_used hused).imp_right (hmono _)
      · exact .inr (hmono _ (.inr ⟨e, he, hissued⟩))
  case issued =>
    -- what the new event issues was not known before
    have hfresh : ∀ token, Event.issued ⟨i, a, r⟩ = some token → ¬ Known L tokens₀ s token := by
      intro token ht
      cases a with
      | send request => exact h.1 token ht
      | _ => cases ht
    intro e he e' he' token ht ht'
    rw [hlog, List.mem_append, List.mem_singleton] at he he'
    obtain he | rfl := he
    · obtain he' | rfl := he'
      · exact hgood.issued e he e' he' token ht ht'
      · exact absurd (.inr ⟨e, he, ht⟩) (hfresh token ht')
    · obtain he' | rfl := he'
      · exact absurd (.inr ⟨e', he', ht'⟩) (hfresh token ht)
      · rfl
  case inOrder =>
    intro pre e post heq
    rw [hlog] at heq
    obtain ⟨rfl, rfl, -⟩ | ⟨mid, -, hold⟩ := snoc_eq_append_cons heq
    · refine ⟨fun token ht => (hcarried token ht).2.2, fun accountDID row hdown he => ?_⟩
      cases he
      exact hlawful.2 hdown row rfl
    · exact hgood.inOrder pre e mid hold

/-! ### Steps without the mutex -/

theorem not_fails_of_writes (h : a.writes = false) : ¬ a.Fails := by
  intro hfails
  cases a with
  | updateRefreshFailure => cases h
  | _ => exact hfails

/-- The step leaves the rows alone, and adds to the log what neither carries a refresh token nor
writes a row. -/
structure Apart (s s' : Shared) : Prop where
  tokens : s'.tokens = s.tokens
  log : ∃ e, s'.log = s.log ++ [e] ∧ e.act.carried = none ∧ e.act.writes = false

namespace Apart

variable {token : String}

theorem rotated (h : Apart s s') : Rotated s'.log token ↔ Rotated s.log token := by
  obtain ⟨e, hlog, hcarried, -⟩ := h.log
  rw [hlog, rotated_snoc, hcarried]
  simp

theorem down (h : Apart s s') (hd : Down calls s'.log) : Down calls s.log := by
  obtain ⟨e, hlog, -, hwrites⟩ := h.log
  rw [hlog] at hd
  exact (down_snoc hd).resolve_left (not_fails_of_writes hwrites) |>.1

theorem loadedBy {accountDID : String} {row : OAuthToken} (h : Apart s s')
    (hl : LoadedBy i accountDID row s.log) : LoadedBy i accountDID row s'.log := by
  obtain ⟨e, hlog, -, hwrites⟩ := h.log
  rw [hlog]
  exact hl.snoc hwrites

theorem used (h : Apart s s') : Used L s' token ↔ Used L s token := by
  obtain ⟨e, hlog, hcarried, -⟩ := h.log
  rw [Used, Used, h.tokens, hlog]
  simp [or_and_right, exists_or, hcarried]

theorem issuedTo (h : Apart s s') (hi : IssuedTo s i token) : IssuedTo s' i token := by
  obtain ⟨e, hlog, -⟩ := h.log
  obtain ⟨x, hx, hthread⟩ := hi
  exact ⟨x, by simp [hlog, hx], hthread⟩

theorem free (h : Apart s s') (hfree : Free L calls s) : Free L calls s' where
  fresh accountDID row payload hrow hvalid hpayload := by
    rw [h.rotated]
    rw [h.tokens] at hrow
    exact hfree.fresh accountDID row payload hrow hvalid hpayload
  down hd accountDID row hrow := by
    rw [h.tokens] at hrow
    exact hfree.down (h.down hd) accountDID row hrow

end Apart

/-- An action that reads nothing and writes nothing of what the mutex protects. -/
def Act.Unprotected (a : Act) : Prop :=
  a.carried = none ∧ match a with
    | .loadToken _ | .saveToken _ | .updateRefreshFailure _ _ _ => False
    | _ => True

theorem apart_of_unprotected (h : exec L tokens₀ i a s r s') (ha : a.Unprotected) : Apart s s' := by
  refine ⟨?_, ⟨i, a, r⟩, exec_log h, ha.1, ?_⟩
  · rw [exec_tokens h]
    cases a <;> first | rfl | exact ha.2.elim
  · cases a <;> first | rfl | exact ha.2.elim

theorem unprotected_of_lawful (h : Lawful L c calls i false s a r) : a.Unprotected := by
  cases a with
  | loadToken => exact absurd h.1 (by simp)
  | saveToken => exact absurd h.1 (by simp)
  | updateRefreshFailure => exact absurd h.1 (by simp)
  | send request =>
    refine ⟨?_, trivial⟩
    cases hc : (Act.send request).carried with
    | none => rfl
    | some token => exact absurd (h token hc).1 (by simp)
  | _ => exact ⟨rfl, trivial⟩

theorem lawful_of_unprotected (ha : a.Unprotected) : Lawful L c calls i l s a r := by
  cases a with
  | loadToken => exact ha.2.elim
  | saveToken => exact ha.2.elim
  | updateRefreshFailure => exact ha.2.elim
  | send request =>
    intro token ht
    rw [ha.1] at ht
    cases ht
  | _ => trivial

variable (L c tokens₀ calls) in
def discipline : Discipline Act Ans Shared where
  exec := exec L tokens₀
  lawful := Lawful L c calls
  good := Good L c tokens₀ calls
  free := Free L calls
  good_step hgood h hlawful := good_step hgood h hlawful
  free_step _ hfree h hlawful := (apart_of_unprotected h (unprotected_of_lawful hlawful)).free hfree

/-! ## Assertions -/

/-- The assertion depends only on what the steps without the mutex leave alone. -/
def Closed (P : Shared → Prop) : Prop := ∀ s s', Apart s s' → P s → P s'

variable {j : Nat} {P : Shared → Prop}

theorem stable_of_closed (hP : Closed P) : (discipline L c tokens₀ calls).Stable j true P := by
  rintro s s' ⟨-, i, l', a, r, -, hl, hexec, hlawful⟩ hp
  rw [hl rfl] at hlawful
  exact hP s s' (apart_of_unprotected hexec (unprotected_of_lawful hlawful)) hp

/-- The row that the thread has loaded is valid and still stored. -/
structure Held (calls : Nat → Call) (j : Nat) (accountDID : String) (row : OAuthToken)
    (s : Shared) :
    Prop where
  stored : s.tokens.get? accountDID = some row
  valid : row.reauthRequired = false
  loaded : LoadedBy j accountDID row s.log
  notDown : ¬ Down calls s.log

theorem held_closed {accountDID : String} {row : OAuthToken} :
    Closed (Held calls j accountDID row) :=
  fun _ _ h hheld => ⟨h.tokens ▸ hheld.stored, hheld.valid, h.loadedBy hheld.loaded,
    fun hd => hheld.notDown (h.down hd)⟩

theorem notRotated_closed {token : String} : Closed fun s => ¬ Rotated s.log token :=
  fun _ _ h hr => (not_congr h.rotated).2 hr

/-- The token was issued to the thread and has not been used. -/
structure Pending (L : Library) (j : Nat) (token : String) (s : Shared) : Prop where
  issued : IssuedTo s j token
  unused : ¬ Used L s token

theorem pending_closed {token : String} : Closed (Pending L j token) :=
  fun _ _ h hp => ⟨h.issuedTo hp.issued, (not_congr h.used).2 hp.unused⟩

theorem Closed.and {P' : Shared → Prop} (h : Closed P) (h' : Closed P') :
    Closed fun s => P s ∧ P' s :=
  fun s s' ha hp => ⟨h s s' ha hp.1, h' s s' ha hp.2⟩

theorem ne_nil_of_issuedToken {grant : Grant} {x : Except Failure Answer} {token : String}
    (h : issuedToken grant x = some token) : token ≠ "" := by
  unfold issuedToken at h
  split at h
  · cases h
  · split at h
    · obtain ⟨t, -, ht⟩ := Option.bind_eq_some_iff.1 h
      split at ht
      · cases ht
      · rename_i hne
        rw [← Option.some.inj ht]
        exact fun he => hne (.inl he)
    · cases h

theorem ne_nil_of_issued {e : Event} {token : String} (h : e.issued = some token) : token ≠ "" := by
  obtain ⟨i, a, r⟩ := e
  cases a with
  | send request => exact ne_nil_of_issuedToken h
  | _ => cases h

/-- No other thread uses the token: the requests carry stored tokens, and the tokens that are stored
were used before or issued to the thread that stores them. -/
theorem pending_stable {token : String} :
    (discipline L c tokens₀ calls).Stable j l (Pending L j token) := by
  rintro s s' ⟨hgood, i, l', a, r, hij, -, hexec, hlawful⟩ hp
  have hlog := exec_log hexec
  obtain ⟨e, he, hthread, hissued⟩ := hp.issued
  refine ⟨⟨e, by simp [hlog, he], hthread, hissued⟩, ?_⟩
  rintro (⟨x, hx, hcarried⟩ | hstored)
  · rw [hlog, List.mem_append, List.mem_singleton] at hx
    obtain hx | rfl := hx
    · exact hp.unused (.inl ⟨x, hx, hcarried⟩)
    · obtain ⟨request, rfl⟩ := carried_eq_some hcarried
      exact hp.unused (.inr (hlawful token hcarried).2.2.1)
  · obtain hold | ⟨saved, payload, rfl, hpayload, rfl⟩ := stored_cases hexec hstored
    · exact hp.unused (.inr hold)
    · obtain hnil | hused | ⟨x, hx, hthread', hissued'⟩ := hlawful.2.2.2.1 payload hpayload
      · exact ne_nil_of_issued hissued hnil
      · exact hp.unused hused
      · exact hij (hthread'.symm.trans
          ((hgood.issued e he x hx _ hissued hissued').symm.trans hthread))

end

end Bridge.OAuth
