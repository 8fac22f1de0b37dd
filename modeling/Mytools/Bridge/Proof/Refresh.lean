import Mytools.Bridge.Proof.OAuth

/-!
# The calls of the OAuth client keep their discipline

One precondition for each program, from the single requests up to the calls. With them every
interleaving obeys the discipline (`refresh_safe`).
-/

namespace Bridge.OAuth

open Lib Lib.Threads

section

variable {L : Library} {c : Client} {tokens₀ : Table String OAuthToken} {calls : Nat → Call}
  {i j : Nat} {l : Bool} {s s' : Shared} {a : Act} {r : Ans a} {P : Shared → Prop}

/-! ## The programs -/

/-- An action that is not protected keeps every closed assertion. -/
theorem wp_unprotected {Q : Ans a → Bool → Shared → Prop} (ha : a.Unprotected)
    (hstable : (discipline L c tokens₀ calls).Stable j l P) (hP : Closed P) (hp : P s)
    (h : ∀ s₁ s₂ r, Allowed L tokens₀ s₁ a r → P s₂ → Q r l s₂) :
    (discipline L c tokens₀ calls).wp j l (Prog.call a) Q s :=
  Discipline.wp_call hstable hp fun s₁ r s₂ hp₁ _ hexec =>
    ⟨lawful_of_unprotected ha, h s₁ s₂ r hexec.1 (hP s₁ s₂ (apart_of_unprotected hexec ha) hp₁)⟩

/-- The end of a critical section. -/
def Ends {α : Type} (L : Library) (calls : Nat → Call) (_ : α) (l : Bool) (s : Shared) : Prop :=
  l = true ∧ Free L calls s

theorem wp_persist {accountDID : String} {row : OAuthToken} (hheld : Held calls j accountDID row s)
    (errorClass : RefreshErrorClass) (reauthRequired : Bool)
    (hkeep : reauthRequired = false → ∀ payload, L.decryptToken row.encryptedPayload =
      some payload → ¬ Rotated s.log payload.refreshToken) :
    (discipline L c tokens₀ calls).wp j true
      (persistRefreshFailureLocked accountDID errorClass reauthRequired) (Ends L calls) s := by
  have hclosed : Closed fun s => Held calls j accountDID row s ∧
      (reauthRequired = false → ∀ payload, L.decryptToken row.encryptedPayload = some payload →
        ¬ Rotated s.log payload.refreshToken) :=
    held_closed.and fun s s' h hk hfalse payload hpayload =>
      notRotated_closed s s' h (hk hfalse payload hpayload)
  refine Discipline.wp_bind (Discipline.wp_call (stable_of_closed hclosed) ⟨hheld, hkeep⟩ ?_)
  rintro s₁ r s₂ ⟨hheld₁, hkeep₁⟩ hgood hexec
  have hlawful : Lawful L c calls j true s₁
      (.updateRefreshFailure accountDID errorClass.name reauthRequired) r :=
    ⟨rfl, row, hheld₁.stored, hheld₁.valid, hheld₁.loaded⟩
  refine ⟨hlawful, Discipline.wp_ret ⟨rfl, ?_⟩⟩
  have hlog := exec_log hexec
  -- the row of the account is the only one
  have hrow : ∀ accountDID' row', s₂.tokens.get? accountDID' = some row' → row' =
      { row with reauthRequired := reauthRequired, lastRefreshErrorClass := errorClass.name } := by
    intro accountDID' row' hrow'
    have hd := ((good_step hgood hexec hlawful).account _ _ hrow').1
    have hd' := (hgood.account _ _ hheld₁.stored).1
    rw [hd, ← hd', exec_tokens hexec, effect, Table.get?_setOption, if_pos rfl,
      hheld₁.stored] at hrow'
    exact (Option.some.inj hrow').symm
  constructor
  case fresh =>
    intro accountDID' row' payload hrow' hvalid hpayload
    obtain rfl := hrow accountDID' row' hrow'
    rw [hlog, rotated_snoc]
    rintro (hrot | ⟨hcarried, -⟩)
    · exact hkeep₁ hvalid payload hpayload hrot
    · cases hcarried
  case down =>
    intro hd accountDID' row' hrow'
    obtain rfl := hrow accountDID' row' hrow'
    rw [hlog] at hd
    obtain hfails | ⟨hd, -⟩ := down_snoc hd
    · exact hfails
    · exact absurd hd hheld₁.notDown

/-! ### The refresh request -/

/-- What a thread knows after the answer to a refresh request with the token. -/
structure Answered (L : Library) (calls : Nat → Call) (j : Nat) (accountDID : String)
    (row : OAuthToken) (token : String) (x : Except Failure Answer) (s : Shared) : Prop where
  held : Held calls j accountDID row s
  kept : issuedToken (.refreshToken token) x = none → ¬ Rotated s.log token
  issued : ∀ new, issuedToken (.refreshToken token) x = some new → Pending L j new s

section

variable {accountDID token : String} {row : OAuthToken} {payload : TokenPayload}

theorem carried_of_grant {request : Request} (hgrant : request.grant = .refreshToken token) :
    (Act.send request).carried = some token := by
  obtain ⟨endpoint, grant, key, nonce⟩ := request
  cases hgrant
  rfl

/-- A token that the server has just issued is pending. -/
theorem pending_of_send {request : Request} {r : Ans (.send request)} {new : String}
    (hgood : Good L c tokens₀ calls s) (hexec : exec L tokens₀ j (.send request) s r s')
    (hcarried : ∀ token, (Act.send request).carried = some token → Stored L s.tokens token)
    (hnew : issuedToken request.grant r = some new) : Pending L j new s' := by
  have hlog := exec_log hexec
  have hunknown : ¬ Known L tokens₀ s new := hexec.1 new hnew
  have hunused : ¬ Used L s new := fun hu =>
    (hgood.known_of_used hu).elim (ne_nil_of_issuedToken hnew) hunknown
  refine ⟨⟨⟨j, .send request, r⟩, by simp [hlog], rfl, hnew⟩, ?_⟩
  rintro (⟨e, he, hc⟩ | hstored)
  · rw [hlog, List.mem_append, List.mem_singleton] at he
    obtain he | rfl := he
    · exact hunused (.inl ⟨e, he, hc⟩)
    · exact hunused (.inr (hcarried new hc))
  · rw [exec_tokens hexec] at hstored
    exact hunused (.inr hstored)

theorem wp_attempt {request : Request} (hgrant : request.grant = .refreshToken token)
    (hne : token ≠ "") (hpayload : L.decryptToken row.encryptedPayload = some payload)
    (htoken : payload.refreshToken = token) (hheld : Held calls j accountDID row s)
    (hrot : ¬ Rotated s.log token) :
    (discipline L c tokens₀ calls).wp j true (attempt request)
      (fun x l s => l = true ∧ Answered L calls j accountDID row token x s) s := by
  have hclosed : Closed fun s => Held calls j accountDID row s ∧ ¬ Rotated s.log token :=
    held_closed.and notRotated_closed
  refine Discipline.wp_bind (wp_unprotected ⟨rfl, trivial⟩ (stable_of_closed hclosed) hclosed
    ⟨hheld, hrot⟩ ?_)
  rintro - s₂ r - ⟨hheld₂, hrot₂⟩
  cases r with
  | error err => exact Discipline.wp_ret ⟨rfl, hheld₂, fun _ => hrot₂, fun new hx => (by cases hx)⟩
  | ok =>
    refine Discipline.wp_call (stable_of_closed hclosed) ⟨hheld₂, hrot₂⟩ ?_
    rintro s₃ r s₄ ⟨hheld₃, hrot₃⟩ hgood hexec
    have hstored : Stored L s₃.tokens token :=
      ⟨accountDID, row, payload, hheld₃.stored, hpayload, htoken⟩
    have hcarried := carried_of_grant hgrant
    have hlog := exec_log hexec
    refine ⟨fun token' ht => ?_, rfl, ⟨?_, hheld₃.valid, ?_, fun hd => ?_⟩, fun hx => ?_,
      fun new hx => ?_⟩
    · obtain rfl := Option.some.inj (hcarried.symm.trans ht)
      exact ⟨rfl, hne, hstored, hrot₃, hheld₃.notDown⟩
    · rw [exec_tokens hexec]
      exact hheld₃.stored
    · rw [hlog]
      exact hheld₃.loaded.snoc rfl
    · rw [hlog] at hd
      obtain hfails | ⟨hd, -⟩ := down_snoc hd
      · exact hfails
      · exact hheld₃.notDown hd
    · rw [hlog, rotated_snoc]
      rintro (hrot | ⟨-, hissued⟩)
      · exact hrot₃ hrot
      · rw [← hgrant] at hx
        have hnone : Event.issued ⟨j, .send request, r⟩ = none := hx
        rw [hnone] at hissued
        cases hissued
    · refine pending_of_send hgood hexec (fun token' ht => ?_) (hgrant ▸ hx)
      obtain rfl := Option.some.inj (hcarried.symm.trans ht)
      exact hstored

theorem issuedToken_of_retry {grant : Grant} {response : Answer} {nonce : String}
    (h : retryNonce response = some nonce) : issuedToken grant (.ok response) = none := by
  unfold retryNonce at h
  split at h
  · split at h
    · rename_i hcond
      simp [issuedToken, hcond.1]
    · cases h
  · cases h

theorem wp_doDPoPFormRequest {request : Request} (hgrant : request.grant = .refreshToken token)
    (hne : token ≠ "") (hpayload : L.decryptToken row.encryptedPayload = some payload)
    (htoken : payload.refreshToken = token) (hheld : Held calls j accountDID row s)
    (hrot : ¬ Rotated s.log token) :
    (discipline L c tokens₀ calls).wp j true (doDPoPFormRequest request)
      (fun x l s => l = true ∧ Answered L calls j accountDID row token x s) s := by
  refine Discipline.wp_bind (Discipline.wp_mono ?_
    (wp_attempt hgrant hne hpayload htoken hheld hrot))
  rintro x l s₁ ⟨rfl, hanswered⟩
  cases x with
  | error err => exact Discipline.wp_ret ⟨rfl, hanswered⟩
  | ok response =>
    dsimp only
    split
    · exact Discipline.wp_ret ⟨rfl, hanswered⟩
    · rename_i nonce hretry
      -- the first answer was not successful, so the token was not rotated
      exact wp_attempt hgrant hne hpayload htoken hanswered.held
        (hanswered.kept (issuedToken_of_retry hretry))

/-! ### Storing a token -/

/-- The refresh token may be stored by the thread. -/
def Storable (L : Library) (j : Nat) (token : String) (s : Shared) : Prop :=
  token = "" ∨ Pending L j token s ∨ Stored L s.tokens token ∧ ¬ Rotated s.log token

theorem storable_closed : Closed (Storable L j token) := by
  rintro s s' h (hnil | hp | ⟨hstored, hrot⟩)
  · exact .inl hnil
  · exact .inr (.inl (pending_closed s s' h hp))
  · exact .inr (.inr ⟨h.tokens ▸ hstored, notRotated_closed s s' h hrot⟩)

theorem Storable.notRotated (h : Storable L j token s) (hgood : Good L c tokens₀ calls s) :
    ¬ Rotated s.log token := by
  rintro ⟨e, he, hcarried, hissued⟩
  obtain rfl | hp | ⟨-, hrot⟩ := h
  · exact (hgood.carried e he _ hcarried).1 rfl
  · exact hp.unused (.inl ⟨e, he, hcarried⟩)
  · exact hrot ⟨e, he, hcarried, hissued⟩

theorem wp_saveOAuthToken {saved : OAuthToken} (haccount : saved.accountDID = c.account)
    (hvalid : saved.reauthRequired = false)
    (hpayload : L.decryptToken saved.encryptedPayload = some payload)
    (hstorable : Storable L j payload.refreshToken s)
    (hdown : IsCallback calls j ∨ ¬ Down calls s.log) :
    (discipline L c tokens₀ calls).wp j true (saveOAuthToken saved) (Ends L calls) s := by
  have hclosed : Closed fun s => Storable L j payload.refreshToken s ∧
      (IsCallback calls j ∨ ¬ Down calls s.log) :=
    storable_closed.and fun s s' h hd => hd.imp_right fun hd hd' => hd (h.down hd')
  refine Discipline.wp_call (stable_of_closed hclosed) ⟨hstorable, hdown⟩ ?_
  rintro s₁ r s₂ ⟨hstorable₁, hdown₁⟩ hgood hexec
  have hlawful : Lawful L c calls j true s₁ (.saveToken saved) r := by
    refine ⟨rfl, haccount, hvalid, fun payload' hpayload' => ?_, hdown₁⟩
    obtain rfl := Option.some.inj (hpayload.symm.trans hpayload')
    exact hstorable₁.imp_right fun h => h.symm.imp (fun h => .inr h.1) Pending.issued
  refine ⟨hlawful, rfl, ?_⟩
  have hlog := exec_log hexec
  have hrow : ∀ accountDID' row', s₂.tokens.get? accountDID' = some row' → row' = saved := by
    intro accountDID' row' hrow'
    have hd := ((good_step hgood hexec hlawful).account _ _ hrow').1
    rw [hd, ← haccount, exec_tokens hexec, effect, Table.get?_set, if_pos rfl] at hrow'
    exact (Option.some.inj hrow').symm
  constructor
  case fresh =>
    intro accountDID' row' payload' hrow' _ hpayload'
    obtain rfl := hrow accountDID' row' hrow'
    obtain rfl := Option.some.inj (hpayload.symm.trans hpayload')
    rw [hlog, rotated_snoc]
    rintro (hrot | ⟨hcarried, -⟩)
    · exact hstorable₁.notRotated hgood hrot
    · cases hcarried
  case down =>
    intro hd
    rw [hlog] at hd
    obtain hfails | ⟨hd, hauthorizes⟩ := down_snoc hd
    · cases hfails
    · obtain hcallback | hnot := hdown₁
      · exact absurd ⟨rfl, hcallback⟩ hauthorizes
      · exact absurd hd hnot

/-! ### Refreshing -/

theorem wp_persistClassified (hheld : Held calls j accountDID row s)
    (hpayload : L.decryptToken row.encryptedPayload = some payload)
    (hrot : ¬ Rotated s.log payload.refreshToken) (err : Failure) :
    (discipline L c tokens₀ calls).wp j true (persistClassifiedRefreshFailureLocked accountDID err)
      (Ends L calls) s := by
  refine wp_persist hheld _ _ fun _ payload' hpayload' => ?_
  obtain rfl := Option.some.inj (hpayload.symm.trans hpayload')
  exact hrot

/-- A permanent failure may be recorded whatever was answered. -/
theorem wp_persistPermanent (hheld : Held calls j accountDID row s)
    (errorClass : RefreshErrorClass) :
    (discipline L c tokens₀ calls).wp j true
      (persistRefreshFailureLocked accountDID errorClass true) (Ends L calls) s :=
  wp_persist hheld errorClass true nofun

/-- A program whose result is that of another one. -/
theorem wp_map {α β : Type} {p : M α} {f : α → β}
    (h : (discipline L c tokens₀ calls).wp j true p (Ends L calls) s) :
    (discipline L c tokens₀ calls).wp j true (p.bind fun x => .ret (f x)) (Ends L calls) s := by
  refine Discipline.wp_bind (Discipline.wp_mono ?_ h)
  intro x l s h
  exact Discipline.wp_ret h

theorem storable_of_answered {response : Answer} {refreshed : TokenResponse}
    (hpayload : L.decryptToken row.encryptedPayload = some payload)
    (h : Answered L calls j accountDID row payload.refreshToken (.ok response) s)
    (hstatus : response.statusCode = 200) (htokens : response.tokens = some refreshed) :
    Storable L j (if refreshed.refreshToken = "" then payload.refreshToken
      else refreshed.refreshToken) s := by
  have hstored : Stored L s.tokens payload.refreshToken :=
    ⟨accountDID, row, payload, h.held.stored, hpayload, rfl⟩
  have hissued : issuedToken (.refreshToken payload.refreshToken) (.ok response) =
      if refreshed.refreshToken = "" ∨
        Grant.refreshToken payload.refreshToken = .refreshToken refreshed.refreshToken then none
      else some refreshed.refreshToken := by
    simp [issuedToken, hstatus, htokens]
  split
  · rename_i hnil
    exact .inr (.inr ⟨hstored, h.kept (hissued.trans (if_pos (.inl hnil)))⟩)
  · rename_i hne
    by_cases hsame : payload.refreshToken = refreshed.refreshToken
    · rw [← hsame]
      exact .inr (.inr ⟨hstored, h.kept (hissued.trans (if_pos (.inr (by rw [hsame]))))⟩)
    · refine .inr (.inl (h.issued _ (hissued.trans (if_neg ?_))))
      rintro (hnil | hgrant)
      · exact hne hnil
      · exact hsame (Grant.refreshToken.inj hgrant)

theorem wp_refreshTokenLocked (haccount : accountDID = c.account)
    (hheld : Held calls j accountDID row s)
    (hpayload : L.decryptToken row.encryptedPayload = some payload)
    (hrot : ¬ Rotated s.log payload.refreshToken) (key : Key) :
    (discipline L c tokens₀ calls).wp j true (refreshTokenLocked c accountDID payload key)
      (Ends L calls) s := by
  unfold refreshTokenLocked
  split
  · exact wp_map (wp_persistPermanent hheld _)
  rename_i hblank
  have hne : payload.refreshToken ≠ "" := fun he => hblank (by rw [he]; rfl)
  have hclosed : Closed fun s =>
      Held calls j accountDID row s ∧ ¬ Rotated s.log payload.refreshToken :=
    held_closed.and notRotated_closed
  refine Discipline.wp_bind (wp_unprotected ⟨rfl, trivial⟩ (stable_of_closed hclosed) hclosed
    ⟨hheld, hrot⟩ ?_)
  rintro - s₁ r - ⟨hheld₁, hrot₁⟩
  cases r with
  | error err => exact wp_map (wp_persistClassified hheld₁ hpayload hrot₁ err)
  | ok metadata =>
    refine Discipline.wp_bind (Discipline.wp_mono ?_
      (wp_doDPoPFormRequest rfl hne hpayload rfl hheld₁ hrot₁))
    rintro x l s₂ ⟨rfl, hanswered⟩
    cases x with
    | error err =>
      exact wp_map (wp_persistClassified hanswered.held hpayload (hanswered.kept rfl) err)
    | ok response =>
      dsimp only
      split
      · rename_i hstatus
        have hnone : issuedToken (.refreshToken payload.refreshToken) (.ok response) = none := by
          simp [issuedToken, hstatus]
        exact wp_map (wp_persistClassified hanswered.held hpayload (hanswered.kept hnone) _)
      · rename_i hstatus
        have hstatus : response.statusCode = 200 := not_not.1 hstatus
        split
        · exact wp_map (wp_persistPermanent hanswered.held _)
        rename_i refreshed htokens
        split
        · exact wp_map (wp_persistPermanent hanswered.held _)
        -- the token to be stored is the issued one, or the one that was carried and not rotated
        have hstorable : Storable L j (if refreshed.refreshToken = "" then payload.refreshToken
            else refreshed.refreshToken) s₂ :=
          storable_of_answered hpayload hanswered hstatus htokens
        have hclosed : Closed fun s => Held calls j accountDID row s ∧ Storable L j
            (if refreshed.refreshToken = "" then payload.refreshToken
              else refreshed.refreshToken) s :=
          held_closed.and storable_closed
        refine Discipline.wp_bind (wp_unprotected ⟨rfl, trivial⟩ (stable_of_closed hclosed) hclosed
          ⟨hanswered.held, hstorable⟩ ?_)
        rintro - s₃ now - ⟨hheld₃, hstorable₃⟩
        refine Discipline.wp_bind (wp_unprotected ⟨rfl, trivial⟩ (stable_of_closed hclosed) hclosed
          ⟨hheld₃, hstorable₃⟩ ?_)
        rintro s₃ s₄ r hencrypt ⟨hheld₄, hstorable₄⟩
        cases r with
        | none => exact wp_map (wp_persistPermanent hheld₄ _)
        | some encrypted =>
          exact wp_map (wp_saveOAuthToken haccount rfl (hencrypt encrypted rfl) hstorable₄
            (.inr hheld₄.notDown))

/-! ### The calls with the mutex -/

theorem free_closed : Closed (Free L calls) := fun _ _ h hfree => h.free hfree

/-- The thread has loaded a row that does not require a new authorization. -/
def ValidLoad (j : Nat) (s : Shared) : Prop :=
  ∃ accountDID row, (⟨j, .loadToken accountDID, some row⟩ : Event) ∈ s.log ∧
    row.reauthRequired = false

theorem LoadedBy.validLoad (h : LoadedBy j accountDID row s.log)
    (hvalid : row.reauthRequired = false) :
    ValidLoad j s := by
  obtain ⟨pre, post, hlog, -⟩ := h
  exact ⟨accountDID, row, by simp [hlog], hvalid⟩

theorem validLoad_stable : (discipline L c tokens₀ calls).Stable j l (ValidLoad j) := by
  rintro s s' ⟨-, i, l', a, r, -, -, hexec, -⟩ ⟨accountDID, row, hload, hvalid⟩
  have hlog := exec_log hexec
  exact ⟨accountDID, row, by simp [hlog, hload], hvalid⟩

theorem validLoad_exec {a : Act} {r : Ans a} (hexec : exec L tokens₀ j a s r s')
    (h : ValidLoad j s) : ValidLoad j s' := by
  obtain ⟨accountDID, row, hload, hvalid⟩ := h
  have hlog := exec_log hexec
  exact ⟨accountDID, row, by simp [hlog, hload], hvalid⟩

theorem wp_loadTokenLocked (hfree : Free L calls s) (accountDID : String) :
    (discipline L c tokens₀ calls).wp j true (loadTokenLocked accountDID)
      (fun r l s => l = true ∧ Free L calls s ∧ ∀ stored, r = some stored →
        s.tokens.get? accountDID = some stored ∧ accountDID = c.account ∧
        stored.accountDID = accountDID ∧ LoadedBy j accountDID stored s.log) s := by
  refine Discipline.wp_call (stable_of_closed free_closed) hfree ?_
  intro s₁ r s₂ hfree₁ hgood hexec
  have hr : r = s₁.tokens.get? accountDID := hexec.1
  have hlog := exec_log hexec
  have htokens : s₂.tokens = s₁.tokens := exec_tokens hexec
  have hapart : Apart s₁ s₂ := ⟨htokens, _, hlog, rfl, rfl⟩
  refine ⟨⟨rfl, fun hd row hrow => hfree₁.down hd accountDID row (hr.symm.trans hrow)⟩, rfl,
    hapart.free hfree₁, fun stored hstored => ?_⟩
  have hget : s₁.tokens.get? accountDID = some stored := hr.symm.trans hstored
  obtain ⟨haccount, hkey⟩ := hgood.account accountDID stored hget
  refine ⟨htokens ▸ hget, haccount, hkey, s₁.log, [], ?_, nofun⟩
  rw [hlog, hstored]

theorem held_of_free (hfree : Free L calls s) (hrow : s.tokens.get? accountDID = some row)
    (hloaded : LoadedBy j accountDID row s.log) (hvalid : row.reauthRequired = false) :
    Held calls j accountDID row s := by
  refine ⟨hrow, hvalid, hloaded, fun hd => ?_⟩
  rw [hfree.down hd accountDID row hrow] at hvalid
  cases hvalid

theorem wp_openTokenLocked (hfree : Free L calls s) (hheld : Held calls j accountDID row s)
    (hkey : row.accountDID = accountDID) :
    (discipline L c tokens₀ calls).wp j true (openTokenLocked L row)
      (fun x l s => l = true ∧ Free L calls s ∧ ∀ payload key, x = .ok (payload, key) →
        Held calls j accountDID row s ∧ L.decryptToken row.encryptedPayload = some payload) s := by
  have hfail : ∀ errorClass, (discipline L c tokens₀ calls).wp j true
      ((persistRefreshFailureLocked row.accountDID errorClass true).bind fun x => .ret (.error x))
      (fun (x : Except RefreshError (TokenPayload × Key)) l s => l = true ∧ Free L calls s ∧
        ∀ payload key, x = .ok (payload, key) → Held calls j accountDID row s ∧
          L.decryptToken row.encryptedPayload = some payload) s := by
    intro errorClass
    rw [hkey]
    exact Discipline.wp_bind (Discipline.wp_mono
      (fun _ _ _ h => Discipline.wp_ret ⟨h.1, h.2, fun _ _ hx => (by cases hx)⟩)
      (wp_persistPermanent hheld errorClass))
  unfold openTokenLocked
  split
  · exact hfail _
  · rename_i payload hpayload
    split
    · exact hfail _
    · refine Discipline.wp_ret ⟨rfl, hfree, fun payload' key hx => ?_⟩
      cases hx
      exact ⟨hheld, hpayload⟩

/-- A valid row is refreshed, and the result is passed on. -/
theorem wp_refreshed {α : Type} {f : Except RefreshError Token → M α} (hfree : Free L calls s)
    (haccount : accountDID = c.account) (hkey : row.accountDID = accountDID)
    (hheld : Held calls j accountDID row s)
    (hpayload : L.decryptToken row.encryptedPayload = some payload) (key : Key)
    (hf : ∀ x, ∃ y, f x = .ret y) :
    (discipline L c tokens₀ calls).wp j true
      ((refreshTokenLocked c row.accountDID payload key).bind f) (Ends L calls) s := by
  rw [hkey]
  refine Discipline.wp_bind (Discipline.wp_mono (fun x l s h => ?_) (wp_refreshTokenLocked haccount
    hheld hpayload (hfree.fresh accountDID row payload hheld.stored hheld.valid hpayload) key))
  obtain ⟨y, hy⟩ := hf x
  rw [hy]
  exact Discipline.wp_ret h

/-- A valid row is opened, and what follows runs with its payload. -/
theorem wp_opened {α : Type} {f : Except RefreshError (TokenPayload × Key) → M α}
    (hfree : Free L calls s) (hheld : Held calls j accountDID row s)
    (hkey : row.accountDID = accountDID) (herror : ∀ err, ∃ y, f (.error err) = .ret y)
    (hok : ∀ payload key s₁, Free L calls s₁ → Held calls j accountDID row s₁ →
      L.decryptToken row.encryptedPayload = some payload →
      (discipline L c tokens₀ calls).wp j true (f (.ok (payload, key))) (Ends L calls) s₁) :
    (discipline L c tokens₀ calls).wp j true ((openTokenLocked L row).bind f) (Ends L calls) s := by
  refine Discipline.wp_bind (Discipline.wp_mono ?_ (wp_openTokenLocked hfree hheld hkey))
  rintro x l s₁ ⟨rfl, hfree₁, hopened⟩
  match x with
  | .error err =>
    obtain ⟨y, hy⟩ := herror err
    rw [hy]
    exact Discipline.wp_ret ⟨rfl, hfree₁⟩
  | .ok (payload, key) =>
    obtain ⟨hheld₁, hpayload⟩ := hopened payload key rfl
    exact hok payload key s₁ hfree₁ hheld₁ hpayload

/-- A section of which nothing but its end matters. -/
theorem wp_section {α : Type} {body : M α} (hbody : ∀ s₁, Free L calls s₁ →
      (discipline L c tokens₀ calls).wp j true body (Ends L calls) s₁) :
    (discipline L c tokens₀ calls).wp j false (Prog.locked body) (fun _ l _ => l = false) s := by
  refine Discipline.wp_mono (fun x l s h => h.1) (Discipline.wp_locked (P := fun _ => True)
    (Q := fun _ _ => True) (fun _ _ _ _ => trivial) trivial (fun _ _ _ _ _ => trivial) ?_)
  rintro s₁ - - hfree₁
  exact Discipline.wp_mono (fun x l s (h : Ends L calls x l s) => ⟨h.1, h.2, trivial⟩)
    (hbody s₁ hfree₁)

theorem wp_tokenByAccountDID (accountDID : String) :
    (discipline L c tokens₀ calls).wp j false (tokenByAccountDID L c accountDID)
      (fun x l s => l = false ∧ ∀ token, x = .ok token → ValidLoad j s) s := by
  have hstable : ∀ x : Except TokenError Token, (discipline L c tokens₀ calls).Stable j true
      fun s => ∀ token, x = .ok token → ValidLoad j s :=
    fun x s s' h hx token ht => validLoad_stable s s' h (hx token ht)
  refine Discipline.wp_locked (P := fun _ => True) (fun _ _ _ _ => trivial) trivial hstable ?_
  rintro s₁ - - hfree₁
  refine Discipline.wp_bind (Discipline.wp_mono ?_ (wp_loadTokenLocked hfree₁ accountDID))
  rintro x l s₂ ⟨rfl, hfree₂, hload⟩
  cases x with
  | none => exact Discipline.wp_ret ⟨rfl, hfree₂, fun _ hx => (by cases hx)⟩
  | some stored =>
    obtain ⟨hrow, haccount, hkey, hloaded⟩ := hload stored rfl
    dsimp only
    split
    · exact Discipline.wp_ret ⟨rfl, hfree₂, fun _ hx => (by cases hx)⟩
    rename_i hreauth
    have hvalid : stored.reauthRequired = false := Bool.eq_false_iff.2 hreauth
    -- from here on the load of the valid row is in the log
    refine Discipline.wp_mono (fun x l s h => ⟨h.1.1, h.1.2, fun _ _ => h.2⟩)
      (Discipline.wp_frame (fun _ => validLoad_stable) (fun a s r s' => validLoad_exec)
        (Q := Ends L calls)
        ?_ (hloaded.validLoad hvalid))
    have hheld := held_of_free hfree₂ hrow hloaded hvalid
    refine wp_opened hfree₂ hheld hkey (fun err => ⟨_, rfl⟩)
      fun payload key s₃ hfree₃ hheld₃ hpayload => ?_
    dsimp only
    split
    · exact Discipline.wp_ret ⟨rfl, hfree₃⟩
    refine Discipline.wp_bind (wp_unprotected ⟨rfl, trivial⟩
      (stable_of_closed (free_closed.and held_closed)) (free_closed.and held_closed)
      ⟨hfree₃, hheld₃⟩ ?_)
    rintro - s₄ now - ⟨hfree₄, hheld₄⟩
    split
    · refine wp_refreshed hfree₄ haccount hkey hheld₄ hpayload key fun x => ?_
      cases x <;> exact ⟨_, rfl⟩
    · exact Discipline.wp_ret ⟨rfl, hfree₄⟩

theorem wp_refreshIfDue (accountDID : String) (period : Int) :
    (discipline L c tokens₀ calls).wp j false (refreshIfDue L c accountDID period)
      (fun _ l _ => l = false) s := by
  unfold refreshIfDue
  split
  · exact Discipline.wp_ret rfl
  refine wp_section fun s₁ hfree₁ => ?_
  refine Discipline.wp_bind (Discipline.wp_mono ?_ (wp_loadTokenLocked hfree₁ accountDID))
  rintro x l s₂ ⟨rfl, hfree₂, hload⟩
  cases x with
  | none => exact Discipline.wp_ret ⟨rfl, hfree₂⟩
  | some stored =>
    obtain ⟨hrow, haccount, hkey, hloaded⟩ := hload stored rfl
    dsimp only
    split
    · exact Discipline.wp_ret ⟨rfl, hfree₂⟩
    rename_i hreauth
    have hheld := held_of_free hfree₂ hrow hloaded (Bool.eq_false_iff.2 hreauth)
    refine wp_opened hfree₂ hheld hkey (fun err => ⟨_, rfl⟩)
      fun payload key s₃ hfree₃ hheld₃ hpayload => ?_
    refine Discipline.wp_bind (wp_unprotected ⟨rfl, trivial⟩
      (stable_of_closed (free_closed.and held_closed)) (free_closed.and held_closed)
      ⟨hfree₃, hheld₃⟩ ?_)
    rintro - s₄ now - ⟨hfree₄, hheld₄⟩
    split
    · exact Discipline.wp_ret ⟨rfl, hfree₄⟩
    · refine wp_refreshed hfree₄ haccount hkey hheld₄ hpayload key fun x => ?_
      cases x <;> exact ⟨_, rfl⟩

theorem wp_authorizationStatus (accountDID : String) (period : Int) :
    (discipline L c tokens₀ calls).wp j false (authorizationStatus L accountDID period)
      (fun _ l _ => l = false) s := by
  refine wp_section fun s₁ hfree₁ => ?_
  refine Discipline.wp_bind (Discipline.wp_mono ?_ (wp_loadTokenLocked hfree₁ accountDID))
  rintro x l s₂ ⟨rfl, hfree₂, -⟩
  cases x with
  | none => exact Discipline.wp_ret ⟨rfl, hfree₂⟩
  | some stored =>
    dsimp only
    split
    · exact Discipline.wp_ret ⟨rfl, hfree₂⟩
    · split
      · exact Discipline.wp_ret ⟨rfl, hfree₂⟩
      · refine Discipline.wp_bind (wp_unprotected ⟨rfl, trivial⟩ (stable_of_closed free_closed)
          free_closed hfree₂ ?_)
        rintro - s₃ now - hfree₃
        split <;> exact Discipline.wp_ret ⟨rfl, hfree₃⟩

/-! ### The callback -/

theorem true_closed : Closed fun _ => True := fun _ _ _ _ => trivial

theorem true_stable : (discipline L c tokens₀ calls).Stable j l fun _ => True :=
  fun _ _ _ _ => trivial

/-- A request that carries no refresh token is sent without the mutex. -/
theorem wp_attempt_unlocked {request : Request} (hcarried : (Act.send request).carried = none) :
    (discipline L c tokens₀ calls).wp j false (attempt request)
      (fun x l s => l = false ∧ ∀ new, issuedToken request.grant x = some new → Pending L j new s)
      s := by
  refine Discipline.wp_bind (wp_unprotected ⟨rfl, trivial⟩ true_stable true_closed trivial ?_)
  rintro - s₂ r - -
  cases r with
  | error err => exact Discipline.wp_ret ⟨rfl, fun new hx => (by cases hx)⟩
  | ok =>
    refine Discipline.wp_call true_stable trivial ?_
    intro s₃ r s₄ _ hgood hexec
    have hlawful : Lawful L c calls j false s₃ (.send request) r :=
      lawful_of_unprotected ⟨hcarried, trivial⟩
    refine ⟨hlawful, rfl, fun new hx => ?_⟩
    exact pending_of_send hgood hexec (fun token ht => (by rw [hcarried] at ht; cases ht)) hx

theorem wp_doDPoPFormRequest_unlocked {request : Request}
    (hcarried : ∀ nonce, (Act.send { request with nonce := nonce }).carried = none) :
    (discipline L c tokens₀ calls).wp j false (doDPoPFormRequest request)
      (fun x l s => l = false ∧ ∀ new, issuedToken request.grant x = some new → Pending L j new s)
      s := by
  refine Discipline.wp_bind (Discipline.wp_mono ?_ (wp_attempt_unlocked (hcarried request.nonce)))
  rintro x l s₁ ⟨rfl, hpending⟩
  cases x with
  | error err => exact Discipline.wp_ret ⟨rfl, hpending⟩
  | ok response =>
    dsimp only
    split
    · exact Discipline.wp_ret ⟨rfl, hpending⟩
    · rename_i nonce _
      exact wp_attempt_unlocked (hcarried nonce)

/-- The token that a callback got is empty or pending. -/
def Obtained (L : Library) (j : Nat) (token : String) (s : Shared) : Prop :=
  token = "" ∨ Pending L j token s

theorem obtained_closed : Closed (Obtained L j token) :=
  fun s s' h ho => ho.imp_right (pending_closed s s' h)

theorem obtained_stable : (discipline L c tokens₀ calls).Stable j l (Obtained L j token) :=
  fun s s' h ho => ho.imp_right (pending_stable s s' h)

theorem obtained_of_answer {code verifier : String} {response : Answer} {tokens : TokenResponse}
    (hstatus : response.statusCode = 200) (htokens : response.tokens = some tokens)
    (h : ∀ new, issuedToken (.authorizationCode code verifier) (.ok response) = some new →
      Pending L j new s) : Obtained L j tokens.refreshToken s := by
  by_cases hnil : tokens.refreshToken = ""
  · exact .inl hnil
  · refine .inr (h _ ?_)
    simp [issuedToken, hstatus, htokens, hnil]

/-- The critical section of a callback. -/
theorem wp_storeCallback {saved : OAuthToken} (hcallback : IsCallback calls j)
    (haccount : saved.accountDID = c.account) (hvalid : saved.reauthRequired = false)
    (hpayload : L.decryptToken saved.encryptedPayload = some payload)
    (hobtained : Obtained L j payload.refreshToken s) (state : String) :
    (discipline L c tokens₀ calls).wp j false
      (Prog.locked ((saveOAuthToken saved).bind fun _ => deleteOAuthSession state))
      (fun _ l _ => l = false) s := by
  refine Discipline.wp_mono (fun x l s h => h.1) (Discipline.wp_locked obtained_stable hobtained
    (Q := fun _ _ => True) (fun _ _ _ _ _ => trivial) ?_)
  rintro s₁ hobtained₁ - -
  refine Discipline.wp_bind (Discipline.wp_mono ?_ (wp_saveOAuthToken haccount hvalid hpayload
    (hobtained₁.imp_right .inl) (.inl hcallback)))
  rintro - l s₂ ⟨rfl, hfree⟩
  refine wp_unprotected ⟨rfl, trivial⟩ (stable_of_closed free_closed) free_closed hfree ?_
  rintro - s₃ - - hfree₃
  exact ⟨rfl, hfree₃, trivial⟩

theorem wp_handleCallback (hcallback : IsCallback calls j) (q : Callback) :
    (discipline L c tokens₀ calls).wp j false (handleCallback L c q)
      (fun _ l _ => l = false) s := by
  unfold handleCallback
  split
  · exact Discipline.wp_ret rfl
  refine Discipline.wp_bind (wp_unprotected ⟨rfl, trivial⟩ true_stable true_closed trivial ?_)
  rintro - s₁ x - -
  cases x with
  | none => exact Discipline.wp_ret rfl
  | some session =>
    refine Discipline.wp_bind (wp_unprotected ⟨rfl, trivial⟩ true_stable true_closed trivial ?_)
    rintro - s₂ now₂ - -
    split
    · exact Discipline.wp_ret rfl
    split
    · exact Discipline.wp_ret rfl
    split
    · exact Discipline.wp_ret rfl
    refine Discipline.wp_bind (wp_unprotected ⟨rfl, trivial⟩ true_stable true_closed trivial ?_)
    rintro - s₃ x - -
    cases x with
    | error => exact Discipline.wp_ret rfl
    | ok metadata =>
      dsimp only
      split
      · exact Discipline.wp_ret rfl
      refine Discipline.wp_bind (Discipline.wp_mono ?_ (wp_doDPoPFormRequest_unlocked fun _ => rfl))
      rintro x l s₄ ⟨rfl, hpending⟩
      cases x with
      | error => exact Discipline.wp_ret rfl
      | ok response =>
        dsimp only
        split
        · exact Discipline.wp_ret rfl
        rename_i hstatus
        split
        · exact Discipline.wp_ret rfl
        rename_i tokens htokens
        split
        · exact Discipline.wp_ret rfl
        rename_i hrefused
        have haccount : tokens.sub = c.account := by
          by_contra hne
          exact hrefused (.inl hne)
        have hobtained := obtained_of_answer (not_not.1 hstatus) htokens hpending
        refine Discipline.wp_bind (wp_unprotected ⟨rfl, trivial⟩ obtained_stable obtained_closed
          hobtained ?_)
        rintro - s₅ now₅ - hobtained₅
        refine Discipline.wp_bind (wp_unprotected ⟨rfl, trivial⟩ obtained_stable obtained_closed
          hobtained₅ ?_)
        rintro s₅ s₆ x hencrypt hobtained₆
        cases x with
        | none => exact Discipline.wp_ret rfl
        | some encrypted =>
          refine Discipline.wp_bind (Discipline.wp_mono ?_ (wp_storeCallback hcallback haccount rfl
            (hencrypt encrypted rfl) hobtained₆ q.state))
          rintro - l s₇ rfl
          refine Discipline.wp_bind (Discipline.wp_mono ?_
            (wp_authorizationStatus tokens.sub c.refreshPeriod))
          rintro - l s₈ rfl
          exact Discipline.wp_ret rfl

end

/-! ## All runs -/

/-- A call that has returned a token has loaded a valid row. -/
def Returns (j : Nat) (x : Result) (l : Bool) (s : Shared) : Prop :=
  l = false ∧ ∀ token, x = .token (.ok token) → ValidLoad j s

theorem wp_program (j : Nat) :
    (discipline L c tokens₀ calls).wp j false ((calls j).program L c) (Returns j) s := by
  cases hcall : calls j with
  | tokenByAccountDID accountDID =>
    refine Discipline.wp_bind (Discipline.wp_mono ?_ (wp_tokenByAccountDID accountDID))
    rintro x l s₁ ⟨rfl, hx⟩
    exact Discipline.wp_ret ⟨rfl, fun token ht => hx token (Result.token.inj ht)⟩
  | refreshIfDue accountDID period =>
    refine Discipline.wp_bind (Discipline.wp_mono ?_ (wp_refreshIfDue accountDID period))
    rintro x l s₁ rfl
    exact Discipline.wp_ret ⟨rfl, nofun⟩
  | authorizationStatus accountDID period =>
    refine Discipline.wp_bind (Discipline.wp_mono ?_ (wp_authorizationStatus accountDID period))
    rintro x l s₁ rfl
    exact Discipline.wp_ret ⟨rfl, nofun⟩
  | handleCallback q =>
    refine Discipline.wp_bind (Discipline.wp_mono ?_ (wp_handleCallback ⟨q, hcall⟩ q))
    rintro x l s₁ rfl
    exact Discipline.wp_ret ⟨rfl, nofun⟩

end

/-- All calls before their first step. -/
def start (L : Library) (c : Client) (calls : Nat → Call) (tokens₀ : Table String OAuthToken)
    (sessions₀ : Table String OAuthSession) : Conf Act Ans Result Shared :=
  ⟨⟨tokens₀, sessions₀, []⟩, none, fun i => (calls i).program L c⟩

section

variable {L : Library} {c : Client} {tokens₀ : Table String OAuthToken}
  {sessions₀ : Table String OAuthSession} {calls : Nat → Call}

theorem consistent_start (h₀ : ∀ accountDID row, tokens₀.get? accountDID = some row →
      accountDID = c.account ∧ row.accountDID = accountDID) :
    Discipline.Consistent (discipline L c tokens₀ calls) Returns
      (start L c calls tokens₀ sessions₀) := by
  refine Discipline.Consistent.start ?_ ?_ fun j => wp_program j
  · refine ⟨h₀, fun e h => absurd h List.not_mem_nil, fun token h => .inr (.inl h),
      fun e h => absurd h List.not_mem_nil, fun pre e post h => ?_⟩
    exact absurd h.symm (List.append_ne_nil_of_right_ne_nil pre (List.cons_ne_nil e post))
  · refine ⟨fun _ _ _ _ _ _ ⟨e, he, _⟩ => (by cases he), ?_⟩
    rintro ⟨pre, e, post, h, -⟩
    simp at h

end

/-- Along every interleaving of the calls: no refresh request carries a token that was rotated; from
a permanent failure on until a callback stores a token, no refresh request is sent and no call of
`TokenByAccountDID` that begins returns a token; and a transient failure leaves the row that its
call has loaded as it is, but for the class of the failure. -/
theorem refresh_safe (L : Library) (c : Client) (calls : Nat → Call)
    (tokens₀ : Table String OAuthToken) (sessions₀ : Table String OAuthSession)
    (h₀ : ∀ accountDID row, tokens₀.get? accountDID = some row →
      accountDID = c.account ∧ row.accountDID = accountDID)
    (ls : List (Label Act Ans)) (conf : Conf Act Ans Result Shared)
    (hrun : Runs (Step (exec L tokens₀)) (start L c calls tokens₀ sessions₀) ls conf) :
    (∀ pre e post token, conf.shared.log = pre ++ e :: post → e.act.carried = some token →
      ¬ Rotated pre token) ∧
    (∀ pre f post, conf.shared.log = pre ++ f :: post → f.act.Fails →
      (∀ x ∈ post, ¬ x.Authorizes calls) →
      (∀ x ∈ post, x.act.carried = none) ∧
      ∀ i accountDID r, calls i = .tokenByAccountDID accountDID → (∀ x ∈ pre, x.thread ≠ i) →
        conf.threads i = .ret (.token r) → ∃ err, r = .error err) ∧
    ∀ i accountDID errorClass r conf',
      Step (exec L tokens₀) conf
        (.act i (.updateRefreshFailure accountDID errorClass false) r) conf' →
      ∃ row, LoadedBy i accountDID row conf.shared.log ∧
        conf.shared.tokens.get? accountDID = some row ∧ row.reauthRequired = false ∧
        conf'.shared.tokens.get? accountDID =
          some { row with lastRefreshErrorClass := errorClass } := by
  have hconsistent : Discipline.Consistent (discipline L c tokens₀ calls) Returns conf :=
    (consistent_start h₀).run hrun
  have hgood : Good L c tokens₀ calls conf.shared := hconsistent.good
  refine ⟨fun pre e post token heq ht => ((hgood.inOrder pre e post heq).carried token ht).1, ?_,
    ?_⟩
  · intro pre f post heq hf hpost
    -- at every event since, the failure is the last word
    have hdown : ∀ mid x rest, post = mid ++ x :: rest → Down calls (pre ++ f :: mid) ∧
        InOrder calls (pre ++ f :: mid) x := by
      intro mid x rest hmid
      refine ⟨⟨pre, f, mid, rfl, hf, fun y hy => hpost y (by simp [hmid, hy])⟩, ?_⟩
      exact hgood.inOrder _ x rest (by simp [heq, hmid])
    refine ⟨fun x hx => ?_, fun i accountDID r hcall hfirst hthread => ?_⟩
    · obtain ⟨mid, rest, hmid⟩ := List.append_of_mem hx
      obtain ⟨hd, hx'⟩ := hdown mid x rest hmid
      cases hc : x.act.carried with
      | none => rfl
      | some token => exact absurd hd (hx'.carried token hc).2
    · cases r with
      | error err => exact ⟨err, rfl⟩
      | ok token =>
        obtain ⟨s, hs, -, hvalid⟩ := hconsistent.result hthread
        obtain ⟨did, row, hload, hreauth⟩ := validLoad_stable.others hs (hvalid token rfl)
        rw [heq, List.mem_append, List.mem_cons] at hload
        obtain hload | hload | hload := hload
        · exact absurd rfl (hfirst _ hload)
        · rw [← hload] at hf
          exact hf.elim
        · obtain ⟨mid, rest, hmid⟩ := List.append_of_mem hload
          obtain ⟨hd, hx'⟩ := hdown mid _ rest hmid
          rw [hx'.loaded did row hd rfl] at hreauth
          cases hreauth
  · intro i accountDID errorClass r conf' hstep
    cases hstep with
    | act hthread hexec =>
      obtain ⟨-, row, hrow, hvalid, hloaded⟩ := (hconsistent.lawful hthread hexec).1
      refine ⟨row, hloaded, hrow, hvalid, ?_⟩
      dsimp only
      rw [exec_tokens hexec, effect, Table.get?_setOption, if_pos rfl, hrow, ← hvalid]
      rfl

/-! ### A rate limit -/

/-- An access token that has expired. -/
def expired : TokenPayload := ⟨"a", "r", "atproto", "", "", 0⟩

/-- Every ciphertext is the one of the expired token. -/
def expiredLibrary : Library := ⟨fun _ => some expired, fun _ => none, fun _ => some []⟩

def someClient : Client := ⟨"bluesky", "did", "", 0⟩

def expiredRow : OAuthToken := ⟨"did", [], 0, 0, false, ""⟩

def expiredTokens : Table String OAuthToken := Table.empty.set "did" expiredRow

/-- Too many requests. -/
def limited : Answer := ⟨429, true, "", true, [], none⟩

def limitedRequest : Request := ⟨"", .refreshToken "r", [], ""⟩

theorem refresh_safe_limited : ∃ ls conf conf',
    Runs (Step (exec expiredLibrary expiredTokens))
      (start expiredLibrary someClient (fun _ => .tokenByAccountDID "did")
        expiredTokens Table.empty)
      ls conf ∧
    Step (exec expiredLibrary expiredTokens) conf
      (.act 0 (.updateRefreshFailure "did" "rate_limited" false) ()) conf' ∧
    ∃ row, conf'.shared.tokens.get? "did" = some row ∧ row.encryptedPayload = [] ∧
      row.lastRefreshAt = 0 ∧ row.reauthRequired = false := by
  have hrun : Runs (Step (exec expiredLibrary expiredTokens))
      (start expiredLibrary someClient (fun _ => .tokenByAccountDID "did")
        expiredTokens Table.empty)
      [.lock 0, .act 0 (.loadToken "did") (some expiredRow), .act 0 .now (1 : Int),
        .act 0 (.discover "") (.ok ⟨"", ""⟩), .act 0 (.prepare limitedRequest) (.ok ()),
        .act 0 (.send limitedRequest) (.ok limited)] _ :=
    (((((Runs.one (.lock rfl rfl)).snoc (.act rfl ⟨rfl, rfl⟩)).snoc (.act rfl ⟨trivial, rfl⟩)).snoc
      (.act rfl ⟨trivial, rfl⟩)).snoc (.act rfl ⟨trivial, rfl⟩)).snoc (.act rfl ⟨nofun, rfl⟩)
  have h₀ : ∀ accountDID row, expiredTokens.get? accountDID = some row →
      accountDID = someClient.account ∧ row.accountDID = accountDID := by
    intro accountDID row hrow
    obtain ⟨rfl, rfl⟩ | ⟨-, hrow⟩ := Table.get?_set_eq_some.1 hrow
    · exact ⟨rfl, rfl⟩
    · cases hrow
  refine ⟨_, _, _, hrun, .act rfl ⟨trivial, rfl⟩, ?_⟩
  obtain ⟨row, -, hrow, hvalid, hafter⟩ := (refresh_safe expiredLibrary someClient _ expiredTokens
    Table.empty h₀ _ _ hrun).2.2 0 "did" "rate_limited" () _ (.act rfl ⟨trivial, rfl⟩)
  obtain rfl : expiredRow = row := Option.some.inj hrow
  exact ⟨_, hafter, rfl, rfl, hvalid⟩

end Bridge.OAuth
