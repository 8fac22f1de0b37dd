import Mytools.Lib.Bytes
import Mytools.Lib.Table
import Mytools.Lib.Threads

/-!
# The OAuth client

The calls of the Bluesky client that load, refresh and store its token. They are programs of threads
that share the store and the token mutex: every call of the store and every request is one action.
The calls of the store succeed; a row that is not there is an answer of it. What is sealed, signed
or parsed outside of the client is a parameter or an answer.
-/

namespace Bridge.OAuth

open Lib Lib.Threads

/-! ## Values -/

/-- Nanoseconds since the beginning of 1970. -/
abbrev Time := Int

/-- `time.Time{}`, the beginning of the year 1. -/
def zeroTime : Time := -62135596800 * 1000000000

def unix (t : Time) : Int := t / 1000000000

/-- `now.Add(time.Duration(expiresIn) * time.Second)`, the zero time if there is no limit. -/
def expiryOf (now : Time) (expiresIn : Int) : Time :=
  if 0 < expiresIn then now + Int.bmod (expiresIn * 1000000000) 18446744073709551616 else zeroTime

/-- A JSON web key, as text. -/
abbrev Jwk := String

/-- A private key. -/
abbrev Key := Bytes

structure SessionPayload where
  codeVerifier : String
  issuer : String
  dpopKey : Jwk
  dpopNonce : String

structure TokenPayload where
  accessToken : String
  refreshToken : String
  scope : String
  dpopKey : Jwk
  dpopNonce : String
  expiry : Time

structure TokenResponse where
  accessToken : String
  refreshToken : String
  sub : String
  scope : String
  expiresIn : Int

structure Token where
  accessToken : String
  refreshToken : String
  scope : String
  dpopKey : Key
  dpopNonce : String
  expiry : Time

/-- A row of `oauth_tokens`. -/
structure OAuthToken where
  accountDID : String
  encryptedPayload : Bytes
  updatedAt : Int
  lastRefreshAt : Int
  reauthRequired : Bool
  lastRefreshErrorClass : String

/-- A row of `oauth_sessions`. -/
structure OAuthSession where
  encryptedPayload : Bytes
  expiresAt : Int

/-- The options of the client that its calls read. -/
structure Client where
  provider : String
  account : String
  issuer : String
  refreshPeriod : Int

/-- What is opened and parsed outside of the client. -/
structure Library where
  /-- `box.Open` and `json.Unmarshal` of a token. -/
  decryptToken : Bytes → Option TokenPayload
  /-- `box.Open` and `json.Unmarshal` of a session. -/
  decryptSession : Bytes → Option SessionPayload
  /-- `jwk.ecdsa` -/
  ecdsa : Jwk → Option Key

def hasScope (scope want : String) : Bool := (fields scope).contains want

/-! ## Failures -/

inductive RefreshErrorClass
  | timeout
  | connection
  | rateLimit
  | server
  | invalidGrant
  | missingRefreshToken
  | decrypt
  | dpopKey
  | protocol
deriving DecidableEq

namespace RefreshErrorClass

def name : RefreshErrorClass → String
  | timeout => "timeout"
  | connection => "connection"
  | rateLimit => "rate_limited"
  | server => "server"
  | invalidGrant => "invalid_grant"
  | missingRefreshToken => "missing_refresh_token"
  | decrypt => "decrypt"
  | dpopKey => "dpop_key"
  | protocol => "protocol"

/-- `boundedRefreshErrorClass` of a text. -/
def bounded (text : String) : RefreshErrorClass :=
  match [timeout, connection, rateLimit, server, invalidGrant, missingRefreshToken, decrypt,
    dpopKey, protocol].find? (·.name = text) with
  | some c => c
  | none => protocol

end RefreshErrorClass

structure RefreshError where
  errorClass : RefreshErrorClass
  reauthRequired : Bool

/-- An error of a request: an `oauthResponseError`, or another one with what `errors.Is` and
`errors.As` find in it. -/
inductive Failure
  | response (statusCode : Nat) (invalidGrant : Bool)
  | other (deadlineExceeded timeout urlError : Bool)

def classifyRefreshFailure : Failure → RefreshErrorClass × Bool
  | .response statusCode invalidGrant =>
    if invalidGrant then (.invalidGrant, true)
    else if statusCode = 429 then (.rateLimit, false)
    else if 500 ≤ statusCode ∧ statusCode < 600 then (.server, false)
    else (.protocol, true)
  | .other deadlineExceeded timeout urlError =>
    if deadlineExceeded then (.timeout, false)
    else if timeout then (.timeout, false)
    else if urlError then (.connection, false)
    else (.protocol, true)

/-! ## Requests -/

structure Metadata where
  issuer : String
  tokenEndpoint : String

inductive Grant
  | refreshToken (token : String)
  | authorizationCode (code codeVerifier : String)
deriving DecidableEq

/-- A form request with a DPoP proof. -/
structure Request where
  endpoint : String
  grant : Grant
  key : Key
  nonce : String

/-- The response to a form request. `error` is what `json.Unmarshal` leaves of the member of this
name, and `wellFormed` says that the body is within the limit and without an error of it; `tokens`
is the body as the decoder reads it. -/
structure Answer where
  statusCode : Nat
  readable : Bool
  error : String
  wellFormed : Bool
  nonces : List String
  tokens : Option TokenResponse

/-- `responseError` -/
def responseError (response : Answer) : Failure :=
  .response response.statusCode (response.wellFormed && response.error = "invalid_grant")

/-- `Header.Get("DPoP-Nonce")` -/
def Answer.nonce (response : Answer) : String := response.nonces.headD ""

/-! ## Actions -/

inductive Act
  | now
  | loadToken (accountDID : String)
  | saveToken (token : OAuthToken)
  | updateRefreshFailure (accountDID errorClass : String) (reauthRequired : Bool)
  | loadSession (state : String)
  | deleteSession (state : String)
  | discover (issuer : String)
  | prepare (request : Request)
  | send (request : Request)
  | encrypt (payload : TokenPayload)

abbrev Ans : Act → Type
  | .now => Time
  | .loadToken _ => Option OAuthToken
  | .saveToken _ => Unit
  | .updateRefreshFailure _ _ _ => Unit
  | .loadSession _ => Option OAuthSession
  | .deleteSession _ => Unit
  | .discover _ => Except Failure Metadata
  | .prepare _ => Except Failure Unit
  | .send _ => Except Failure Answer
  | .encrypt _ => Option Bytes

abbrev M := Prog Act Ans

def now : M Time := Prog.call Act.now

/-- `store.OAuthTokenByAccountDID`; no answer is `sql.ErrNoRows`. -/
def loadTokenLocked (accountDID : String) : M (Option OAuthToken) :=
  Prog.call (Act.loadToken accountDID)

/-- `store.SaveOAuthToken` -/
def saveOAuthToken (token : OAuthToken) : M Unit := Prog.call (Act.saveToken token)

/-- `store.UpdateOAuthTokenRefreshFailure` -/
def updateOAuthTokenRefreshFailure (accountDID errorClass : String) (reauthRequired : Bool) :
    M Unit :=
  Prog.call (Act.updateRefreshFailure accountDID errorClass reauthRequired)

/-- `store.OAuthSessionByState` -/
def oauthSessionByState (state : String) : M (Option OAuthSession) :=
  Prog.call (Act.loadSession state)

/-- `store.DeleteOAuthSession` -/
def deleteOAuthSession (state : String) : M Unit := Prog.call (Act.deleteSession state)

def discoverAuthorizationServer (issuer : String) : M (Except Failure Metadata) :=
  Prog.call (Act.discover issuer)

/-- The form with its client assertion, the request and its DPoP proof are made. -/
def prepare (request : Request) : M (Except Failure Unit) := Prog.call (Act.prepare request)

/-- `httpClient.Do` -/
def send (request : Request) : M (Except Failure Answer) := Prog.call (Act.send request)

/-- `json.Marshal` and `encrypt` -/
def encrypt (payload : TokenPayload) : M (Option Bytes) := Prog.call (Act.encrypt payload)

/-! ## Form requests -/

/-- One attempt of `doDPoPFormRequest`. -/
def attempt (request : Request) : M (Except Failure Answer) := do
  match ← prepare request with
  | .error err => pure (.error err)
  | .ok _ => send request

/-- The nonce with which a request is sent again. -/
def retryNonce (response : Answer) : Option String :=
  match response.nonces with
  | [nonce] =>
    if response.statusCode = 400 ∧ response.readable ∧ response.error = "use_dpop_nonce" ∧
      trimSpace nonce ≠ "" then some nonce
    else none
  | _ => none

def doDPoPFormRequest (request : Request) : M (Except Failure Answer) := do
  match ← attempt request with
  | .error err => pure (.error err)
  | .ok response =>
    match retryNonce response with
    | none => pure (.ok response)
    | some nonce => attempt { request with nonce := nonce }

/-! ## Refreshing -/

def persistRefreshFailureLocked (accountDID : String) (errorClass : RefreshErrorClass)
    (reauthRequired : Bool) : M RefreshError := do
  updateOAuthTokenRefreshFailure accountDID errorClass.name reauthRequired
  pure ⟨errorClass, reauthRequired⟩

def persistClassifiedRefreshFailureLocked (accountDID : String) (err : Failure) : M RefreshError :=
  let (errorClass, reauthRequired) := classifyRefreshFailure err
  persistRefreshFailureLocked accountDID errorClass reauthRequired

def refreshTokenLocked (c : Client) (accountDID : String) (current : TokenPayload) (key : Key) :
    M (Except RefreshError Token) := do
  if trimSpace current.refreshToken = "" then
    return .error (← persistRefreshFailureLocked accountDID .missingRefreshToken true)
  else
    match ← discoverAuthorizationServer c.issuer with
    | .error err => return .error (← persistClassifiedRefreshFailureLocked accountDID err)
    | .ok metadata =>
      match ← doDPoPFormRequest
          ⟨metadata.tokenEndpoint, .refreshToken current.refreshToken, key, current.dpopNonce⟩ with
      | .error err => return .error (← persistClassifiedRefreshFailureLocked accountDID err)
      | .ok response =>
        if response.statusCode ≠ 200 then
          return .error (← persistClassifiedRefreshFailureLocked accountDID
            (responseError response))
        else
          match response.tokens with
          | none => return .error (← persistRefreshFailureLocked accountDID .protocol true)
          | some refreshed =>
            if trimSpace refreshed.accessToken = "" ∨ !hasScope refreshed.scope "atproto" then
              return .error (← persistRefreshFailureLocked accountDID .protocol true)
            else
              let refreshToken :=
                if refreshed.refreshToken = "" then current.refreshToken else refreshed.refreshToken
              let now ← now
              let expiry := expiryOf now refreshed.expiresIn
              let nonce := if response.nonce = "" then current.dpopNonce else response.nonce
              match ← encrypt ⟨refreshed.accessToken, refreshToken, refreshed.scope,
                  current.dpopKey, nonce, expiry⟩ with
              | none => return .error (← persistRefreshFailureLocked accountDID .protocol true)
              | some encrypted =>
                saveOAuthToken ⟨accountDID, encrypted, unix now, unix now, false, ""⟩
                return .ok ⟨refreshed.accessToken, refreshToken, refreshed.scope, key,
                  nonce, expiry⟩

/-- The errors of the calls that return a token. -/
inductive TokenError
  | noRows
  | scopeMismatch
  | refresh (err : RefreshError)
  | noAccessToken

/-- The token's payload and key are opened; a failure of that is recorded. -/
def openTokenLocked (L : Library) (stored : OAuthToken) :
    M (Except RefreshError (TokenPayload × Key)) := do
  match L.decryptToken stored.encryptedPayload with
  | none => return .error (← persistRefreshFailureLocked stored.accountDID .decrypt true)
  | some payload =>
    match L.ecdsa payload.dpopKey with
    | none => return .error (← persistRefreshFailureLocked stored.accountDID .dpopKey true)
    | some key => return .ok (payload, key)

/-! ## The calls -/

def tokenByAccountDID (L : Library) (c : Client) (accountDID : String) :
    M (Except TokenError Token) :=
  Prog.locked do
    match ← loadTokenLocked accountDID with
    | none => return .error .noRows
    | some stored =>
      if stored.reauthRequired then
        return .error (.refresh ⟨.bounded stored.lastRefreshErrorClass, true⟩)
      else
        match ← openTokenLocked L stored with
        | .error err => return .error (.refresh err)
        | .ok (payload, key) =>
          if trimSpace payload.accessToken = "" then return .error .noAccessToken
          else
            let now ← now
            if payload.expiry ≠ zeroTime ∧ payload.expiry ≤ now then
              match ← refreshTokenLocked c stored.accountDID payload key with
              | .error err => return .error (.refresh err)
              | .ok token => return .ok token
            else
              return .ok ⟨payload.accessToken, payload.refreshToken, payload.scope, key,
                payload.dpopNonce, payload.expiry⟩

def effectiveLastRefresh (stored : OAuthToken) : Time :=
  let value := if stored.lastRefreshAt ≤ 0 then stored.updatedAt else stored.lastRefreshAt
  if value ≤ 0 then zeroTime else value * 1000000000

/-- The token, if it was refreshed. -/
def refreshIfDue (L : Library) (c : Client) (accountDID : String) (period : Int) :
    M (Except TokenError (Option Token)) :=
  if c.provider ≠ "bluesky" ∨ trimSpace c.account = "" ∨ accountDID ≠ c.account then
    pure (.error .scopeMismatch)
  else Prog.locked do
    match ← loadTokenLocked accountDID with
    | none => return .ok none
    | some stored =>
      if stored.reauthRequired then return .ok none
      else
        match ← openTokenLocked L stored with
        | .error err => return .error (.refresh err)
        | .ok (payload, key) =>
          let now ← now
          if now < effectiveLastRefresh stored + period then return .ok none
          else
            match ← refreshTokenLocked c stored.accountDID payload key with
            | .error err => return .error (.refresh err)
            | .ok token => return .ok (some token)

structure Status where
  accessTokenValid : Bool := false
  accessTokenExpiry : Time := zeroTime
  authorizationAvailable : Bool := false
  reauthRequired : Bool := false
  lastRefreshSucceededAt : Time := zeroTime
  nextMaintenanceRefresh : Time := zeroTime
  lastRefreshErrorClass : String := ""

def authorizationStatus (L : Library) (accountDID : String) (period : Int) : M Status :=
  Prog.locked do
    match ← loadTokenLocked accountDID with
    | none => return {}
    | some stored =>
      let lastRefresh := effectiveLastRefresh stored
      let status : Status :=
        { reauthRequired := stored.reauthRequired
          lastRefreshSucceededAt := lastRefresh
          lastRefreshErrorClass := stored.lastRefreshErrorClass
          nextMaintenanceRefresh := if lastRefresh = zeroTime then zeroTime
            else lastRefresh + period }
      match L.decryptToken stored.encryptedPayload with
      | none => return { status with reauthRequired := true, lastRefreshErrorClass := "decrypt" }
      | some payload =>
        match L.ecdsa payload.dpopKey with
        | none => return { status with reauthRequired := true, lastRefreshErrorClass := "dpop_key" }
        | some _ =>
          let now ← now
          let status : Status :=
            { status with
              accessTokenExpiry := payload.expiry
              accessTokenValid := trimSpace payload.accessToken ≠ "" ∧
                (payload.expiry = zeroTime ∨ now < payload.expiry) }
          if trimSpace payload.refreshToken = "" then
            return { status with
              reauthRequired := true, lastRefreshErrorClass := "missing_refresh_token" }
          else return { status with authorizationAvailable := !status.reauthRequired }

/-- The parameters of a callback. -/
structure Callback where
  state : String
  code : String
  iss : String

/-- An HTTP status, with the text of an error. -/
structure Response where
  status : Nat
  error : String

def handleCallback (L : Library) (c : Client) (q : Callback) : M Response := do
  if q.state = "" ∨ q.code = "" then return ⟨400, "invalid OAuth callback"⟩
  else
    match ← oauthSessionByState q.state with
    | none => return ⟨400, "invalid OAuth state"⟩
    | some session =>
      let now' ← now
      if session.expiresAt ≤ unix now' then return ⟨400, "invalid OAuth state"⟩
      else
        match L.decryptSession session.encryptedPayload with
        | none => return ⟨400, "invalid OAuth state"⟩
        | some payload =>
          if q.iss = "" ∨ q.iss ≠ payload.issuer then return ⟨400, "invalid OAuth issuer"⟩
          else
            match ← discoverAuthorizationServer payload.issuer with
            | .error _ => return ⟨502, "OAuth token exchange failed"⟩
            | .ok metadata =>
              match L.ecdsa payload.dpopKey with
              | none => return ⟨400, "invalid OAuth state"⟩
              | some key =>
                match ← doDPoPFormRequest ⟨metadata.tokenEndpoint,
                    .authorizationCode q.code payload.codeVerifier, key, payload.dpopNonce⟩ with
                | .error _ => return ⟨502, "OAuth token exchange failed"⟩
                | .ok response =>
                  if response.statusCode ≠ 200 then return ⟨502, "OAuth token exchange failed"⟩
                  else
                    match response.tokens with
                    | none => return ⟨502, "invalid OAuth token response"⟩
                    | some tokens =>
                      if tokens.sub ≠ c.account ∨ !hasScope tokens.scope "atproto" then
                        return ⟨502, "invalid OAuth token response"⟩
                      else
                        let now ← now
                        match ← encrypt ⟨tokens.accessToken, tokens.refreshToken, tokens.scope,
                            payload.dpopKey, response.nonce, expiryOf now tokens.expiresIn⟩ with
                        | none => return ⟨500, "OAuth token persistence failed"⟩
                        | some encrypted =>
                          Prog.locked do
                            saveOAuthToken ⟨tokens.sub, encrypted, unix now, unix now, false, ""⟩
                            deleteOAuthSession q.state
                          let _ ← authorizationStatus L tokens.sub c.refreshPeriod
                          return ⟨303, ""⟩

inductive Call
  | tokenByAccountDID (accountDID : String)
  | refreshIfDue (accountDID : String) (period : Int)
  | authorizationStatus (accountDID : String) (period : Int)
  | handleCallback (q : Callback)

inductive Result
  | token (r : Except TokenError Token)
  | refresh (r : Except TokenError (Option Token))
  | status (r : Status)
  | response (r : Response)

def Call.program (L : Library) (c : Client) : Call → M Result
  | .tokenByAccountDID accountDID => do return .token (← OAuth.tokenByAccountDID L c accountDID)
  | .refreshIfDue accountDID period =>
      do return .refresh (← OAuth.refreshIfDue L c accountDID period)
  | .authorizationStatus accountDID period => do
    return .status (← OAuth.authorizationStatus L accountDID period)
  | .handleCallback q => do return .response (← OAuth.handleCallback L c q)

/-! ## The store, the server and the history -/

/-- An action of a thread and its answer. -/
structure Event where
  thread : Nat
  act : Act
  ans : Ans act

/-- The rows of the client's scope, and all that was done. -/
structure Shared where
  tokens : Table String OAuthToken
  sessions : Table String OAuthSession
  log : List Event

/-- The new refresh token in a successful answer to a request with the grant: one that the grant
does not have. -/
def issuedToken (grant : Grant) : Except Failure Answer → Option String
  | .error _ => none
  | .ok response =>
    if response.statusCode = 200 then
      response.tokens.bind fun t =>
        if t.refreshToken = "" ∨ grant = .refreshToken t.refreshToken then none
        else some t.refreshToken
    else none

def Event.issued : Event → Option String
  | ⟨_, .send request, ans⟩ => issuedToken request.grant ans
  | _ => none

/-- A row of the table has the refresh token. -/
def Stored (L : Library) (tokens : Table String OAuthToken) (token : String) : Prop :=
  ∃ accountDID row payload, tokens.get? accountDID = some row ∧
    L.decryptToken row.encryptedPayload = some payload ∧ payload.refreshToken = token

/-- The refresh token was in the first table or was issued since. -/
def Known (L : Library) (tokens₀ : Table String OAuthToken) (s : Shared) (token : String) : Prop :=
  Stored L tokens₀ token ∨ ∃ e ∈ s.log, e.issued = some token

/-- What an action does to the store. -/
def effect : Act → Shared → Shared
  | .saveToken token, s => { s with tokens := s.tokens.set token.accountDID token }
  | .updateRefreshFailure accountDID errorClass reauthRequired, s =>
    { s with
      tokens := s.tokens.setOption accountDID ((s.tokens.get? accountDID).map fun row =>
        { row with reauthRequired := reauthRequired, lastRefreshErrorClass := errorClass }) }
  | .deleteSession state, s => { s with sessions := s.sessions.erase state }
  | _, s => s

/-- The answers that an action may have. The store answers with its rows, what is encrypted can be
decrypted, and every refresh token that the server issues is fresh. -/
def Allowed (L : Library) (tokens₀ : Table String OAuthToken) (s : Shared) :
    (a : Act) → Ans a → Prop
  | .loadToken accountDID, r => r = s.tokens.get? accountDID
  | .loadSession state, r => r = s.sessions.get? state
  | .encrypt payload, r => ∀ encrypted, r = some encrypted → L.decryptToken encrypted = some payload
  | .send request, r => ∀ token, issuedToken request.grant r = some token →
      ¬ Known L tokens₀ s token
  | _, _ => True

def exec (L : Library) (tokens₀ : Table String OAuthToken) (i : Nat) (a : Act) (s : Shared)
    (r : Ans a) (s' : Shared) : Prop :=
  Allowed L tokens₀ s a r ∧ s' = { effect a s with log := s.log ++ [⟨i, a, r⟩] }

end Bridge.OAuth
