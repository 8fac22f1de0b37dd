import Mytools.Lib.Base64
import Mytools.Lib.Result

/-!
# Keys and records of web push (`internal/webpush`, `push_api.go`)

The keys of a subscription come as Base64 in any of four encodings. `handleSubscribe` checks them
before a subscription is stored, `Encrypt` decodes them for every message. The primitives of the
`crypto` packages are parameters; each may fail.
-/

namespace Bridge.WebPush

open Lib

/-! ## Base64 in any encoding -/

/-- `empty` is "empty base64 string", `corrupt` the error of the last decoder. -/
inductive Base64Err
  | empty
  | corrupt
  deriving DecidableEq, Repr

/-- The result of the first decoder that accepts the text. -/
def firstDecoded (s : Bytes) : List Base64.Encoding → Except Base64Err Bytes
  | [] => .error .corrupt
  | e :: es =>
    match e.decode s with
    | some b => .ok b
    | none => firstDecoded s es

/-- The decoders, in the order in which they are tried. -/
def flexEncodings : List Base64.Encoding := [.rawURL, .url, .rawStd, .std]

def decodeBase64Flex (s : Bytes) : Except Base64Err Bytes :=
  if s = [] then .error .empty else firstDecoded s flexEncodings

/-! ## Encryption -/

structure SubscriptionKeys where
  p256dh : Bytes
  auth : Bytes
  deriving DecidableEq, Repr

/-- `newPublicKey` says whether the bytes are a point of P-256; `sealRecord` encrypts with a key and
a nonce. -/
structure Primitives where
  newPublicKey : Bytes → Bool
  publicKey : Bytes → Bytes
  ecdh : (privateKey publicKey : Bytes) → Option Bytes
  hkdfKey : (secret salt info : Bytes) → (length : Nat) → Option Bytes
  hkdfExtract : (secret salt : Bytes) → Option Bytes
  hkdfExpand : (key info : Bytes) → (length : Nat) → Option Bytes
  sealRecord : (key nonce record : Bytes) → Option Bytes

inductive EncryptErr
  | tooLong (length : Nat)
  | p256dhRequired
  | authRequired
  | p256dhEncoding (e : Base64Err)
  | p256dhPoint
  | authEncoding (e : Base64Err)
  | authLength
  | crypto
  deriving DecidableEq, Repr

def maxPlaintextLength : Nat := 3993

/-- `binary.BigEndian.AppendUint32` of the record size: 4096. -/
def recordSizeBytes : Bytes := [0, 0, 16, 0]

/-- The keys that `Encrypt` reads from a subscription. -/
def clientKeys (P : Primitives) (keys : SubscriptionKeys) : Except EncryptErr (Bytes × Bytes) := do
  require (keys.p256dh ≠ []) .p256dhRequired
  require (keys.auth ≠ []) .authRequired
  let clientPub ← (decodeBase64Flex keys.p256dh).mapError .p256dhEncoding
  require (P.newPublicKey clientPub = true) .p256dhPoint
  let authSecret ← (decodeBase64Flex keys.auth).mapError .authEncoding
  require (authSecret.length = 16) .authLength
  pure (clientPub, authSecret)

/-- The key and the nonce of the record. -/
def deriveKeys (P : Primitives) (ecdhSecret authSecret clientPub serverPub salt : Bytes) :
    Option (Bytes × Bytes) := do
  let keyInfo := Bytes.ofString "WebPush: info\x00" ++ clientPub ++ serverPub
  let ikm ← P.hkdfKey ecdhSecret authSecret keyInfo 32
  let prk ← P.hkdfExtract ikm salt
  let cek ← P.hkdfExpand prk (Bytes.ofString "Content-Encoding: aes128gcm\x00") 16
  let nonce ← P.hkdfExpand prk (Bytes.ofString "Content-Encoding: nonce\x00") 12
  pure (cek, nonce)

/-- `Encrypt`, with the ephemeral key and the salt that were drawn. -/
def encrypt (P : Primitives) (serverPriv salt : Option Bytes) (plaintext : Bytes)
    (keys : SubscriptionKeys) : Except EncryptErr Bytes := do
  require (plaintext.length ≤ maxPlaintextLength) (.tooLong plaintext.length)
  let (clientPub, authSecret) ← clientKeys P keys
  match serverPriv, salt with
  | some serverPriv, some salt =>
    let serverPub := P.publicKey serverPriv
    match P.ecdh serverPriv clientPub with
    | none => .error .crypto
    | some ecdhSecret =>
      match deriveKeys P ecdhSecret authSecret clientPub serverPub salt with
      | none => .error .crypto
      | some (cek, nonce) =>
        match P.sealRecord cek nonce (plaintext ++ [2]) with
        | none => .error .crypto
        | some record =>
          .ok (salt ++ recordSizeBytes ++ [UInt8.ofNat serverPub.length] ++ serverPub ++ record)
  | _, _ => .error .crypto

/-! ## Subscriptions -/

end Bridge.WebPush
