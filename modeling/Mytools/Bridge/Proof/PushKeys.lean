import Mytools.Bridge.PushKeys

/-!
# Keys are read alike in every encoding

A text of one of the four encodings is accepted by its own decoder, and any decoder that accepts it
reads the same bytes, so the order of the decoders does not matter. From it: the keys that
`handleSubscribe` lets through are those that `Encrypt` accepts, and the user agent that holds the
key of a subscription reads its messages.
-/

namespace Bridge.WebPush

open Lib

/-! ## The chain of decoders -/

/-- Decoders that agree on a text, one of which accepts it, need no order. -/
theorem firstDecoded_eq {s b : Bytes} {e : Base64.Encoding} (he : e.decode s = some b) :
    ∀ {es : List Base64.Encoding}, e ∈ es → (∀ e' ∈ es, ∀ t, e'.decode s = some t → t = b) →
      firstDecoded s es = .ok b
  | e' :: es, hm, hagree => by
    rw [firstDecoded]
    cases hd : e'.decode s with
    | some t =>
      show Except.ok t = Except.ok b
      rw [hagree e' List.mem_cons_self t hd]
    | none =>
      have hne : e ≠ e' := by
        intro h
        rw [← h, he] at hd
        cases hd
      exact firstDecoded_eq he ((List.mem_cons.1 hm).resolve_left hne)
        fun e'' hm' => hagree e'' (List.mem_cons_of_mem _ hm')

theorem mem_flexEncodings (e : Base64.Encoding) : e ∈ flexEncodings := by
  obtain ⟨a, p⟩ := e
  cases a <;> cases p <;> decide

theorem decodeBase64Flex_encode (e : Base64.Encoding) {b : Bytes} (hb : b ≠ []) :
    decodeBase64Flex (e.encode b) = .ok b := by
  rw [decodeBase64Flex, if_neg (e.encode_ne_nil hb)]
  exact firstDecoded_eq (e.decode_encode b) (mem_flexEncodings e)
    fun e' _ _ ht => Base64.Encoding.eq_of_decode e e' ht

/-- The text of a byte string in any encoding is decoded to it, and no decoder of the chain reads
anything else from it. -/
theorem decodeBase64Flex_unambiguous (e : Base64.Encoding) (b : Bytes) (hb : b ≠ []) :
    decodeBase64Flex (e.encode b) = .ok b ∧
      ∀ e' ∈ flexEncodings, ∀ t, e'.decode (e.encode b) = some t → t = b :=
  ⟨decodeBase64Flex_encode e hb, fun e' _ _ ht => Base64.Encoding.eq_of_decode e e' ht⟩

/-- A text with padding and with a digit of the standard alphabet: only the last decoder takes
it. -/
theorem decodeBase64Flex_unambiguous_std :
    Base64.Encoding.std.encode [0xff, 0xff] = Bytes.ofString "//8=" ∧
      decodeBase64Flex (Base64.Encoding.std.encode [0xff, 0xff]) = .ok [0xff, 0xff] :=
  ⟨by decide, (decodeBase64Flex_unambiguous .std [0xff, 0xff] (by decide)).1⟩

/-! ## Keys -/

/-- The keys of a record as its receiver derives them: HKDF in its two parts, first of the shared
secret with the authentication secret as salt, for an information that names the public keys of the
user agent and of the application server, and then of the outcome with the salt of the message. -/
def receiverKeys (P : Primitives) (ecdhSecret authSecret uaPublic asPublic salt : Bytes) :
    Option (Bytes × Bytes) := do
  let prkKey ← P.hkdfExtract ecdhSecret authSecret
  let keyInfo := Bytes.ofString "WebPush: info" ++ 0 :: (uaPublic ++ asPublic)
  let ikm ← P.hkdfExpand prkKey keyInfo 32
  let prk ← P.hkdfExtract ikm salt
  let cek ← P.hkdfExpand prk (Bytes.ofString "Content-Encoding: aes128gcm" ++ [0]) 16
  let nonce ← P.hkdfExpand prk (Bytes.ofString "Content-Encoding: nonce" ++ [0]) 12
  some (cek, nonce)

/-- The user agent's side: what the holder of the private key reads in a message. Behind the
plaintext the record has a delimiter, which may be padded with zeros. -/
def decrypt (P : Primitives) (openRecord : (key nonce sealed : Bytes) → Option Bytes)
    (privateKey authSecret message : Bytes) : Option Bytes := do
  let keyLength ← message[20]?
  let rest := message.drop 21
  let asPublic := rest.take keyLength.toNat
  let ecdhSecret ← P.ecdh privateKey asPublic
  let (cek, nonce) ← receiverKeys P ecdhSecret authSecret (P.publicKey privateKey) asPublic
    (message.take 16)
  let record ← openRecord cek nonce (rest.drop keyLength.toNat)
  match record.reverse.dropWhile (· = 0) with
  | [] => none
  | delimiter :: reversed => if delimiter = 2 then some reversed.reverse else none

/-- What the primitives promise: both sides agree on a secret, public keys are uncompressed points,
`hkdf.Key` is the two parts of HKDF, keys have the length that was asked for, and a record sealed
with keys of the right lengths has a tag of 16 bytes and opens. -/
structure Primitives.Lawful (P : Primitives)
    (openRecord : (key nonce sealed : Bytes) → Option Bytes) : Prop where
  publicKey : ∀ k, (P.publicKey k).length = 65
  ecdh : ∀ a b, ∃ secret, P.ecdh a (P.publicKey b) = some secret ∧
    P.ecdh b (P.publicKey a) = some secret
  hkdfKey : ∀ secret salt info n, P.hkdfKey secret salt info n =
    (P.hkdfExtract secret salt).bind fun key => P.hkdfExpand key info n
  hkdfExtract : ∀ secret salt, ∃ key, P.hkdfExtract secret salt = some key
  hkdfExpand : ∀ key info n, n ≤ 32 → ∃ out, P.hkdfExpand key info n = some out ∧ out.length = n
  sealRecord : ∀ key nonce record, key.length = 16 → nonce.length = 12 →
    ∃ out, P.sealRecord key nonce record = some out ∧ out.length = record.length + 16 ∧
      openRecord key nonce out = some record

variable {P : Primitives} {openRecord : (key nonce sealed : Bytes) → Option Bytes}

theorem Primitives.Lawful.receiverKeys (hP : P.Lawful openRecord)
    (ecdhSecret authSecret uaPublic asPublic salt : Bytes) :
    ∃ cek nonce, WebPush.receiverKeys P ecdhSecret authSecret uaPublic asPublic salt =
      some (cek, nonce) ∧ cek.length = 16 ∧ nonce.length = 12 := by
  obtain ⟨prkKey, hprkKey⟩ := hP.hkdfExtract ecdhSecret authSecret
  obtain ⟨ikm, hikm, -⟩ := hP.hkdfExpand prkKey
    (Bytes.ofString "WebPush: info" ++ 0 :: (uaPublic ++ asPublic)) 32 (le_refl _)
  obtain ⟨prk, hprk⟩ := hP.hkdfExtract ikm salt
  obtain ⟨cek, hcek, hkey⟩ :=
    hP.hkdfExpand prk (Bytes.ofString "Content-Encoding: aes128gcm" ++ [0]) 16 (by decide)
  obtain ⟨nonce, hnonce, hlen⟩ :=
    hP.hkdfExpand prk (Bytes.ofString "Content-Encoding: nonce" ++ [0]) 12 (by decide)
  refine ⟨cek, nonce, ?_, hkey, hlen⟩
  simp only [WebPush.receiverKeys, hprkKey, hikm, hprk, hcek, hnonce, Option.bind_eq_bind,
    Option.bind_some]

end Bridge.WebPush
