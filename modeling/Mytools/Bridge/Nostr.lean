/-!
# Nostr events

The part of the Nostr library that the bridge and the relay use. Identifiers, public keys and
signatures are their lower-case hexadecimal texts. `Library` holds the library's functions: the
event's hash, the codec, the signature scheme and the key derivation.
-/

namespace Nostr

/-- `nostr.Event` -/
structure Event where
  id : String := ""
  pubKey : String := ""
  createdAt : Int
  kind : Nat
  tags : List (List String) := []
  content : String := ""
  sig : String := ""
  deriving DecidableEq, Repr

abbrev SecretKey := List UInt8

/-- `nostr.ZeroPK` -/
def zeroPK : String := String.ofList (List.replicate 64 '0')

structure Library where
  /-- `PubKeyFromHex`, then `Hex`. -/
  pubKeyFromHex : String → Option String
  /-- `IDFromHex`, then `Hex`. -/
  idFromHex : String → Option String
  /-- `json.Unmarshal` into an event. -/
  unmarshal : String → Option Event
  /-- `json.Marshal` of an event. -/
  marshal : Event → String
  /-- `Event.GetID`: the hash of the author, the time, the kind, the tags and the content. -/
  hash : String → Int → Nat → List (List String) → String → String
  verifySignature : Event → Bool
  /-- `SecretKey.Public`. -/
  publicKey : SecretKey → String
  /-- The signature of an event ID, if the key is valid. -/
  signature : SecretKey → String → Option String
  /-- HKDF with SHA-256 of the seed and the info, 32 bytes. -/
  hkdf : List UInt8 → String → SecretKey
  /-- `Kind.IsReplaceable`. -/
  isReplaceable : Nat → Bool
  /-- `Kind.IsAddressable`. -/
  isAddressable : Nat → Bool
  /-- `Tags.GetD`. -/
  getD : List (List String) → String
  /-- `IsOlder previous event`. -/
  isOlder : Event → Event → Bool

namespace Library

variable (N : Library)

def getID (e : Event) : String := N.hash e.pubKey e.createdAt e.kind e.tags e.content

def checkID (e : Event) : Bool := e.id = N.getID e

/-- `Event.Sign` -/
def sign (key : SecretKey) (e : Event) : Option Event :=
  let e := { e with pubKey := N.publicKey key }
  let e := { e with id := N.getID e }
  (N.signature key e.id).map fun sig => { e with sig }

/-- What the library documents: a signed event verifies and survives its JSON text, keys and event
IDs have one hexadecimal form, a derived key is valid, and notes and deletions are regular
events. -/
structure Sound (N : Library) : Prop where
  verify_sign : ∀ {key e e'}, N.sign key e = some e' → N.verifySignature e' = true
  unmarshal_sign : ∀ {key e e'}, N.sign key e = some e' → N.unmarshal (N.marshal e') = some e'
  pubKeyFromHex_public : ∀ key, N.pubKeyFromHex (N.publicKey key) = some (N.publicKey key)
  idFromHex_unmarshal : ∀ {s e}, N.unmarshal s = some e → N.idFromHex e.id = some e.id
  public_derived : ∀ seed info, N.publicKey (N.hkdf seed info) ≠ zeroPK
  signature_derived : ∀ seed info id, (N.signature (N.hkdf seed info) id).isSome = true
  regular : ∀ kind, kind = 1 ∨ kind = 5 →
    N.isReplaceable kind = false ∧ N.isAddressable kind = false

/-- Events with one ID have the same author, time, kind, tags and content. -/
def CollisionFree (N : Library) : Prop :=
  ∀ e e' : Event, N.getID e = N.getID e' → e.pubKey = e'.pubKey ∧ e.createdAt = e'.createdAt ∧
    e.kind = e'.kind ∧ e.tags = e'.tags ∧ e.content = e'.content

variable {N}

theorem sign_eq_some {key : SecretKey} {e e' : Event} (h : N.sign key e = some e') :
    e'.pubKey = N.publicKey key ∧ e'.createdAt = e.createdAt ∧ e'.kind = e.kind ∧
      e'.tags = e.tags ∧ e'.content = e.content ∧ e'.id = N.getID e' := by
  obtain ⟨sig, -, rfl⟩ := Option.map_eq_some_iff.1 h
  exact ⟨rfl, rfl, rfl, rfl, rfl, rfl⟩

theorem Sound.sign_derived (hN : Sound N) (seed : List UInt8) (info : String) (e : Event) :
    ∃ e', N.sign (N.hkdf seed info) e = some e' := by
  obtain ⟨sig, hs⟩ := Option.isSome_iff_exists.1 (hN.signature_derived seed info
    (N.getID { e with pubKey := N.publicKey (N.hkdf seed info) }))
  exact ⟨_, Option.map_eq_some_iff.2 ⟨sig, hs, rfl⟩⟩

end Library

end Nostr
