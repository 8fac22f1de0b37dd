import Mathlib.Data.String.Basic
import Mytools.Bridge.Nostr
import Mytools.Lib.Wire

/-!
# A library without cryptography

`Library.plain` writes an event's ID and its text with the codecs of `Lib.Wire`, and a key as the
text it was derived from. It has every documented property (`plain_sound`, `plain_collisionFree`),
so that the statements about all such libraries are about something.
-/

namespace Nostr

open Lib

/-- What the ID of an event is made of. -/
def idWire : Wire (String × Int × Nat × List (List String) × String) :=
  Wire.string.pair (Wire.int.pair (Wire.nat.pair (Wire.string.list.list.pair Wire.string)))

def eventWire : Wire Event :=
  (Wire.string.pair (Wire.string.pair idWire)).via
    (fun e => (e.id, e.sig, e.pubKey, e.createdAt, e.kind, e.tags, e.content))
    (fun x => ⟨x.1, x.2.2.1, x.2.2.2.1, x.2.2.2.2.1, x.2.2.2.2.2.1, x.2.2.2.2.2.2, x.2.1⟩)
    fun _ => rfl

namespace Library

def plain : Library where
  pubKeyFromHex := some
  idFromHex := some
  unmarshal := eventWire.decode
  marshal := eventWire.encode
  hash pubKey createdAt kind tags content :=
    idWire.encode (pubKey, createdAt, kind, tags, content)
  verifySignature _ := true
  publicKey key := String.ofList ('k' :: key.map fun b => Char.ofNat b.toNat)
  signature _ _ := some ""
  hkdf _ info := info.toList.map fun c => UInt8.ofNat c.toNat
  isReplaceable kind := kind = 0 ∨ kind = 3 ∨ (10000 ≤ kind ∧ kind < 20000)
  isAddressable kind := 30000 ≤ kind ∧ kind < 40000
  getD tags := (tags.findSome? fun tag => if tag[0]? = some "d" then tag[1]? else none).getD ""
  isOlder previous event := previous.createdAt < event.createdAt ∨
    (previous.createdAt = event.createdAt ∧ event.id < previous.id)

theorem plain_unmarshal : plain.unmarshal = eventWire.decode := rfl

theorem plain_marshal : plain.marshal = eventWire.encode := rfl

theorem plain_publicKey_ne (key : SecretKey) : plain.publicKey key ≠ zeroPK := by
  intro h
  have hk : (plain.publicKey key).toList.head? = some 'k' := by
    rw [plain, String.toList_ofList, List.head?_cons]
  have hz : zeroPK.toList = List.replicate 64 '0' := String.toList_ofList
  rw [h, hz] at hk
  exact absurd (Option.some.inj hk) (by decide)

theorem plain_sound : Sound plain where
  verify_sign _ := rfl
  unmarshal_sign _ := by
    rw [plain_unmarshal, plain_marshal]
    exact eventWire.decode_encode _
  pubKeyFromHex_public _ := rfl
  idFromHex_unmarshal _ := rfl
  public_derived seed info h := plain_publicKey_ne _ h
  signature_derived _ _ _ := rfl
  regular := by rintro kind (rfl | rfl) <;> exact ⟨rfl, rfl⟩

theorem plain_collisionFree : CollisionFree plain := by
  intro e e' h
  have hp := idWire.encode_injective h
  simp only [Prod.mk.injEq] at hp
  exact hp

end Library

/-! ## Events of the library -/

/-- An event of a key, signed. -/
def plainEvent (pubKey : String) (kind : Nat) (tags : List (List String)) (content : String) :
    Event :=
  { id := Library.plain.hash pubKey 0 kind tags content, pubKey, createdAt := 0, kind, tags,
    content }

def plainNote (pubKey content : String) : Event := plainEvent pubKey 1 [] content

/-- The deletion of the events with these IDs. -/
def plainDeletion (pubKey : String) (ids : List String) : Event :=
  plainEvent pubKey 5 (ids.map fun id => ["e", id]) ""

def plainText (e : Event) : String := Library.plain.marshal e

theorem unmarshal_plainText (e : Event) : Library.plain.unmarshal (plainText e) = some e := by
  rw [plainText, Library.plain_unmarshal, Library.plain_marshal]
  exact eventWire.decode_encode e

end Nostr
