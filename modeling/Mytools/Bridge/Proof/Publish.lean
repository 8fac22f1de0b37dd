import Mytools.Bridge.NostrMap
import Mytools.Bridge.Proof.Effect

/-!
# Signed events pass the checks of the store

With a library that keeps what it documents (`Sound`), the key of an actor can be derived, a post
and a deletion can be signed with it, and the request that publishes the event passes
`validatePublishRequest` and `validateMappingEventID`.
-/

namespace Bridge

open Lib

variable {N : Nostr.Library} {seed : List UInt8} {identity : ActorIdentity} {key : Nostr.SecretKey}
  {e e' : Nostr.Event}

theorem signedEvent_ok : signedEvent N key e = .ok e' ↔ N.sign key e = some e' := by
  unfold signedEvent
  cases N.sign key e <;> simp

/-! ## Keys -/

theorem deriveActorKey_ok (h : deriveActorKey N seed identity = .ok key) :
    key = actorKey N seed identity := by
  simp only [deriveActorKey, check_ok_iff] at h
  obtain ⟨-, -, -, -, h⟩ := h
  exact (Except.ok.inj h).symm

theorem deriveActorKey_total (hN : N.Sound) (hs : seed ≠ []) (hp : blank identity.provider = false)
    (hi : blank identity.id = false) :
    deriveActorKey N seed identity = .ok (actorKey N seed identity) := by
  simp only [deriveActorKey, check_ok_iff, require_eq_ok]
  exact ⟨hs, hp, hi, hN.public_derived _ _, rfl⟩

theorem sign_actorKey (hN : N.Sound) (e : Nostr.Event) :
    ∃ e', N.sign (actorKey N seed identity) e = some e' :=
  hN.sign_derived _ _ e

/-! ## Events -/

theorem postEvent_ok {post : Post} {parents : List (String × Nostr.Event)}
    (h : postEvent N seed post parents = .ok e) :
    N.sign (actorKey N seed post.author) (unsignedPost post parents) = some e := by
  obtain ⟨key, hk, h⟩ := bind_ok_iff.1 h
  rw [deriveActorKey_ok hk] at h
  exact signedEvent_ok.1 h

theorem postEvent_total {post : Post} {parents : List (String × Nostr.Event)} (hN : N.Sound)
    (hs : seed ≠ []) (hp : blank post.author.provider = false) (hi : blank post.author.id = false) :
    ∃ e, postEvent N seed post parents = .ok e := by
  obtain ⟨e, he⟩ : ∃ e, N.sign (actorKey N seed post.author) (unsignedPost post parents) = some e :=
    sign_actorKey hN _
  exact ⟨e, bind_ok_iff.2 ⟨_, deriveActorKey_total hN hs hp hi, signedEvent_ok.2 he⟩⟩

/-! ## Requests -/

theorem validatePublishRequest_signed (hN : N.Sound) (h : N.sign key e = some e') (now : Int) :
    validatePublishRequest N (publishRequest (N.publicKey key) (N.marshal e') now) = .ok () := by
  have hs := Nostr.Library.sign_eq_some h
  refine check_ok_iff.2 ⟨require_eq_ok.2 rfl, check_ok_iff.2 ⟨require_eq_ok.2 ?_, ?_⟩⟩
  · exact ⟨hN.pubKeyFromHex_public key, rfl⟩
  · simp only [checkEventPayload, publishRequest, hN.unmarshal_sign h]
    refine check_ok_iff.2 ⟨require_eq_ok.2 ⟨?_, hN.verify_sign h⟩, require_eq_ok.2 hs.1⟩
    exact decide_eq_true hs.2.2.2.2.2

theorem validateMappingEventID_signed (hN : N.Sound) (h : N.sign key e = some e')
    {m : EventMapping} (hm : m.nostrEventID = e'.id) (author : String) (now : Int) :
    validateMappingEventID N m (publishRequest author (N.marshal e') now) = .ok () := by
  simp only [validateMappingEventID, publishRequest, hN.unmarshal_sign h]
  exact require_eq_ok.2 hm

end Bridge
