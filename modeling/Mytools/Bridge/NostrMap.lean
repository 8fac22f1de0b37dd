import Mytools.Bridge.Store
import Mytools.Lib.Text

/-!
# Source records as Nostr events (`source/model.go`, `nostrmap`)

The provider-neutral post, the key that is derived for its author, and the signed event that the
bridge makes of the post. Texts are compared and searched by their characters.
-/

namespace Bridge

open Lib

/-! ## Texts -/

/-- `strings.TrimSpace` leaves nothing of the text. -/
def blank (s : String) : Bool := s.toList.all isSpace

/-- `strings.Contains` -/
def contains (s sub : String) : Bool := sub.toList <:+: s.toList

/-! ## Source records -/

structure ActorIdentity where
  provider : String
  id : String
  deriving DecidableEq, Repr

structure Attachment where
  url : String
  mimeType : String := ""
  description : String := ""
  blurhash : String := ""
  width : Int := 0
  height : Int := 0
  deriving DecidableEq, Repr

structure Link where
  url : String
  deriving DecidableEq, Repr

structure Post where
  id : String
  author : ActorIdentity
  sourceURL : String
  text : String
  replyToID : String := ""
  contentWarning : String := ""
  /-- Nanoseconds since the epoch. -/
  createdAt : Int
  attachments : List Attachment := []
  links : List Link := []
  deriving DecidableEq, Repr

/-! ## Keys -/

inductive MapErr
  | emptySeed
  | emptyProvider
  | emptyActorID
  | invalidKey
  | sign
  deriving DecidableEq, Repr

variable (N : Nostr.Library)

/-- The key that is derived for an actor, before it is checked. -/
def actorKey (masterSeed : List UInt8) (identity : ActorIdentity) : Nostr.SecretKey :=
  N.hkdf masterSeed ("nostr-bridge/" ++ identity.provider ++ "\x00" ++ identity.id)

def deriveActorKey (masterSeed : List UInt8) (identity : ActorIdentity) :
    Except MapErr Nostr.SecretKey := do
  require (masterSeed ≠ []) .emptySeed
  require (blank identity.provider = false) .emptyProvider
  require (blank identity.id = false) .emptyActorID
  let key := actorKey N masterSeed identity
  require (N.publicKey key ≠ Nostr.zeroPK) .invalidKey
  pure key

/-- The key of a Bluesky DID. -/
def deriveKey (masterSeed : List UInt8) (did : String) : Except MapErr Nostr.SecretKey :=
  deriveActorKey N masterSeed ⟨"bluesky", did⟩

/-! ## Events -/

/-- The tags and the content of an event while its links and attachments are added. -/
structure Draft where
  tags : List (List String)
  content : String
  /-- The URLs met so far in the current loop. -/
  seen : List String := []
  /-- The URLs that have an `r` tag. -/
  rTags : List String := []
  /-- How many URLs the current loop has put into the content. -/
  appended : Nat := 0
  deriving DecidableEq, Repr

/-- The URL goes on a new line, or after an empty line if it is the first one. -/
def Draft.appendURL (d : Draft) (url : String) : Draft :=
  let separator := if 0 < d.appended then "\n" else if d.content ≠ "" then "\n\n" else ""
  { d with content := d.content ++ separator ++ url, appended := d.appended + 1 }

def Draft.addLink (d : Draft) (link : Link) : Draft :=
  if link.url = "" ∨ link.url ∈ d.seen then d
  else
    let d := { d with seen := link.url :: d.seen }
    let d :=
      if link.url ∈ d.rTags then d
      else { d with tags := d.tags ++ [["r", link.url]], rTags := link.url :: d.rTags }
    if contains d.content link.url then d else d.appendURL link.url

/-- The `imeta` tag of an attachment. -/
def imeta (a : Attachment) : List String :=
  ["imeta", "url " ++ a.url] ++
    (if a.mimeType ≠ "" then ["m " ++ a.mimeType] else []) ++
    (if a.description ≠ "" then ["alt " ++ a.description] else []) ++
    (if a.blurhash ≠ "" then ["blurhash " ++ a.blurhash] else []) ++
    (if a.width > 0 ∧ a.height > 0 then
      ["dim " ++ toString a.width ++ "x" ++ toString a.height] else [])

def Draft.addAttachment (d : Draft) (a : Attachment) : Draft :=
  if a.url = "" ∨ a.url ∈ d.seen then d
  else
    let d := { d with seen := a.url :: d.seen }
    let d := d.appendURL a.url
    { d with tags := d.tags ++ [imeta a] }

/-- The tags and the content of a post; `parents` are the mapped parents by their source IDs. -/
def postDraft (post : Post) (parents : List (String × Nostr.Event)) : Draft :=
  let tags := [["r", post.sourceURL]] ++
    (if post.contentWarning ≠ "" then [["content-warning", post.contentWarning]] else []) ++
    (match parents.lookup post.replyToID with
      | some parent =>
        if post.replyToID ≠ "" then [["e", parent.id, "", "reply"], ["p", parent.pubKey]] else []
      | none => [])
  let d : Draft := { tags, content := post.text, rTags := [post.sourceURL] }
  let d := post.links.foldl Draft.addLink d
  post.attachments.foldl Draft.addAttachment { d with seen := [], appended := 0 }

def signedEvent (key : Nostr.SecretKey) (e : Nostr.Event) : Except MapErr Nostr.Event :=
  match N.sign key e with
  | none => .error .sign
  | some e => .ok e

/-- The event of a post, not signed yet. -/
def unsignedPost (post : Post) (parents : List (String × Nostr.Event)) : Nostr.Event where
  createdAt := unix post.createdAt
  kind := 1
  tags := (postDraft post parents).tags
  content := (postDraft post parents).content

def postEvent (masterSeed : List UInt8) (post : Post) (parents : List (String × Nostr.Event)) :
    Except MapErr Nostr.Event := do
  let key ← deriveActorKey N masterSeed post.author
  signedEvent N key (unsignedPost post parents)

/-- The deletion of an event, signed at `now`. -/
def deletionOf (id : String) (reason : String) (now : Int) : Nostr.Event where
  createdAt := unix now
  kind := 5
  tags := [["e", id]]
  content := reason

/-- The publication of a payload by its author. -/
def publishRequest (author payload : String) (now : Int) : OutboxRequest where
  aggregateKey := author
  operation := .publishEvent
  pubKey := author
  payload
  availableAt := now

end Bridge
