import Mytools.Bridge.NostrPlain
import Mytools.Bridge.Proof.Publish
import Mytools.Lib.Distinct

/-!
# Nothing of a post is lost in its event

The two loops of `PostEvent` share the growing content. Each takes the first link or attachment
under every URL (`Lib.distinctBy`), so the tags of the event and the URLs that are appended to its
content are lists of those.
-/

namespace Bridge

open Lib

/-! ## Content -/

/-- The URLs on lines of their own after the content, with an empty line in between. -/
def lines (content : String) : List String → String
  | [] => content
  | url :: urls => content ++ (if content ≠ "" then "\n\n" else "") ++ url ++
      String.join (urls.map ("\n" ++ ·))

/-- The content after the URLs were appended, if `appended` URLs were before. -/
def addURLs (content : String) : (appended : Nat) → List String → String
  | 0, urls => lines content urls
  | _ + 1, urls => content ++ String.join (urls.map ("\n" ++ ·))

theorem addURLs_nil (content : String) (n : Nat) : addURLs content n [] = content := by
  cases n <;> simp [addURLs, lines]

theorem addURLs_cons (d : Draft) (url : String) (urls : List String) :
    addURLs d.content d.appended (url :: urls) =
      addURLs (d.appendURL url).content (d.appendURL url).appended urls := by
  cases h : d.appended <;> simp [addURLs, lines, Draft.appendURL, h, String.append_assoc]

theorem addURLs_grows (content : String) (n : Nat) (urls : List String) :
    ∃ rest, addURLs content n urls = content ++ rest := by
  cases n with
  | zero =>
    cases urls with
    | nil => exact ⟨"", by simp [addURLs, lines]⟩
    | cons url urls =>
      refine ⟨(if content ≠ "" then "\n\n" else "") ++ url ++
        String.join (urls.map ("\n" ++ ·)), ?_⟩
      simp only [addURLs, lines, String.append_assoc]
  | succ n => exact ⟨_, rfl⟩

/-- The text is a part of the content. -/
def Within (text content : String) : Prop := ∃ before after, content = before ++ text ++ after

theorem Within.append {text content : String} (h : Within text content) (rest : String) :
    Within text (content ++ rest) := by
  obtain ⟨before, after, rfl⟩ := h
  exact ⟨before, after ++ rest, by simp only [String.append_assoc]⟩

theorem within_of_contains {text content : String} (h : contains content text = true) :
    Within text content := by
  obtain ⟨before, after, h⟩ := of_decide_eq_true h
  refine ⟨String.ofList before, String.ofList after, ?_⟩
  rw [← String.toList_inj, ← h]
  simp

theorem within_appendURL (d : Draft) (url : String) : Within url (d.appendURL url).content :=
  ⟨_, "", by rw [String.append_empty]; rfl⟩

/-- Every URL that is appended is there. -/
theorem within_addURLs {url : String} : ∀ {urls : List String} (d : Draft), url ∈ urls →
    Within url (addURLs d.content d.appended urls)
  | u :: urls, d, h => by
    rw [addURLs_cons]
    rcases List.mem_cons.1 h with rfl | h
    · obtain ⟨rest, hrest⟩ :=
        addURLs_grows (d.appendURL url).content (d.appendURL url).appended urls
      rw [hrest]
      exact (within_appendURL d url).append rest
    · exact within_addURLs _ h

/-! ## Links -/

theorem Draft.addLink_skip {d : Draft} {link : Link} (h : link.url ∈ d.seen ++ [""]) :
    d.addLink link = d := by
  rw [List.mem_append, List.mem_singleton] at h
  rw [Draft.addLink, if_pos h.symm]

/-- A link with a URL that was not met before. -/
structure Draft.LinkAdded (d : Draft) (link : Link) (d' : Draft) : Prop where
  seen : d'.seen = link.url :: d.seen
  rTags : d'.rTags = if link.url ∈ d.rTags then d.rTags else link.url :: d.rTags
  tags : d'.tags = d.tags ++ if link.url ∈ d.rTags then [] else [["r", link.url]]
  content : (Within link.url d.content ∧ d'.content = d.content ∧ d'.appended = d.appended) ∨
    d'.content = (d.appendURL link.url).content ∧ d'.appended = (d.appendURL link.url).appended

theorem Draft.addLink_added {d : Draft} {link : Link} (h : link.url ∉ d.seen ++ [""]) :
    d.LinkAdded link (d.addLink link) := by
  rw [List.mem_append, List.mem_singleton] at h
  -- the tag goes first and leaves the content alone
  have htag : (if link.url ∈ d.rTags then { d with seen := link.url :: d.seen }
      else { d with
        seen := link.url :: d.seen
        tags := d.tags ++ [["r", link.url]]
        rTags := link.url :: d.rTags }) = { d with
      seen := link.url :: d.seen
      tags := d.tags ++ if link.url ∈ d.rTags then [] else [["r", link.url]]
      rTags := if link.url ∈ d.rTags then d.rTags else link.url :: d.rTags } := by
    split <;> simp
  simp only [Draft.addLink, if_neg fun h' => h (Or.symm h'), htag]
  split
  · rename_i hc
    exact ⟨rfl, rfl, rfl, .inl ⟨within_of_contains hc, rfl, rfl⟩⟩
  · exact ⟨rfl, rfl, rfl, .inr ⟨rfl, rfl⟩⟩

/-- The URLs that were met are among those with an `r` tag. -/
theorem Draft.LinkAdded.subset {d d' : Draft} {link : Link} (h : d.LinkAdded link d')
    (hsub : d.seen ⊆ d.rTags) : d'.seen ⊆ d'.rTags := by
  rw [h.seen, h.rTags]
  split
  · exact List.cons_subset.2 ⟨‹_›, hsub⟩
  · exact List.cons_subset_cons _ hsub

theorem foldl_addLink_tags : ∀ (links : List Link) (d : Draft), d.seen ⊆ d.rTags →
    (links.foldl Draft.addLink d).tags =
      d.tags ++ (distinctBy Link.url (d.rTags ++ [""]) links).map fun l => ["r", l.url]
  | [], d, _ => by simp [distinctBy]
  | link :: links, d, hsub => by
    rw [List.foldl_cons]
    by_cases hs : link.url ∈ d.seen ++ [""]
    · have hr : link.url ∈ d.rTags ++ [""] :=
        List.mem_append.2 ((List.mem_append.1 hs).imp_left fun h => hsub h)
      rw [Draft.addLink_skip hs, foldl_addLink_tags links d hsub, distinctBy, if_pos hr]
    · have ha := Draft.addLink_added hs
      rw [foldl_addLink_tags links _ (ha.subset hsub), ha.tags, ha.rTags]
      by_cases hr : link.url ∈ d.rTags
      · rw [if_pos hr, if_pos hr, List.append_nil, distinctBy, if_pos (List.mem_append_left _ hr)]
      · have hr' : link.url ∉ d.rTags ++ [""] := by
          intro h
          exact (List.mem_append.1 h).elim hr fun h => hs (List.mem_append_right _ h)
        rw [if_neg hr, if_neg hr, distinctBy, if_neg hr', List.append_assoc]
        rfl

/-- Some of the URLs are appended, and all of them are there. -/
theorem foldl_addLink_content : ∀ (links : List Link) (d : Draft),
    ∃ urls : List String, urls.Sublist ((distinctBy Link.url (d.seen ++ [""]) links).map (·.url)) ∧
      (links.foldl Draft.addLink d).content = addURLs d.content d.appended urls ∧
      ∀ l ∈ distinctBy Link.url (d.seen ++ [""]) links,
        Within l.url (links.foldl Draft.addLink d).content
  | [], d => ⟨[], .slnil, (addURLs_nil _ _).symm, by simp [distinctBy]⟩
  | link :: links, d => by
    rw [List.foldl_cons, distinctBy]
    by_cases hs : link.url ∈ d.seen ++ [""]
    · rw [if_pos hs, Draft.addLink_skip hs]
      exact foldl_addLink_content links d
    · have ha := Draft.addLink_added hs
      obtain ⟨urls, hsub, hcontent, hwithin⟩ := foldl_addLink_content links (d.addLink link)
      rw [ha.seen] at hsub hwithin
      rw [if_neg hs]
      rcases ha.content with ⟨hin, hc, hn⟩ | ⟨hc, hn⟩
      · rw [hc, hn] at hcontent
        refine ⟨urls, hsub.cons _, hcontent, List.forall_mem_cons.2 ⟨?_, hwithin⟩⟩
        obtain ⟨rest, hrest⟩ := addURLs_grows d.content d.appended urls
        rw [hcontent, hrest]
        exact hin.append rest
      · rw [hc, hn, ← addURLs_cons] at hcontent
        refine ⟨link.url :: urls, hsub.cons_cons _, hcontent, List.forall_mem_cons.2 ⟨?_, hwithin⟩⟩
        rw [hcontent]
        exact within_addURLs d List.mem_cons_self

/-! ## Attachments -/

theorem foldl_addAttachment : ∀ (as : List Attachment) (d : Draft),
    (as.foldl Draft.addAttachment d).tags =
        d.tags ++ (distinctBy Attachment.url (d.seen ++ [""]) as).map imeta ∧
      (as.foldl Draft.addAttachment d).content =
        addURLs d.content d.appended ((distinctBy Attachment.url (d.seen ++ [""]) as).map (·.url))
  | [], d => ⟨by simp [distinctBy], (addURLs_nil _ _).symm⟩
  | a :: as, d => by
    rw [List.foldl_cons, distinctBy]
    by_cases hs : a.url ∈ d.seen ++ [""]
    · have hskip : d.addAttachment a = d := by
        rw [List.mem_append, List.mem_singleton] at hs
        rw [Draft.addAttachment, if_pos hs.symm]
      rw [if_pos hs, hskip]
      exact foldl_addAttachment as d
    · have hadd : d.addAttachment a = { d with
          seen := a.url :: d.seen
          content := (d.appendURL a.url).content
          appended := (d.appendURL a.url).appended
          tags := d.tags ++ [imeta a] } := by
        rw [List.mem_append, List.mem_singleton] at hs
        rw [Draft.addAttachment, if_neg fun h => hs h.symm]
        rfl
      obtain ⟨htags, hcontent⟩ := foldl_addAttachment as (d.addAttachment a)
      rw [if_neg hs, htags, hcontent, hadd, List.map_cons, List.map_cons, addURLs_cons]
      exact ⟨by rw [List.append_assoc]; rfl, rfl⟩

/-! ## Events -/

/-- The tags with a name. -/
def tagsNamed (name : String) (tags : List (List String)) : List (List String) :=
  tags.filter fun tag => tag.head? = some name

/-- What is known of an attachment besides its URL, by name. -/
def Attachment.known (a : Attachment) : List (String × String) :=
  [("m", a.mimeType), ("alt", a.description), ("blurhash", a.blurhash),
    ("dim", if 0 < a.width ∧ 0 < a.height then toString a.width ++ "x" ++ toString a.height
      else "")].filter (·.2 ≠ "")

/-- The text of an entry of a tag. -/
def entryText (entry : String × String) : String := entry.1 ++ " " ++ entry.2

/-- The event of a post has all of it. -/
structure Complete (post : Post) (parents : List (String × Nostr.Event)) (e : Nostr.Event) :
    Prop where
  text : ∃ rest, e.content = post.text ++ rest
  link : ∀ l ∈ post.links, l.url ≠ "" → Within l.url e.content
  attachment : ∀ a ∈ post.attachments, a.url ≠ "" → Within a.url e.content
  /-- Every attachment is appended once, after the text and the links that were not in it. -/
  content : ∃ urls : List String,
    urls.Sublist ((distinctBy Link.url [""] post.links).map (·.url)) ∧
    e.content = lines (lines post.text urls)
      ((distinctBy Attachment.url [""] post.attachments).map (·.url))
  rTags : tagsNamed "r" e.tags =
    ["r", post.sourceURL] ::
      (distinctBy Link.url [post.sourceURL, ""] post.links).map fun l => ["r", l.url]
  /-- One tag for each URL, which it names before whatever else is known of the attachment. -/
  imetaTags : tagsNamed "imeta" e.tags =
    (distinctBy Attachment.url [""] post.attachments).map fun a =>
      ["imeta", "url " ++ a.url] ++ a.known.map entryText
  reply : ∀ parent, post.replyToID ≠ "" → parents.lookup post.replyToID = some parent →
    tagsNamed "e" e.tags = [["e", parent.id, "", "reply"]] ∧
      tagsNamed "p" e.tags = [["p", parent.pubKey]]
  noReply : post.replyToID = "" ∨ parents.lookup post.replyToID = none →
    tagsNamed "e" e.tags = [] ∧ tagsNamed "p" e.tags = []

theorem known_cons (name value : String) (rest : List (String × String)) :
    (((name, value) :: rest).filter (·.2 ≠ "")).map entryText =
      (if value ≠ "" then [name ++ " " ++ value] else []) ++
        (rest.filter (·.2 ≠ "")).map entryText := by
  by_cases h : value = "" <;> simp [h, entryText]

theorem imeta_eq (a : Attachment) :
    imeta a = ["imeta", "url " ++ a.url] ++ a.known.map entryText := by
  rw [Attachment.known, known_cons, known_cons, known_cons, known_cons]
  by_cases hdim : 0 < a.width ∧ 0 < a.height <;> simp [imeta, hdim, String.append_assoc]

theorem tagsNamed_append (name : String) (l l' : List (List String)) :
    tagsNamed name (l ++ l') = tagsNamed name l ++ tagsNamed name l' :=
  List.filter_append _ _

theorem tagsNamed_map {α : Type} {f : α → List String} {m : String}
    (hf : ∀ x, (f x).head? = some m) (name : String) (l : List α) :
    tagsNamed name (l.map f) = if m = name then l.map f else [] := by
  unfold tagsNamed
  split
  · rename_i h
    rw [List.filter_eq_self]
    intro tag ht
    obtain ⟨x, -, rfl⟩ := List.mem_map.1 ht
    rw [hf, h, decide_eq_true rfl]
  · rename_i h
    rw [List.filter_eq_nil_iff]
    intro tag ht
    obtain ⟨x, -, rfl⟩ := List.mem_map.1 ht
    simpa [hf] using h

/-- The tags that link a reply. -/
def replyTags (post : Post) (parents : List (String × Nostr.Event)) : List (List String) :=
  match parents.lookup post.replyToID with
  | some parent =>
    if post.replyToID ≠ "" then [["e", parent.id, "", "reply"], ["p", parent.pubKey]] else []
  | none => []

theorem replyTags_known {post : Post} {parents : List (String × Nostr.Event)} {parent : Nostr.Event}
    (hne : post.replyToID ≠ "") (h : parents.lookup post.replyToID = some parent) :
    replyTags post parents = [["e", parent.id, "", "reply"], ["p", parent.pubKey]] := by
  simp only [replyTags, h, if_pos hne]

theorem replyTags_unknown {post : Post} {parents : List (String × Nostr.Event)}
    (h : post.replyToID = "" ∨ parents.lookup post.replyToID = none) :
    replyTags post parents = [] := by
  unfold replyTags
  rcases h with h | h
  · split <;> simp [h]
  · simp [h]

/-- The tags that are there before the links. -/
def headTags (post : Post) (parents : List (String × Nostr.Event)) : List (List String) :=
  [["r", post.sourceURL]] ++
    (if post.contentWarning ≠ "" then [["content-warning", post.contentWarning]] else []) ++
    replyTags post parents

theorem postDraft_tags (post : Post) (parents : List (String × Nostr.Event)) :
    (postDraft post parents).tags = headTags post parents ++
      ((distinctBy Link.url [post.sourceURL, ""] post.links).map fun l => ["r", l.url]) ++
      (distinctBy Attachment.url [""] post.attachments).map imeta := by
  have h := foldl_addLink_tags post.links
    { tags := headTags post parents, content := post.text, rTags := [post.sourceURL] }
    (List.nil_subset _)
  exact (foldl_addAttachment post.attachments _).1.trans (congrArg (· ++ _) h)

theorem postDraft_content (post : Post) (parents : List (String × Nostr.Event)) :
    ∃ urls : List String, urls.Sublist ((distinctBy Link.url [""] post.links).map (·.url)) ∧
      (∀ l ∈ distinctBy Link.url [""] post.links, Within l.url (lines post.text urls)) ∧
      (postDraft post parents).content = lines (lines post.text urls)
        ((distinctBy Attachment.url [""] post.attachments).map (·.url)) := by
  obtain ⟨urls, hsub, hcontent, hwithin⟩ := foldl_addLink_content post.links
    { tags := headTags post parents, content := post.text, rTags := [post.sourceURL] }
  rw [hcontent] at hwithin
  refine ⟨urls, hsub, hwithin, ?_⟩
  have h := (foldl_addAttachment post.attachments
    { post.links.foldl Draft.addLink
        { tags := headTags post parents, content := post.text, rTags := [post.sourceURL] } with
      seen := [], appended := 0 }).2
  rw [hcontent] at h
  exact h

/-- The tags of a post that have a name. -/
theorem tagsNamed_postDraft (post : Post) (parents : List (String × Nostr.Event)) (name : String) :
    tagsNamed name (postDraft post parents).tags =
      tagsNamed name (headTags post parents) ++
        (if "r" = name then
          (distinctBy Link.url [post.sourceURL, ""] post.links).map fun l => ["r", l.url]
        else []) ++
        (if "imeta" = name then (distinctBy Attachment.url [""] post.attachments).map imeta
        else []) := by
  rw [postDraft_tags, tagsNamed_append, tagsNamed_append, tagsNamed_map (m := "r") (fun _ => rfl),
    tagsNamed_map (m := "imeta") fun _ => rfl]

theorem tagsNamed_headTags (post : Post) (parents : List (String × Nostr.Event)) (name : String)
    (hname : name ≠ "content-warning") :
    tagsNamed name (headTags post parents) =
      tagsNamed name [["r", post.sourceURL]] ++ tagsNamed name (replyTags post parents) := by
  have hcw : tagsNamed name (if post.contentWarning ≠ "" then
      [["content-warning", post.contentWarning]] else []) = [] := by
    split <;> simp [tagsNamed, hname.symm]
  rw [headTags, tagsNamed_append, tagsNamed_append, hcw, List.append_nil]

/-- A reply has no tags of another name. -/
theorem tagsNamed_replyTags (post : Post) (parents : List (String × Nostr.Event)) {name : String}
    (he : name ≠ "e") (hp : name ≠ "p") : tagsNamed name (replyTags post parents) = [] := by
  unfold replyTags
  split
  · split <;> simp [tagsNamed, he.symm, hp.symm]
  · rfl

theorem complete_of_draft {post : Post} {parents : List (String × Nostr.Event)} {e : Nostr.Event}
    (htags : e.tags = (postDraft post parents).tags)
    (hcontent : e.content = (postDraft post parents).content) : Complete post parents e := by
  obtain ⟨urls, hsub, hlinks, hlines⟩ := postDraft_content post parents
  rw [hlines] at hcontent
  obtain ⟨rest, hrest⟩ := addURLs_grows post.text 0 urls
  obtain ⟨rest', hrest'⟩ := addURLs_grows (lines post.text urls) 0
    ((distinctBy Attachment.url [""] post.attachments).map (·.url))
  have hgrown : e.content = lines post.text urls ++ rest' := hcontent.trans hrest'
  have hnamed : ∀ name, tagsNamed name e.tags = _ := fun name =>
    htags ▸ tagsNamed_postDraft post parents name
  constructor
  case text =>
    exact ⟨rest ++ rest', by rw [← String.append_assoc, ← hrest]; exact hgrown⟩
  case link =>
    intro l hl hne
    obtain ⟨l', hl', hurl⟩ := exists_distinctBy Link.url [""] hl (by simpa using hne)
    rw [← hurl, hgrown]
    exact (hlinks l' hl').append rest'
  case attachment =>
    intro a ha hne
    obtain ⟨a', ha', hurl⟩ := exists_distinctBy Attachment.url [""] ha (by simpa using hne)
    rw [← hurl, hcontent]
    exact within_addURLs { tags := [], content := lines post.text urls } (List.mem_map_of_mem ha')
  case content => exact ⟨urls, hsub, hcontent⟩
  case rTags =>
    rw [hnamed, tagsNamed_headTags _ _ _ (by decide),
      tagsNamed_replyTags _ _ (by decide) (by decide)]
    simp [tagsNamed]
  case imetaTags =>
    rw [hnamed, tagsNamed_headTags _ _ _ (by decide),
      tagsNamed_replyTags _ _ (by decide) (by decide)]
    simp [tagsNamed, imeta_eq]
  case reply =>
    intro parent hne hparent
    rw [hnamed, hnamed, tagsNamed_headTags _ _ _ (by decide), tagsNamed_headTags _ _ _ (by decide),
      replyTags_known hne hparent]
    simp [tagsNamed]
  case noReply =>
    intro h
    rw [hnamed, hnamed, tagsNamed_headTags _ _ _ (by decide), tagsNamed_headTags _ _ _ (by decide),
      replyTags_unknown h]
    simp [tagsNamed]

/-- The event that `PostEvent` returns has all of the post. -/
theorem postEvent_complete {N : Nostr.Library} {masterSeed : List UInt8} {post : Post}
    {parents : List (String × Nostr.Event)} {e : Nostr.Event}
    (h : postEvent N masterSeed post parents = .ok e) : Complete post parents e := by
  obtain ⟨-, -, -, htags, hcontent, -⟩ := Nostr.Library.sign_eq_some (postEvent_ok h)
  exact complete_of_draft htags hcontent

/-- A post with a link that is in its text, one that is not, and an attachment that is also
linked. -/
def linkedPost : Post where
  id := "1"
  author := ⟨"mastodon", "alice"⟩
  sourceURL := "https://a.example/1"
  text := "see https://b.example"
  createdAt := 0
  attachments := [{ url := "https://c.example", mimeType := "image/png", width := 3, height := 2 },
    { url := "https://d.example" }, { url := "https://c.example" }]
  links := [⟨"https://b.example"⟩, ⟨"https://c.example"⟩, ⟨""⟩]

theorem postEvent_complete_linked :
    ∃ e, postEvent Nostr.Library.plain [1] linkedPost [] = .ok e ∧ Complete linkedPost [] e ∧
      tagsNamed "imeta" e.tags =
        [["imeta", "url https://c.example", "m image/png", "dim 3x2"],
          ["imeta", "url https://d.example"]] := by
  obtain ⟨e, he⟩ : ∃ e, postEvent Nostr.Library.plain [1] linkedPost [] = .ok e :=
    postEvent_total Nostr.Library.plain_sound (by decide) (by decide) (by decide)
  have hcomplete := postEvent_complete he
  refine ⟨e, he, hcomplete, ?_⟩
  rw [hcomplete.imetaTags]
  decide +kernel

end Bridge
