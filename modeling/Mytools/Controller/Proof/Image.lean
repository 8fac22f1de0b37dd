import Mytools.Controller.Webhook.Inject

/-!
# Resolved images

An image is put together as `repository[:tag]@digest` and taken apart by the last `@`, the first
`@`, the last `:` and the last `/`. The tag and the digest hold none of the separators that are
looked for behind them, so each part is found again where it was put: `Composed` says what is known
of the parts when `resolveImage` joins them.
-/

namespace Controller.Webhook

open Lib V1alpha1

/-! ## The characters of tags and digests -/

theorem not_mem_digest {digest : String} (h : matchesImageDigest digest = true) :
    '@' ∉ digest.toList := by
  unfold matchesImageDigest at h
  simp only [Bool.and_eq_true, List.all_eq_true] at h
  obtain ⟨⟨hpre, -⟩, hhex⟩ := h
  obtain ⟨rest, hrest⟩ := hasPrefix_iff.1 hpre
  have hdrop : digest.toList.drop 7 = rest := by
    rw [← hrest]
    rfl
  rw [← hrest]
  intro hm
  rcases List.mem_append.1 hm with hm | hm
  · exact absurd hm (by decide)
  · exact absurd (hhex '@' (hdrop ▸ hm)) (by decide)

/-- A tag has no character but those of its pattern. -/
theorem not_mem_tag {tag : String} {c : Char} (h : matchesImageTag tag = true)
    (hc : (c.isAlphanum || c == '_' || c == '.' || c == '-') = false) : c ∉ tag.toList := by
  unfold matchesImageTag at h
  split at h
  · next x xs hx =>
    simp only [Bool.and_eq_true, List.all_eq_true] at h
    obtain ⟨⟨hfirst, -⟩, hrest⟩ := h
    rw [hx]
    intro hm
    rcases List.mem_cons.1 hm with rfl | hm
    · simp_all
    · rw [hrest c hm] at hc
      cases hc
  · cases h

/-! ## Taking an image apart -/

/-- The digest of a reference, as `ValidateImageReference` reads it. -/
def imageDigest (image : String) : String := afterLast image '@'

/-- The tag of a reference, as `ValidateImageReference` reads it. -/
def imageTag (image : String) : Option String :=
  let repository := beforeLast image '@'
  if repositoryHasTag repository then some (afterLast repository ':') else none

/-- The parts that `resolveImage` joins; an empty tag stands for none. -/
structure Composed (repository tag digest : String) : Prop where
  repository_ne : repository ≠ ""
  no_digest : '@' ∉ repository.toList
  no_tag : repositoryHasTag repository = false
  tag_ok : tag ≠ "" → matchesImageTag tag = true
  digest_ok : matchesImageDigest digest = true

/-- The reference without its digest. -/
def tagged (repository tag : String) : String :=
  if tag ≠ "" then repository ++ ":" ++ tag else repository

theorem toList_tagged (repository : String) {tag : String} (ht : tag ≠ "") :
    (tagged repository tag).toList = repository.toList ++ ':' :: tag.toList := by
  simp [tagged, ht]

theorem toList_image (name digest : String) :
    (name ++ "@" ++ digest).toList = name.toList ++ '@' :: digest.toList := by
  simp

namespace Composed

variable {repository tag digest : String} (h : Composed repository tag digest)
include h

theorem no_digest_tagged : '@' ∉ (tagged repository tag).toList := by
  unfold tagged
  split
  · next ht =>
    have htag : '@' ∉ tag.toList := not_mem_tag (h.tag_ok ht) rfl
    simp [h.no_digest, htag]
  · exact h.no_digest

theorem tagged_ne : tagged repository tag ≠ "" := by
  unfold tagged
  split
  · intro he
    have := congrArg String.toList he
    simp at this
  · exact h.repository_ne

/-- The colon before a tag comes after the last slash, wherever the registry has its port. -/
theorem hasTag_tagged (ht : tag ≠ "") : repositoryHasTag (tagged repository tag) = true := by
  have hl := toList_tagged repository ht
  have hslash : '/' ∉ ':' :: tag.toList := by
    simp [not_mem_tag (c := '/') (h.tag_ok ht) rfl]
  have hlt := lastIndex_lt hl hslash
  have hcolon := lastIndex_cut hl (not_mem_tag (h.tag_ok ht) rfl)
  rw [repositoryHasTag, hcolon]
  exact decide_eq_true hlt

theorem afterLast_tagged (ht : tag ≠ "") : afterLast (tagged repository tag) ':' = tag := by
  rw [afterLast_cut (toList_tagged repository ht) (not_mem_tag (h.tag_ok ht) rfl),
    String.ofList_toList]

theorem beforeLast_tagged (ht : tag ≠ "") :
    beforeLast (tagged repository tag) ':' = repository := by
  rw [beforeLast_cut (toList_tagged repository ht) (not_mem_tag (h.tag_ok ht) rfl),
    String.ofList_toList]

theorem hasTag_tagged_iff : repositoryHasTag (tagged repository tag) = true ↔ tag ≠ "" := by
  refine ⟨?_, h.hasTag_tagged⟩
  intro ht he
  rw [tagged, if_neg (by simpa using he), h.no_tag] at ht
  cases ht

theorem imageDigest_eq : imageDigest (tagged repository tag ++ "@" ++ digest) = digest := by
  rw [imageDigest, afterLast_cut (toList_image _ _) (not_mem_digest h.digest_ok),
    String.ofList_toList]

theorem beforeLast_eq :
    beforeLast (tagged repository tag ++ "@" ++ digest) '@' = tagged repository tag := by
  rw [beforeLast_cut (toList_image _ _) (not_mem_digest h.digest_ok), String.ofList_toList]

theorem imageTag_eq : imageTag (tagged repository tag ++ "@" ++ digest) =
    if tag = "" then none else some tag := by
  simp only [imageTag, h.beforeLast_eq, h.hasTag_tagged_iff]
  by_cases ht : tag = ""
  · simp [ht]
  · rw [if_pos ht, if_neg ht, h.afterLast_tagged ht]

/-- The first `@` of the whole reference, or none in the reference without its digest. -/
theorem imageRepository_of_takeWhile {image : String}
    (hi : image.toList.takeWhile (· ≠ '@') = (tagged repository tag).toList) :
    imageRepository image = repository := by
  rw [imageRepository, hi, String.ofList_toList]
  by_cases ht : tag = ""
  · have hname : tagged repository tag = repository := if_neg (by simpa using ht)
    rw [hname]
    exact if_neg (of_decide_eq_false h.no_tag)
  · rw [if_pos (of_decide_eq_true (h.hasTag_tagged ht)), h.beforeLast_tagged ht]

theorem takeWhile_tagged (rest : List Char) :
    ((tagged repository tag).toList ++ rest).takeWhile (· ≠ '@') =
      (tagged repository tag).toList ++ rest.takeWhile (· ≠ '@') := by
  apply List.takeWhile_append_of_pos
  intro c hc
  have hne : c ≠ '@' := fun he => h.no_digest_tagged (he ▸ hc)
  simpa using hne

theorem imageRepository_tagged : imageRepository (tagged repository tag) = repository := by
  apply h.imageRepository_of_takeWhile
  simpa using h.takeWhile_tagged []

theorem imageRepository_eq :
    imageRepository (tagged repository tag ++ "@" ++ digest) = repository := by
  apply h.imageRepository_of_takeWhile
  rw [toList_image, h.takeWhile_tagged]
  simp

theorem validate (P : Parsers) (hr : checkRepository P repository = .ok ()) :
    validateImageReference P (tagged repository tag ++ "@" ++ digest) = .ok () := by
  have hlen : 0 < (tagged repository tag).toList.length := by
    rw [List.length_pos_iff]
    intro he
    exact h.tagged_ne (String.toList_inj.1 he)
  have hindex : 0 < lastIndex (tagged repository tag ++ "@" ++ digest) '@' := by
    rw [lastIndex_cut (toList_image _ _) (not_mem_digest h.digest_ok)]
    omega
  have hdigest :
      matchesImageDigest (afterLast (tagged repository tag ++ "@" ++ digest) '@') = true := by
    have he := h.imageDigest_eq
    rw [imageDigest] at he
    rw [he]
    exact h.digest_ok
  have htag : repositoryHasTag (tagged repository tag) = true →
      matchesImageTag (afterLast (tagged repository tag) ':') = true := by
    intro ht
    have hne := h.hasTag_tagged_iff.1 ht
    rw [h.afterLast_tagged hne]
    exact h.tag_ok hne
  have hone : containsChar (tagged repository tag) '@' = false := by
    simpa [containsChar] using h.no_digest_tagged
  refine check_ok_iff.2 ⟨require_eq_ok.2 ⟨hindex, hdigest⟩, ?_⟩
  simp only [h.beforeLast_eq]
  refine check_ok_iff.2 ⟨require_eq_ok.2 hone, check_ok_iff.2 ⟨require_eq_ok.2 htag, ?_⟩⟩
  rw [h.imageRepository_tagged]
  exact hr

end Composed

/-! ## Resolution -/

variable {P : Parsers} {image : ImageSpec} {defaultImage result : String}

theorem validateDefaultImage_ok (h : validateDefaultImage P defaultImage = .ok ()) :
    validateImageReference P defaultImage = .ok () :=
  (check_ok_iff.1 h).2

/-- The repository of an override. -/
def requestedRepository (image : ImageSpec) (defaultImage : String) : String :=
  if image.repository = "" then imageRepository defaultImage else image.repository

theorem overrideRepository_ok {repository : String}
    (h : overrideRepository P image defaultImage = .ok repository) :
    repository = requestedRepository image defaultImage := by
  unfold overrideRepository at h
  unfold requestedRepository
  split at h
  · next he =>
    rw [if_pos he]
    exact (pure_ok_iff.1 (check_ok_iff.1 h).2).symm
  · next he =>
    rw [if_neg he]
    cases h
    rfl

/-- What a resolution found: the default image, or the parts of an override. -/
theorem resolveImage_ok (h : resolveImage P image defaultImage = .ok result) :
    (image.repository = "" ∧ image.tag = "" ∧ image.digest = "" ∧ result = defaultImage ∧
      validateImageReference P defaultImage = .ok ()) ∨
    (image.digest ≠ "" ∧
      Composed (requestedRepository image defaultImage) image.tag image.digest ∧
      checkRepository P (requestedRepository image defaultImage) = .ok () ∧
      result = tagged (requestedRepository image defaultImage) image.tag ++ "@" ++
        image.digest) := by
  unfold resolveImage at h
  split at h
  · next hnone =>
    obtain ⟨hv, hr⟩ := check_ok_iff.1 h
    exact .inl ⟨hnone.1, hnone.2.1, hnone.2.2, (pure_ok_iff.1 hr).symm, validateDefaultImage_ok hv⟩
  · obtain ⟨hd, h⟩ := check_ok_iff.1 h
    obtain ⟨hdigest, h⟩ := check_ok_iff.1 h
    obtain ⟨htag, h⟩ := check_ok_iff.1 h
    obtain ⟨repository, hrepo, h⟩ := bind_ok_iff.1 h
    obtain rfl := overrideRepository_ok hrepo
    obtain ⟨hname, h⟩ := check_ok_iff.1 h
    obtain ⟨hcheck, h⟩ := check_ok_iff.1 h
    obtain ⟨hne, hat, hno⟩ := require_eq_ok.1 hname
    refine .inr ⟨require_eq_ok.1 hd, ⟨hne, ?_, hno, require_eq_ok.1 htag, require_eq_ok.1 hdigest⟩,
      hcheck, (pure_ok_iff.1 h).symm⟩
    simpa [containsChar] using hat

/-- A resolved image is pinned by its digest, and its parts are those that were asked for. -/
theorem resolveImage_pinned (h : resolveImage P image defaultImage = .ok result) :
    validateImageReference P result = .ok () ∧
    (if image.repository = "" ∧ image.tag = "" ∧ image.digest = "" then result = defaultImage
      else (∃ name, result = name ++ "@" ++ image.digest) ∧ imageDigest result = image.digest ∧
        imageTag result = if image.tag = "" then none else some image.tag) ∧
    imageRepository result =
      if image.repository = "" then imageRepository defaultImage else image.repository := by
  obtain ⟨h1, h2, h3, rfl, hv⟩ | ⟨hd, hc, hr, rfl⟩ := resolveImage_ok h
  · refine ⟨hv, ?_, ?_⟩
    · rw [if_pos ⟨h1, h2, h3⟩]
    · rw [if_pos h1]
  · refine ⟨hc.validate P hr, ?_, hc.imageRepository_eq⟩
    rw [if_neg (fun hnone => hd hnone.2.2)]
    exact ⟨⟨_, rfl⟩, hc.imageDigest_eq, hc.imageTag_eq⟩

/-- An override with the port of a registry and a tag. -/
def pinnedImage : ImageSpec where
  repository := "localhost:5000/litestream"
  tag := "0.5"
  digest := "sha256:0123456789abcdef0123456789abcdef0123456789abcdef0123456789abcdef"

def pinnedReference : String :=
  "localhost:5000/litestream:0.5@" ++
    "sha256:0123456789abcdef0123456789abcdef0123456789abcdef0123456789abcdef"

theorem resolveImage_pinnedImage :
    resolveImage { Parsers.lenient with ip := fun _ => false } pinnedImage "" =
      .ok pinnedReference := by
  decide

theorem resolveImage_pinned_port : imageRepository pinnedReference = "localhost:5000/litestream" :=
  (resolveImage_pinned resolveImage_pinnedImage).2.2

end Controller.Webhook
