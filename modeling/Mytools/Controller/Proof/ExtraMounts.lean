import Mytools.Controller.Webhook.Inject
import Mytools.Lib.Rooted

/-!
# Extra mounts beside the generated ones

`checkExtraVolumeMounts` compares clean paths as texts. That finds every overlap of paths that are
taken from one directory and are not the root; of other pairs it says nothing
(`extraMounts_apart_iff`).
-/

namespace Controller.Webhook

open Lib

/-- The directory that the kubelet mounts at, by its elements. -/
def place (m : VolumeMount) : List (List Char) := Path.rooted m.mountPath

/-- No extra mount is, contains or lies in a generated mount or another extra mount. -/
structure Apart (generated extra : List VolumeMount) : Prop where
  generated : ∀ m ∈ extra, ∀ g ∈ generated, ¬ Path.Overlap (place m) (place g)
  extra : extra.Pairwise fun m m' => ¬ Path.Overlap (place m) (place m')

/-- Neither is the root, and if they are not taken from the same directory they do not overlap. -/
def Comparable (m m' : VolumeMount) : Prop :=
  place m ≠ [] ∧ place m' ≠ [] ∧
    (Path.Alike m.mountPath m'.mountPath ∨ ¬ Path.Overlap (place m) (place m'))

structure AllComparable (generated extra : List VolumeMount) : Prop where
  generated : ∀ m ∈ extra, ∀ g ∈ generated, Comparable m g
  extra : extra.Pairwise Comparable

theorem comparable_of_not_overlap {m m' : VolumeMount} (h : ¬ Path.Overlap (place m) (place m')) :
    Comparable m m' := by
  refine ⟨fun hm => h ?_, fun hm => h ?_, .inr h⟩
  · rw [hm]
    exact .inl List.nil_prefix
  · rw [hm]
    exact .inr List.nil_prefix

/-- What the comparison of two paths misses is not comparable. -/
theorem not_overlap_of_comparable {m m' : VolumeMount} (h : Comparable m m')
    (hc : mountPathsOverlap (Path.clean m.mountPath) m'.mountPath = false) :
    ¬ Path.Overlap (place m) (place m') := by
  obtain ⟨hm, hm', halike | hno⟩ := h
  · intro ho
    have ht := Path.texts_of_overlap halike hm hm' ho
    simp only [mountPathsOverlap, Path.clean_idem, Bool.or_eq_false_iff,
      decide_eq_false_iff_not] at hc
    rcases ht with ht | ht | ht
    · exact hc.1.1 ht
    · rw [hc.1.2] at ht
      cases ht
    · rw [hc.2] at ht
      cases ht
  · exact hno

/-- What was compared when a list of extra mounts is accepted. -/
theorem checkExtraVolumeMounts_ok {pod : Pod} {injected : List Volume}
    {generated : List VolumeMount} : ∀ {seen ms : List VolumeMount},
    checkExtraVolumeMounts pod injected generated seen ms = .ok () →
      (∀ m ∈ ms, ∀ g ∈ generated ++ seen,
        mountPathsOverlap (Path.clean m.mountPath) g.mountPath = false) ∧
      ms.Pairwise fun m m' => mountPathsOverlap (Path.clean m'.mountPath) m.mountPath = false
  | _, [], _ => by simp
  | seen, m :: ms, h => by
    simp only [checkExtraVolumeMounts, check_ok_iff, require_eq_ok, checkOverlap, forM_ok_iff] at h
    obtain ⟨-, -, -, -, hseen, hgen, hrest⟩ := h
    obtain ⟨hall, hpair⟩ := checkExtraVolumeMounts_ok hrest
    refine ⟨List.forall_mem_cons.2 ⟨fun g hg => ?_, fun m' hm' g hg => ?_⟩,
      List.pairwise_cons.2 ⟨fun m' hm' => ?_, hpair⟩⟩
    · exact (List.mem_append.1 hg).elim (hgen g) (hseen g)
    · refine hall m' hm' g ?_
      rw [← List.append_assoc]
      exact List.mem_append_left _ hg
    · exact hall m' hm' m (by simp)

/-- Accepted extra mounts are apart exactly if no path is the root and no two that are taken from
different directories overlap. -/
theorem extraMounts_apart_iff {pod : Pod} {injected : List Volume}
    {generated extra : List VolumeMount}
    (h : checkExtraVolumeMounts pod injected generated [] extra = .ok ()) :
    Apart generated extra ↔ AllComparable generated extra := by
  obtain ⟨hall, hpair⟩ := checkExtraVolumeMounts_ok h
  constructor
  · intro ha
    exact ⟨fun m hm g hg => comparable_of_not_overlap (ha.generated m hm g hg),
      ha.extra.imp comparable_of_not_overlap⟩
  · intro hc
    refine ⟨fun m hm g hg => not_overlap_of_comparable (hc.generated m hm g hg)
      (hall m hm g (by simpa using hg)), ?_⟩
    refine (hc.extra.and hpair).imp fun {m m'} hmm => ?_
    -- the later mount is the one that is compared with the earlier one
    have hsymm : Comparable m' m :=
      ⟨hmm.1.2.1, hmm.1.1, hmm.1.2.2.imp (fun ha => ⟨ha.1.symm, ha.2.symm⟩) fun hn ho => hn ho.symm⟩
    exact fun ho => not_overlap_of_comparable hsymm hmm.2 ho.symm

/-! ## The root, and a relative path -/

namespace Extra

def pod : Pod where
  name := "app"
  «namespace» := "default"
  containers := []
  volumes := [⟨"audit", .other []⟩]

def generated : List VolumeMount :=
  [{ name := "litestream-config", mountPath := "/etc/litestream" }]

def extra (path : String) : List VolumeMount := [{ name := "audit", mountPath := path }]

end Extra

theorem Extra.overlaps : ∀ path ∈ ["/", "etc/litestream"],
    checkExtraVolumeMounts pod [] generated [] (extra path) = .ok () ∧
      Path.Overlap (Path.rooted path) (Path.rooted "/etc/litestream") := by
  decide

/-- An extra mount at the root hides the generated mount, and a relative path can name it. -/
theorem extraMounts_shadow :
    (checkExtraVolumeMounts Extra.pod [] Extra.generated [] (Extra.extra "/") = .ok () ∧
      ¬ Apart Extra.generated (Extra.extra "/")) ∧
    (checkExtraVolumeMounts Extra.pod [] Extra.generated [] (Extra.extra "etc/litestream") =
      .ok () ∧ ¬ Apart Extra.generated (Extra.extra "etc/litestream")) := by
  have hshadow : ∀ path ∈ ["/", "etc/litestream"],
      checkExtraVolumeMounts Extra.pod [] Extra.generated [] (Extra.extra path) = .ok () ∧
        ¬ Apart Extra.generated (Extra.extra path) := fun path hpath =>
    ⟨(Extra.overlaps path hpath).1, fun ha => ha.generated _ (List.mem_singleton.2 rfl) _
      (List.mem_singleton.2 rfl) (Extra.overlaps path hpath).2⟩
  exact ⟨hshadow _ (by decide), hshadow _ (by decide)⟩

/-- Two mounts whose paths begin with the same characters, and a relative one. -/
def Extra.beside : List VolumeMount :=
  ["/var/audit", "/var/audits", "logs"].map fun path => { name := "audit", mountPath := path }

theorem extraMounts_apart_beside :
    checkExtraVolumeMounts Extra.pod [] Extra.generated [] Extra.beside = .ok () ∧
      Apart Extra.generated Extra.beside := by
  have hok : checkExtraVolumeMounts Extra.pod [] Extra.generated [] Extra.beside = .ok () := by
    decide
  refine ⟨hok, (extraMounts_apart_iff hok).2 ⟨?_, ?_⟩⟩
  · unfold Comparable
    decide
  · unfold Comparable
    decide

end Controller.Webhook
