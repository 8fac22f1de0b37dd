import Mytools.Lib.Rooted
import Mytools.Sarif.Convert

/-!
# When fingerprints tell findings apart

The rule, the URI and the message are joined by colons that may also stand in them. Two findings
with the same joined text are the same finding if their rules and their URIs have as many colons
(`hashed_inj`), and otherwise they are different findings with one fingerprint.
-/

namespace Sarif

open Lib

/-! ## The results that become issues -/

/-- The results with a location, each with its first one. -/
def located (report : Report) : List (Result × SARIFLocation) :=
  report.runs.flatMap fun run => run.results.filterMap fun res =>
    res.locations.head?.map fun loc => (res, loc)

theorem convert_eq (sha256 : String → String) (report : Report) (baseDir : String) :
    convert sha256 report baseDir =
      (located report).map fun x => issue sha256 baseDir x.1 x.2 := by
  unfold convert located
  rw [List.map_flatMap]
  congr 1
  funext run
  rw [List.map_filterMap]
  congr 1
  funext res
  cases res.locations <;> rfl

/-! ## The joined text -/

/-- What the fingerprint of a result is the digest of. -/
def text (x : Result × SARIFLocation) : String := hashed x.1.ruleID x.2.uri x.1.message

def colons (s : String) : Nat := s.toList.count ':'

theorem toList_hashed (ruleID path message : String) :
    (hashed ruleID path message).toList =
      ruleID.toList ++ ':' :: (path.toList ++ ':' :: message.toList) := by
  simp [hashed]

/-- The parts of a joined text are found again if the number of their colons is known. -/
theorem hashed_inj {r r' u u' m m' : String} (hr : colons r = colons r') (hu : colons u = colons u')
    (h : hashed r u m = hashed r' u' m') : r = r' ∧ u = u' ∧ m = m' := by
  have hl := congrArg String.toList h
  rw [toList_hashed, toList_hashed] at hl
  obtain ⟨h₁, hl⟩ := cut_count hr hl
  obtain ⟨h₂, h₃⟩ := cut_count hu hl
  exact ⟨String.toList_inj.1 h₁, String.toList_inj.1 h₂, String.toList_inj.1 h₃⟩

/-! ## Fingerprints -/

/-- The findings differ in their rule, their URI or their message. -/
def Differ (x y : Result × SARIFLocation) : Prop :=
  x.1.ruleID ≠ y.1.ruleID ∨ x.2.uri ≠ y.2.uri ∨ x.1.message ≠ y.1.message

/-- The issues of different findings have different fingerprints. -/
def Separates (sha256 : String → String) (report : Report) (baseDir : String) : Prop :=
  ∀ x ∈ located report, ∀ y ∈ located report, Differ x y →
    (issue sha256 baseDir x.1 x.2).fingerprint ≠ (issue sha256 baseDir y.1 y.2).fingerprint

/-- Texts that agree are cut alike. -/
def Unambiguous (report : Report) : Prop :=
  ∀ x ∈ located report, ∀ y ∈ located report, text x = text y →
    colons x.1.ruleID = colons y.1.ruleID ∧ colons x.2.uri = colons y.2.uri

variable {sha256 : String → String} {report : Report}

theorem fingerprint_of_text_eq {x y : Result × SARIFLocation} (h : text x = text y)
    (baseDir : String) :
    (issue sha256 baseDir x.1 x.2).fingerprint = (issue sha256 baseDir y.1 y.2).fingerprint :=
  congrArg sha256 h

/-- It is enough that no rule has a colon and that the URIs agree in theirs, as those of one scheme
do. -/
theorem unambiguous_of_colons {n : Nat} (hr : ∀ x ∈ located report, colons x.1.ruleID = 0)
    (hu : ∀ x ∈ located report, colons x.2.uri = n) : Unambiguous report := by
  intro x hx y hy _
  rw [hr x hx, hr y hy, hu x hx, hu y hy]
  exact ⟨rfl, rfl⟩

/-- With a digest that has no collision among the texts of the report, the fingerprints of different
findings differ just when no two findings have one joined text with the colons in different
parts. -/
theorem fingerprints_separate_iff (sha256 : String → String) (report : Report) (baseDir : String)
    (hsha : ∀ x ∈ located report, ∀ y ∈ located report,
      sha256 (text x) = sha256 (text y) → text x = text y) :
    convert sha256 report baseDir =
      (located report).map (fun x => issue sha256 baseDir x.1 x.2) ∧
    (Separates sha256 report baseDir ↔ Unambiguous report) := by
  refine ⟨convert_eq sha256 report baseDir, ?_, ?_⟩
  · intro hs x hx y hy ht
    have hsame : ¬ Differ x y := fun hd => hs x hx y hy hd (fingerprint_of_text_eq ht baseDir)
    simp only [Differ, not_or, not_not] at hsame
    rw [hsame.1, hsame.2.1]
    exact ⟨rfl, rfl⟩
  · intro hu x hx y hy hd he
    have ht := hsha x hx y hy he
    obtain ⟨hr, huri⟩ := hu x hx y hy ht
    obtain ⟨h₁, h₂, h₃⟩ := hashed_inj hr huri ht
    rcases hd with hd | hd | hd
    · exact hd h₁
    · exact hd h₂
    · exact hd h₃

/-- Two findings of one rule in one file. -/
def twoMessages : Report :=
  ⟨[⟨[⟨"R1", "unused", "", [⟨"a.go", ⟨1⟩⟩]⟩, ⟨"R1", "shadowed", "", [⟨"a.go", ⟨2⟩⟩]⟩]⟩]⟩

theorem twoMessages_unambiguous : Unambiguous twoMessages :=
  unambiguous_of_colons (n := 0) (by decide) (by decide)

theorem fingerprints_separate_twoMessages : Separates id twoMessages "." :=
  (fingerprints_separate_iff id twoMessages "." fun _ _ _ _ h => h).2.2 twoMessages_unambiguous

/-- The rule `a:b` in the file `c`, and the rule `a` in the file `b:c`. -/
def movedColon : Report :=
  ⟨[⟨[⟨"a:b", "d", "", [⟨"c", ⟨1⟩⟩]⟩, ⟨"a", "d", "", [⟨"b:c", ⟨1⟩⟩]⟩]⟩]⟩

theorem fingerprints_collide :
    ¬ ∀ (sha256 : String → String) (report : Report) (baseDir : String),
      Function.Injective sha256 → Separates sha256 report baseDir := by
  intro h
  have hs := h id movedColon "." Function.injective_id
  refine hs (⟨"a:b", "d", "", [⟨"c", ⟨1⟩⟩]⟩, ⟨"c", ⟨1⟩⟩) (by decide)
    (⟨"a", "d", "", [⟨"b:c", ⟨1⟩⟩]⟩, ⟨"b:c", ⟨1⟩⟩) (by decide) (.inl (by decide)) ?_
  exact fingerprint_of_text_eq (by decide) "."

end Sarif
