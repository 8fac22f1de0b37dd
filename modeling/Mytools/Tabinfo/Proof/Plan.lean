import Mytools.Tabinfo.Proof.Label

/-!
# A refresh settles the labels

`renamed` is what the requests of a refresh make of a tab. The label of a tab depends on its panes
and not on the label that it has, so a second refresh of the same panes finds nothing to rename.
-/

namespace Tabinfo

open Lib

/-! ## Relabelled tabs -/

/-- The tab after the renames. -/
def renamed (renames : List TabRename) (tab : TabInfo) : TabInfo :=
  match renames.find? (·.tabID = tab.tabID) with
  | some r => { tab with label := r.label }
  | none => tab

/-- A change of labels only. -/
structure Relabels (g : TabInfo → TabInfo) : Prop where
  tabID : ∀ tab, (g tab).tabID = tab.tabID
  workspaceID : ∀ tab, (g tab).workspaceID = tab.workspaceID
  number : ∀ tab, (g tab).number = tab.number
  focused : ∀ tab, (g tab).focused = tab.focused

theorem relabels_renamed (renames : List TabRename) : Relabels (renamed renames) := by
  have hcases : ∀ tab, ∃ label, renamed renames tab = { tab with label } := by
    intro tab
    unfold renamed
    split
    · exact ⟨_, rfl⟩
    · exact ⟨tab.label, rfl⟩
  constructor
  all_goals
    intro tab
    obtain ⟨label, h⟩ := hcases tab
    rw [h]

variable {g : TabInfo → TabInfo} {config : Config} {snapshot : SessionSnapshot}

theorem prioritizedTabs_map (hg : Relabels g) (tabs : List TabInfo) :
    prioritizedTabs (tabs.map g) = (prioritizedTabs tabs).map g := by
  have hfind : (tabs.map g).find? (·.focused) = (tabs.find? (·.focused)).map g := by
    rw [List.find?_map]
    simp only [Function.comp_def, hg.focused]
  unfold prioritizedTabs
  rw [hfind]
  cases tabs.find? (·.focused) with
  | none => rfl
  | some active =>
    simp only [Option.map_some, List.filter_map, Function.comp_def, hg.tabID, hg.workspaceID,
      List.map_append, List.map_cons]

theorem mem_of_mem_prioritizedTabs {tabs : List TabInfo} {tab : TabInfo}
    (h : tab ∈ prioritizedTabs tabs) : tab ∈ tabs := by
  unfold prioritizedTabs at h
  split at h
  · exact h
  · next active ha =>
    rcases List.mem_append.1 h with h | h
    · rcases List.mem_cons.1 h with rfl | h
      · exact List.mem_of_find?_eq_some ha
      · exact List.mem_of_mem_filter h
    · exact List.mem_of_mem_filter h

/-- The label of a tab does not depend on the labels. -/
theorem labelFor_relabelled (hg : Relabels g) (tab : TabInfo) :
    labelFor config { snapshot with tabs := snapshot.tabs.map g } (g tab) =
      labelFor config snapshot tab := by
  have hparts : ∀ pane info environment item,
      itemParts config.home (g tab) pane info environment item =
        itemParts config.home tab pane info environment item := by
    intro pane info environment item
    cases item <;> simp [itemParts, hg.number]
  simp only [labelFor, buildTabLabel, hg.tabID, hg.focused, funext (hparts _ _ _)]

/-! ## The second refresh -/

/-- A rename of the plan is for a tab of the snapshot, and to the label of that tab. -/
theorem mem_plan {r : TabRename} (h : r ∈ planLabelUpdatesWithInfo config snapshot) :
    ∃ tab ∈ snapshot.tabs, r = ⟨tab.tabID, labelFor config snapshot tab⟩ := by
  obtain ⟨tab, htab, hr⟩ := List.mem_filterMap.1 h
  refine ⟨tab, mem_of_mem_prioritizedTabs htab, ?_⟩
  simp only at hr
  split at hr
  · cases hr
  · exact (Option.some.inj hr).symm

/-- The renames give every tab of the plan's list its label. -/
theorem label_renamed (hids : (snapshot.tabs.map TabInfo.tabID).Nodup) {tab : TabInfo}
    (htab : tab ∈ prioritizedTabs snapshot.tabs) :
    (renamed (planLabelUpdatesWithInfo config snapshot) tab).label =
      labelFor config snapshot tab := by
  unfold renamed
  split
  · next r hr =>
    obtain ⟨tab', htab', rfl⟩ := mem_plan (List.mem_of_find?_eq_some hr)
    have hid : tab'.tabID = tab.tabID := by simpa using List.find?_some hr
    rw [List.inj_on_of_nodup_map hids htab' (mem_of_mem_prioritizedTabs htab) hid]
  · next hnone =>
    by_contra hne
    have hmem : (⟨tab.tabID, labelFor config snapshot tab⟩ : TabRename) ∈
        planLabelUpdatesWithInfo config snapshot :=
      List.mem_filterMap.2 ⟨tab, htab, if_neg hne⟩
    have := List.find?_eq_none.1 hnone _ hmem
    simp at this

/-- After the renames of a refresh, the next refresh of the same panes plans none. -/
theorem plan_renamed (hids : (snapshot.tabs.map TabInfo.tabID).Nodup) :
    planLabelUpdatesWithInfo config { snapshot with
      tabs := snapshot.tabs.map (renamed (planLabelUpdatesWithInfo config snapshot)) } = [] := by
  have hg := relabels_renamed (planLabelUpdatesWithInfo config snapshot)
  apply List.filterMap_eq_nil_iff.2
  intro tab' htab'
  rw [prioritizedTabs_map hg] at htab'
  obtain ⟨tab, htab, rfl⟩ := List.mem_map.1 htab'
  apply if_pos
  rw [labelFor_relabelled hg, label_renamed hids htab]

theorem plan_renamed_two :
    let display : TabDisplay := ⟨[.tabNumber], [], []⟩
    let config : Config := ⟨80, none, ⟨display, display⟩, fun _ _ => {}⟩
    let snapshot : SessionSnapshot :=
      ⟨[⟨"a", "w", 1, [], false⟩, ⟨"b", "w", 2, [], true⟩], [], []⟩
    planLabelUpdatesWithInfo config { snapshot with
      tabs := snapshot.tabs.map (renamed (planLabelUpdatesWithInfo config snapshot)) } = [] :=
  plan_renamed (by decide)

end Tabinfo
