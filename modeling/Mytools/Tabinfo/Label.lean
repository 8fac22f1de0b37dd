import Mytools.Lib.Bytes
import Mytools.Lib.Path

/-!
# Tab labels (`cmd/herdr-plugin-tabinfo/main.go`)

The plugin gives every tab a label made of the items of its display configuration.
`planLabelUpdatesWithInfo` lists the tabs whose label is to change; `normalizeLabel` makes one line
of a label and cuts it to the configured number of characters, keeping a last part in brackets.
-/

namespace Tabinfo

open Lib

/-! ## Normalization -/

def defaultMaxLabel : Nat := 80

/-- The maximum for the value of `HERDR_TABINFO_MAX_LABEL`; `atoi` is `strconv.Atoi`. -/
def maxLabel (atoi : String → Option Int) (value : String) : Nat :=
  if value ≠ "" then
    match atoi value with
    | some parsed => if parsed > 0 then parsed.toNat else defaultMaxLabel
    | none => defaultMaxLabel
  else defaultMaxLabel

/-- The mapping of `strings.Map`. -/
def blank (r : Char) : Char := if r.toNat < 0x20 ∨ r.toNat = 0x7f then ' ' else r

/-- `cleaned`, by characters. A byte at which no character begins has become U+FFFD. -/
def cleaned (label : List Char) : List Char := [' '].intercalate (fieldsOf (label.map blank))

/-- `strings.LastIndex` of `" ["`, in characters. -/
def suffixStart : List Char → Option Nat
  | [] => none
  | c :: cs =>
    match suffixStart cs with
    | some i => some (i + 1)
    | none => if c = ' ' ∧ cs.head? = some '[' then some 0 else none

/-- The cut of a text that is too long. -/
def shortened (maxLabel : Nat) (runes : List Char) : List Char :=
  match suffixStart runes with
  | none => trim isSpace (runes.take maxLabel)
  | some suffixStart =>
    if runes.getLast? ≠ some ']' then trim isSpace (runes.take maxLabel)
    else
      let suffix := runes.drop suffixStart
      -- The difference is cut off at zero, below the minimum of one.
      let baseMax := max (maxLabel - suffix.length - 1) 1
      trim isSpace ((runes.take suffixStart).take baseMax) ++ suffix

def normalizeRunes (maxLabel : Nat) (label : List Char) : List Char :=
  if (cleaned label).length ≤ maxLabel then cleaned label else shortened maxLabel (cleaned label)

def normalizeLabel (maxLabel : Nat) (label : Bytes) : Bytes :=
  Bytes.ofChars (normalizeRunes maxLabel (Bytes.runes label))

/-! ## Labels -/

inductive DisplayItem
  | tabNumber
  | process
  | processFull
  | directory
  | git
  | environment
  deriving DecidableEq, Repr

structure EnvironmentDisplay where
  icon : Bytes
  variableName : Bytes
  deriving DecidableEq, Repr

structure TabDisplay where
  items : List DisplayItem
  separator : Bytes
  environment : List EnvironmentDisplay
  deriving DecidableEq, Repr

structure Display where
  active : TabDisplay
  inactive : TabDisplay
  deriving DecidableEq, Repr

def Display.forTab (config : Display) (active : Bool) : TabDisplay :=
  if active then config.active else config.inactive

structure TabInfo where
  tabID : String
  workspaceID : String
  number : Int
  label : Bytes
  focused : Bool
  deriving DecidableEq, Repr

structure PaneInfo where
  paneID : String
  tabID : String
  focused : Bool
  cwd : Option String
  foregroundCWD : Option String
  deriving DecidableEq, Repr

structure PaneLayout where
  tabID : String := ""
  focusedPaneID : String := ""
  deriving DecidableEq, Repr

/-- `environment` gives the empty text for a variable that is not set. -/
structure TabDynamicInfo where
  process : Bytes := []
  processFull : Bytes := []
  git : Bytes := []
  environment : Bytes → Bytes := fun _ => []

def findFocusedPane (panes : List PaneInfo) (layout : PaneLayout) : Option PaneInfo :=
  let chosen :=
    if layout.focusedPaneID ≠ "" then panes.find? (·.paneID = layout.focusedPaneID) else none
  chosen.or ((panes.find? (·.focused)).or panes.head?)

def firstNonEmpty (values : List (Option String)) : String :=
  (values.findSome? fun value => value.filter (· ≠ "")).getD ""

def paneCWD : Option PaneInfo → String
  | none => ""
  | some pane => firstNonEmpty [pane.foregroundCWD, pane.cwd]

/-- The directory that is shown; `home` is the result of `os.UserHomeDir`. -/
def displayCWD (home : Option String) (pane : Option PaneInfo) : String :=
  let cwd := paneCWD pane
  if cwd = "" then ""
  else
    let cwd :=
      match home with
      | none => cwd
      | some home =>
        if cwd = home then "~"
        else if hasPrefix cwd (home ++ "/") then "~" ++ trimPrefix cwd home
        else cwd
    let base := Path.base cwd
    if base ≠ "." ∧ base ≠ "/" then base else cwd

/-- U+F07C -/
def iconDirectory : Bytes := Bytes.ofChars [Char.ofNat 0xf07c]

/-- U+E702 -/
def iconGit : Bytes := Bytes.ofChars [Char.ofNat 0xe702]

def space : Bytes := Bytes.ofString " "

def formatEnvironmentValue (icon value : Bytes) : Bytes :=
  if icon = [] then value else icon ++ space ++ value

/-- The parts of a label that an item of the configuration gives. -/
def itemParts (home : Option String) (tab : TabInfo) (pane : Option PaneInfo)
    (info : TabDynamicInfo) (environment : List EnvironmentDisplay) : DisplayItem → List Bytes
  | .tabNumber => [Bytes.ofString (toString tab.number)]
  | .process => if info.process ≠ [] then [info.process] else []
  | .processFull => if info.processFull ≠ [] then [info.processFull] else []
  | .directory =>
    let cwd := displayCWD home pane
    if cwd ≠ "" then [iconDirectory ++ space ++ Bytes.ofString cwd] else []
  | .git => if info.git ≠ [] then [iconGit ++ space ++ info.git] else []
  | .environment => environment.filterMap fun e =>
    let value := info.environment e.variableName
    if e.variableName ≠ [] ∧ value ≠ [] then some (formatEnvironmentValue e.icon value) else none

def buildTabLabel (maxLabel : Nat) (home : Option String) (tab : TabInfo) (panes : List PaneInfo)
    (layout : PaneLayout) (info : TabDynamicInfo) (display : TabDisplay) : Bytes :=
  let focusedPane := findFocusedPane panes layout
  let parts := display.items.flatMap (itemParts home tab focusedPane info display.environment)
  normalizeLabel maxLabel (display.separator.intercalate parts)

/-! ## Updates -/

structure SessionSnapshot where
  tabs : List TabInfo
  panes : List PaneInfo
  layouts : List PaneLayout
  deriving DecidableEq, Repr

structure TabRename where
  tabID : String
  label : Bytes
  deriving DecidableEq, Repr

def prioritizedTabs (tabs : List TabInfo) : List TabInfo :=
  match tabs.find? (·.focused) with
  | none => tabs
  | some active =>
    active ::
      (tabs.filter fun tab => tab.tabID ≠ active.tabID ∧ tab.workspaceID = active.workspaceID) ++
      tabs.filter fun tab => tab.tabID ≠ active.tabID ∧ tab.workspaceID ≠ active.workspaceID

/-- What a run of the plugin is configured with; `infoForPane` is the closure of `refreshLabels`,
which looks at the focus of the tab and at the pane. -/
structure Config where
  maxLabel : Nat
  home : Option String
  display : Display
  infoForPane : Bool → Option PaneInfo → TabDynamicInfo

/-- The label of a tab in a snapshot. -/
def labelFor (config : Config) (snapshot : SessionSnapshot) (tab : TabInfo) : Bytes :=
  let panes := snapshot.panes.filter (·.tabID = tab.tabID)
  -- A later layout of a tab replaces an earlier one in the map.
  let layout := (snapshot.layouts.reverse.find? (·.tabID = tab.tabID)).getD {}
  let info := config.infoForPane tab.focused (findFocusedPane panes layout)
  buildTabLabel config.maxLabel config.home tab panes layout info
    (config.display.forTab tab.focused)

def planLabelUpdatesWithInfo (config : Config) (snapshot : SessionSnapshot) : List TabRename :=
  (prioritizedTabs snapshot.tabs).filterMap fun tab =>
    let label := labelFor config snapshot tab
    if tab.label = label then none else some ⟨tab.tabID, label⟩

end Tabinfo
