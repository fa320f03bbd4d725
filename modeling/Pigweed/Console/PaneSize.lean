import Mathlib.Data.List.Basic

/-!
# The size of a `LogPane` across render passes

Before each render pass the pane receives its width and height through
`LogPane.update_pane_size`. A non-zero width moves `current_log_pane_width` to
`last_log_pane_width` and stores the new one; a non-zero height does the same for the
height, less the heights of the toolbars the pane shows. `pane_resized` compares the last
and current values. Both `last_` fields start as `None`, so a fresh pane reads as resized.

Over a sequence of passes, `pane_resized` therefore compares the last two non-zero widths
and the last two content heights of passes with a non-zero height: a pass without a width
or a height does not settle an earlier change. The toolbar heights are class constants
defined outside this file, so they are parameters.
-/

namespace Pigweed.Console

/-- `TOOLBAR_HEIGHT` of `WindowPaneToolbar`, `TableToolbar`, `SearchToolbar` and
`FilterToolbar`. -/
structure ToolbarHeights where
  windowPaneToolbar : ℤ
  tableToolbar : ℤ
  searchToolbar : ℤ
  filterToolbar : ℤ

/-- What `update_pane_size` reads to know which toolbars are shown: `_table_view`,
`search_bar_active` and `log_view.filtering_on`. -/
structure PaneView where
  tableView : Bool
  searchBarActive : Bool
  filteringOn : Bool
  deriving DecidableEq, Repr

/-- One dimension of the pane: `last_log_pane_…` and `current_log_pane_…`. -/
structure TrackedSize where
  last : Option ℤ
  current : ℤ
  deriving DecidableEq, Repr

namespace TrackedSize

def update (d : TrackedSize) (new : ℤ) : TrackedSize := ⟨some d.current, new⟩

def changed (d : TrackedSize) : Bool := d.last != some d.current

end TrackedSize

structure PaneSize where
  width : TrackedSize
  height : TrackedSize
  deriving DecidableEq, Repr

def PaneSize.initial : PaneSize := ⟨⟨none, 0⟩, ⟨none, 0⟩⟩

def paneResized (s : PaneSize) : Bool := s.width.changed || s.height.changed

/-- The height left for log lines: `height` less the bottom toolbar and the toolbars shown. -/
def logContentHeight (tb : ToolbarHeights) (v : PaneView) (height : ℤ) : ℤ :=
  height - tb.windowPaneToolbar - (if v.tableView then tb.tableToolbar else 0) -
    (if v.searchBarActive then tb.searchToolbar else 0) -
    (if v.filteringOn then tb.filterToolbar else 0)

/-- `LogPane.update_pane_size`: `if width:` and `if height:` skip zero. -/
def updatePaneSize (tb : ToolbarHeights) (v : PaneView) (s : PaneSize) (width height : ℤ) :
    PaneSize :=
  let s := if width ≠ 0 then { s with width := s.width.update width } else s
  if height ≠ 0 then { s with height := s.height.update (logContentHeight tb v height) } else s

structure RenderPass where
  width : ℤ
  height : ℤ
  view : PaneView
  deriving DecidableEq, Repr

def renderRun (tb : ToolbarHeights) (s : PaneSize) (passes : List RenderPass) : PaneSize :=
  passes.foldl (fun s p => updatePaneSize tb p.view s p.width p.height) s

/-- Whether the last two entries of `x :: xs` differ; with no second entry, `true`. -/
def lastTwoDiffer : ℤ → List ℤ → Bool
  | _, [] => true
  | x, [y] => x != y
  | _, y :: z :: rest => lastTwoDiffer y (z :: rest)

def nonzeroWidths (passes : List RenderPass) : List ℤ :=
  (passes.map (·.width)).filter (· ≠ 0)

def contentHeights (tb : ToolbarHeights) (passes : List RenderPass) : List ℤ :=
  (passes.filter (·.height ≠ 0)).map fun p => logContentHeight tb p.view p.height

/-- Each dimension after a run has seen exactly the non-zero values, in order. -/
theorem renderRun_eq (tb : ToolbarHeights) (s : PaneSize) (passes : List RenderPass) :
    renderRun tb s passes = ⟨(nonzeroWidths passes).foldl TrackedSize.update s.width,
      (contentHeights tb passes).foldl TrackedSize.update s.height⟩ := by
  induction passes generalizing s with
  | nil => rfl
  | cons p passes ih =>
    simp only [renderRun, List.foldl_cons] at ih ⊢
    rw [ih]
    unfold updatePaneSize nonzeroWidths contentHeights
    by_cases hw : p.width = 0 <;> by_cases hh : p.height = 0 <;> simp [hw, hh]

/-- After at least one update, a dimension reads as changed exactly when the last two
values it has held differ. -/
theorem changed_foldl_update (d : TrackedSize) {xs : List ℤ} (hxs : xs ≠ []) :
    (xs.foldl TrackedSize.update d).changed = lastTwoDiffer d.current xs := by
  induction xs generalizing d with
  | nil => exact absurd rfl hxs
  | cons y xs ih =>
    cases xs with
    | nil => simp [TrackedSize.update, TrackedSize.changed, lastTwoDiffer, bne]
    | cons z rest =>
      rw [List.foldl_cons, ih _ (List.cons_ne_nil z rest)]
      rfl

theorem changed_foldl_update_initial (xs : List ℤ) :
    (xs.foldl TrackedSize.update ⟨none, 0⟩).changed = lastTwoDiffer 0 xs := by
  cases xs with
  | nil => rfl
  | cons y xs => exact changed_foldl_update _ (List.cons_ne_nil y xs)

/-- From a fresh pane, `pane_resized` after any sequence of render passes says whether the
last two non-zero widths, or the last two content heights, differ (counting from the `0`
that `__init__` stores). -/
theorem paneResized_renderRun (tb : ToolbarHeights) (passes : List RenderPass) :
    paneResized (renderRun tb PaneSize.initial passes) =
      (lastTwoDiffer 0 (nonzeroWidths passes) || lastTwoDiffer 0 (contentHeights tb passes)) := by
  rw [renderRun_eq, paneResized, PaneSize.initial, changed_foldl_update_initial,
    changed_foldl_update_initial]

/- After a pass that changes the width, a pass with no width and the same height still reads
as resized. -/
example :
    paneResized (renderRun ⟨1, 1, 1, 1⟩ PaneSize.initial
      [⟨80, 24, ⟨true, false, false⟩⟩, ⟨100, 24, ⟨true, false, false⟩⟩,
        ⟨0, 24, ⟨true, false, false⟩⟩]) = true := by
  decide

end Pigweed.Console
