import Mathlib.Data.List.Basic

/-!
# Drag selection in a log pane

`LogContentControl.mouse_handler` of `pw_console/log_pane.py` follows a mouse drag with
two flags, `visual_select_mode_drag_start` and `visual_select_mode_drag_stop`, both false
after `__init__`. A left-button move starts or extends a selection, and first clears the
old one when the last drag was finished; a left-button release finishes the drag, then
moves the focus or the cursor. Scroll events move the view. The calls the handler makes
on the pane, its log view and the layout are its effects.

Only three of the four flag pairs are reachable: they are the phases of `DragPhase`, and
the handler simulates the phase machine event by event.
-/

namespace Pigweed.Console

/-- `MouseEventType` and `MouseButton` of `prompt_toolkit.mouse_events`. -/
inductive MouseEventType | mouseUp | mouseDown | scrollUp | scrollDown | mouseMove
  deriving DecidableEq, Repr

inductive MouseButton | left | middle | right | none | unknown
  deriving DecidableEq, Repr

structure Point where
  x : ℕ
  y : ℕ
  deriving DecidableEq, Repr

structure MouseEvent where
  position : Point
  eventType : MouseEventType
  button : MouseButton
  deriving DecidableEq, Repr

/-- What the handler reads besides the event: `has_focus(self)()`, and the pane's
`saveas_dialog_active` and `search_bar_active`. -/
structure FocusState where
  hasFocus : Bool
  saveasDialogActive : Bool
  searchBarActive : Bool
  deriving DecidableEq, Repr

/-- The calls `mouse_handler` makes. -/
inductive Effect
  | focusSaveasDialog | focusSearchToolbar | focusContent
  | scrollToPosition (p : Point)
  | clearVisualSelection
  | visualSelectLine (p : Point)
  | scrollDown (lines : ℕ)
  | scrollUp (lines : ℕ)
  deriving DecidableEq, Repr

inductive HandlerResult | handled | notImplemented
  deriving DecidableEq, Repr

def logOutputScrollAmount : ℕ := 5

/-- `visual_select_mode_drag_start` and `visual_select_mode_drag_stop`. -/
structure DragFlags where
  dragStart : Bool
  dragStop : Bool
  deriving DecidableEq, Repr

def DragFlags.initial : DragFlags := ⟨false, false⟩

/-- `LogContentControl.mouse_handler`: the new flags, the calls made, in order, and the
value returned (`None` as `handled`, `NotImplemented` for an event passed on). -/
def mouseHandler (flags : DragFlags) (focus : FocusState) (e : MouseEvent) :
    DragFlags × List Effect × HandlerResult :=
  if e.eventType = .mouseUp ∧ e.button = .left then
    let flags := if flags.dragStart && !flags.dragStop then { flags with dragStop := true }
      else flags
    if !focus.hasFocus then
      (flags, [if focus.saveasDialogActive then .focusSaveasDialog
        else if focus.searchBarActive then .focusSearchToolbar else .focusContent], .handled)
    else (flags, [.scrollToPosition e.position], .handled)
  else if e.eventType = .mouseMove ∧ e.button = .left then
    (⟨true, false⟩, (if flags.dragStart && flags.dragStop then [.clearVisualSelection] else []) ++
      [.visualSelectLine e.position], .handled)
  else if e.eventType = .scrollDown then (flags, [.scrollDown logOutputScrollAmount], .handled)
  else if e.eventType = .scrollUp then (flags, [.scrollUp logOutputScrollAmount], .handled)
  else (flags, [], .notImplemented)

/-- Events through one control, each with the focus it sees: the final flags and every
call made. -/
def mouseRun (flags : DragFlags) : List (FocusState × MouseEvent) → DragFlags × List Effect
  | [] => (flags, [])
  | (focus, e) :: rest =>
    let r := mouseHandler flags focus e
    let s := mouseRun r.1 rest
    (s.1, r.2.1 ++ s.2)

/-- The phases of a drag selection. -/
inductive DragPhase | idle | selecting | selected
  deriving DecidableEq, Repr

namespace DragPhase

def toFlags : DragPhase → DragFlags
  | idle => ⟨false, false⟩
  | selecting => ⟨true, false⟩
  | selected => ⟨true, true⟩

/-- A left move selects; a left release finishes a selection in progress. -/
def step (ph : DragPhase) (e : MouseEvent) : DragPhase :=
  if e.eventType = .mouseMove ∧ e.button = .left then selecting
  else if e.eventType = .mouseUp ∧ e.button = .left ∧ ph = selecting then selected
  else ph

def run (ph : DragPhase) (events : List (FocusState × MouseEvent)) : DragPhase :=
  events.foldl (fun ph fe => ph.step fe.2) ph

end DragPhase

open DragPhase

theorem mouseHandler_fst (flags : DragFlags) (focus : FocusState) (e : MouseEvent) :
    (mouseHandler flags focus e).1 =
      if e.eventType = .mouseUp ∧ e.button = .left then
        (if flags.dragStart && !flags.dragStop then { flags with dragStop := true } else flags)
      else if e.eventType = .mouseMove ∧ e.button = .left then ⟨true, false⟩ else flags := by
  simp only [mouseHandler, apply_ite Prod.fst, ite_self]

theorem mouseHandler_toFlags (ph : DragPhase) (focus : FocusState) (e : MouseEvent) :
    (mouseHandler ph.toFlags focus e).1 = (ph.step e).toFlags := by
  rw [mouseHandler_fst]
  unfold step
  by_cases hm : e.eventType = .mouseMove ∧ e.button = .left
  · have hu : ¬ (e.eventType = .mouseUp ∧ e.button = .left) := fun h => by simp [hm.1] at h
    rw [if_neg hu, if_pos hm, if_pos hm]
    rfl
  · rw [if_neg hm, if_neg hm]
    by_cases hu : e.eventType = .mouseUp ∧ e.button = .left
    · rw [if_pos hu]
      cases ph <;> simp [hu, toFlags]
    · rw [if_neg hu, if_neg fun h => hu ⟨h.1, h.2.1⟩]

theorem clearVisualSelection_mem_mouseHandler (ph : DragPhase) (focus : FocusState)
    (e : MouseEvent) :
    .clearVisualSelection ∈ (mouseHandler ph.toFlags focus e).2.1 ↔
      e.eventType = .mouseMove ∧ e.button = .left ∧ ph = selected := by
  unfold mouseHandler
  by_cases hu : e.eventType = .mouseUp ∧ e.button = .left
  · refine iff_of_false ?_ fun h => by simp [hu.1] at h
    rw [if_pos hu]
    split_ifs <;> simp
  · rw [if_neg hu]
    by_cases hm : e.eventType = .mouseMove ∧ e.button = .left
    · rw [if_pos hm]
      cases ph <;> simp [hm, toFlags]
    · refine iff_of_false ?_ fun h => hm ⟨h.1, h.2.1⟩
      rw [if_neg hm]
      split_ifs <;> simp

/-- Over any sequence of events, the flags are those of the phase the events lead to. -/
theorem mouseRun_toFlags (ph : DragPhase) (events : List (FocusState × MouseEvent)) :
    (mouseRun ph.toFlags events).1 = (ph.run events).toFlags := by
  induction events generalizing ph with
  | nil => rfl
  | cons fe events ih =>
    obtain ⟨focus, e⟩ := fe
    simp only [mouseRun, mouseHandler_toFlags, ih]
    rfl

/-- From a fresh control, `visual_select_mode_drag_stop` is never set while
`visual_select_mode_drag_start` is clear. -/
theorem mouseRun_dragStop_imp_dragStart (events : List (FocusState × MouseEvent)) :
    (mouseRun DragFlags.initial events).1.dragStop = true →
      (mouseRun DragFlags.initial events).1.dragStart = true := by
  rw [show DragFlags.initial = idle.toFlags from rfl, mouseRun_toFlags]
  cases idle.run events <;> simp [toFlags]

theorem mouseRun_dragStop_imp_dragStart_release :
    (mouseRun DragFlags.initial [(⟨true, false, false⟩, ⟨⟨0, 3⟩, .mouseMove, .left⟩),
        (⟨true, false, false⟩, ⟨⟨0, 7⟩, .mouseUp, .left⟩)]).1.dragStop = true ∧
      (mouseRun DragFlags.initial [(⟨true, false, false⟩, ⟨⟨0, 3⟩, .mouseMove, .left⟩),
        (⟨true, false, false⟩, ⟨⟨0, 7⟩, .mouseUp, .left⟩)]).1.dragStart = true :=
  ⟨by decide, mouseRun_dragStop_imp_dragStart _ (by decide)⟩

/-- Along any sequence of events, the old selection is cleared only at a left move that
follows a finished drag: the events before it lead to `selected`. -/
theorem clearVisualSelection_mem_mouseRun {ph : DragPhase}
    {events : List (FocusState × MouseEvent)}
    (h : .clearVisualSelection ∈ (mouseRun ph.toFlags events).2) :
    ∃ pre focus e post, events = pre ++ (focus, e) :: post ∧
      e.eventType = .mouseMove ∧ e.button = .left ∧ ph.run pre = selected := by
  induction events generalizing ph with
  | nil => simp [mouseRun] at h
  | cons fe events ih =>
    obtain ⟨focus, e⟩ := fe
    simp only [mouseRun, mouseHandler_toFlags, List.mem_append] at h
    rcases h with h | h
    · obtain ⟨hm, hl, rfl⟩ := (clearVisualSelection_mem_mouseHandler ph focus e).mp h
      exact ⟨[], focus, e, events, rfl, hm, hl, rfl⟩
    · obtain ⟨pre, focus', e', post, rfl, hm, hl, hpre⟩ := ih h
      exact ⟨(focus, e) :: pre, focus', e', post, rfl, hm, hl, hpre⟩

theorem clearVisualSelection_mem_mouseRun_second_drag :
    Effect.clearVisualSelection ∈ (mouseRun idle.toFlags
      [(⟨true, false, false⟩, ⟨⟨0, 3⟩, .mouseMove, .left⟩),
        (⟨true, false, false⟩, ⟨⟨0, 7⟩, .mouseUp, .left⟩),
        (⟨true, false, false⟩, ⟨⟨0, 9⟩, .mouseMove, .left⟩)]).2 ∧
    ∃ pre focus e post, [(⟨true, false, false⟩, ⟨⟨0, 3⟩, .mouseMove, .left⟩),
        (⟨true, false, false⟩, ⟨⟨0, 7⟩, .mouseUp, .left⟩),
        (⟨true, false, false⟩, ⟨⟨0, 9⟩, .mouseMove, .left⟩)] = pre ++ (focus, e) :: post ∧
      e.eventType = .mouseMove ∧ e.button = .left ∧ idle.run pre = selected :=
  have h : Effect.clearVisualSelection ∈ (mouseRun idle.toFlags
      [(⟨true, false, false⟩, ⟨⟨0, 3⟩, .mouseMove, .left⟩),
        (⟨true, false, false⟩, ⟨⟨0, 7⟩, .mouseUp, .left⟩),
        (⟨true, false, false⟩, ⟨⟨0, 9⟩, .mouseMove, .left⟩)]).2 := by decide
  ⟨h, clearVisualSelection_mem_mouseRun h⟩

end Pigweed.Console
