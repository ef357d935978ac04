import NplBrowser.Lib.Run

/-!
# The BeginFrame timer (`osr_render_handler_win.cc`)

`TriggerBeginFrame` starts the timer and is what the timer runs; it goes by `begin_frame_pending_`
alone which of them it is. Without external BeginFrames a tick renders and the timer stops; with them
it sends a BeginFrame and goes on by itself. `Render` may call `Invalidate`, so its calls are steps of
their own, with `rendering` as long as it has not returned; no task runs meanwhile.

When a task runs is left open, so the delays, which are computed in floating point, are left out.
-/

namespace NplBrowser

structure OsrRendererSettings where
  externalBeginFrameEnabled : Bool
  beginFrameRate : Int32

/-- A posted call of `TriggerBeginFrame`. -/
structure BeginFrameTask where
  lastTimeUs : UInt64
deriving DecidableEq

structure OsrRenderHandler where
  settings : OsrRendererSettings
  beginFramePending : Bool := false
  /-- `browser_` is not NULL. -/
  browser : Bool := false
  /-- The tasks in flight. -/
  tasks : List BeginFrameTask := []
  /-- How often `SendExternalBeginFrame` has been called. -/
  sent : Nat := 0
  rendering : Bool := false
  /-- `Invalidate` has been called since `Render` was called last. -/
  invalidated : Bool := false

namespace OsrRenderHandler

/-- `TriggerBeginFrame` at the time `now`. -/
def triggerBeginFrame (h : OsrRenderHandler) (now : UInt64) : OsrRenderHandler :=
  if h.beginFramePending && !h.settings.externalBeginFrameEnabled then
    { h with beginFramePending := false, rendering := true, invalidated := false }
  else
    { h with
      beginFramePending := true
      tasks := h.tasks ++ [{ lastTimeUs := now }]
      sent := if h.settings.externalBeginFrameEnabled && h.browser then h.sent + 1 else h.sent }

/-- `none`: `CHECK_GT` aborts. -/
def invalidate (h : OsrRenderHandler) (now : UInt64) : Option OsrRenderHandler :=
  let h := { h with invalidated := true }
  if h.beginFramePending then some h
  else if 0 < h.settings.beginFrameRate then some (h.triggerBeginFrame now)
  else none

def setBrowser (h : OsrRenderHandler) (browser : Bool) (now : UInt64) : Option OsrRenderHandler :=
  let h := { h with browser }
  if browser && h.settings.externalBeginFrameEnabled then h.invalidate now else some h

inductive Event
  | setBrowser (browser : Bool) (now : UInt64)
  /-- Also from within `Render`. -/
  | invalidate (now : UInt64)
  /-- A task that is due, the `i`th of them. -/
  | task (i : Nat) (now : UInt64)
  /-- `Render` called by a subclass that has been given a new texture. -/
  | render
  | renderReturns

def step (h : OsrRenderHandler) : Event → Option OsrRenderHandler
  | .setBrowser browser now => if h.rendering then none else h.setBrowser browser now
  | .invalidate now => h.invalidate now
  | .task i now =>
    if h.rendering = false ∧ i < h.tasks.length then
      some ({ h with tasks := h.tasks.eraseIdx i }.triggerBeginFrame now)
    else none
  | .render => if h.rendering then none else some { h with rendering := true, invalidated := false }
  | .renderReturns => if h.rendering then some { h with rendering := false } else none

/-- The flag says whether the one task is in flight, and one is if a repaint has been requested. -/
structure Inv (h : OsrRenderHandler) : Prop where
  tasks : h.tasks.length = if h.beginFramePending then 1 else 0
  requested : h.settings.externalBeginFrameEnabled = false → h.invalidated = true → h.beginFramePending = true

variable {h h' : OsrRenderHandler}

theorem inv_start (settings : OsrRendererSettings) : Inv { settings } := ⟨rfl, nofun⟩

/-- The timer is started only where it does not run. -/
theorem Inv.start (hi : h.Inv) (hpending : h.beginFramePending = false) (now : UInt64) :
    Inv (triggerBeginFrame { h with invalidated := true } now) := by
  unfold triggerBeginFrame
  refine ⟨?_, fun _ _ => ?_⟩
  · simp [hpending, hi.tasks]
  · simp [hpending]

/-- A tick finds no other task, and either leaves none or one. -/
theorem Inv.tick (hi : h.Inv) {i : Nat} (hlt : i < h.tasks.length) (now : UInt64) :
    Inv ({ h with tasks := h.tasks.eraseIdx i }.triggerBeginFrame now) := by
  have hpending : h.beginFramePending = true := by
    by_contra hno
    simp [hi.tasks, hno] at hlt
  have hone : h.tasks.length = 1 := by simp [hi.tasks, hpending]
  have hnone : h.tasks.eraseIdx i = [] := by
    rw [← List.length_eq_zero_iff, List.length_eraseIdx, if_pos hlt, hone]
  unfold triggerBeginFrame
  simp only [hpending, hnone, Bool.true_and]
  split
  · exact ⟨rfl, fun _ hno => nomatch hno⟩
  · exact ⟨rfl, fun _ _ => rfl⟩

theorem Inv.invalidate (hi : h.Inv) {now : UInt64} (hs : h.invalidate now = some h') : h'.Inv := by
  unfold OsrRenderHandler.invalidate at hs
  dsimp only at hs
  split_ifs at hs with hpending hrate
  · cases hs
    exact ⟨hi.tasks, fun _ _ => hpending⟩
  · cases hs
    exact hi.start (Bool.eq_false_iff.2 hpending) now

theorem Inv.setBrowser (hi : h.Inv) {browser : Bool} {now : UInt64}
    (hs : h.setBrowser browser now = some h') : h'.Inv := by
  have hi' : Inv { h with browser } := ⟨hi.tasks, hi.requested⟩
  unfold OsrRenderHandler.setBrowser at hs
  dsimp only at hs
  split at hs
  · exact hi'.invalidate hs
  · cases hs
    exact hi'

theorem Inv.step (hi : h.Inv) {e : Event} (hs : h.step e = some h') : h'.Inv := by
  cases e with
  | setBrowser browser now =>
    rw [OsrRenderHandler.step, Option.ite_none_left_eq_some] at hs
    exact hi.setBrowser hs.2
  | invalidate now => exact hi.invalidate hs
  | task i now =>
    obtain ⟨⟨-, hlt⟩, hs⟩ := Option.ite_none_right_eq_some.1 hs
    cases hs
    exact hi.tick hlt now
  | render =>
    obtain ⟨-, hs⟩ := Option.ite_none_left_eq_some.1 hs
    cases hs
    exact ⟨hi.tasks, nofun⟩
  | renderReturns =>
    obtain ⟨-, hs⟩ := Option.ite_none_right_eq_some.1 hs
    cases hs
    exact ⟨hi.tasks, hi.requested⟩

theorem settings_triggerBeginFrame (h : OsrRenderHandler) (now : UInt64) :
    (h.triggerBeginFrame now).settings = h.settings := by
  unfold triggerBeginFrame
  split <;> rfl

theorem settings_invalidate {now : UInt64} (hs : h.invalidate now = some h') :
    h'.settings = h.settings := by
  unfold OsrRenderHandler.invalidate at hs
  dsimp only at hs
  split_ifs at hs
  · cases hs
    rfl
  · cases hs
    exact settings_triggerBeginFrame _ now

theorem settings_step {e : Event} (hs : h.step e = some h') : h'.settings = h.settings := by
  cases e with
  | setBrowser browser now =>
    rw [step, Option.ite_none_left_eq_some] at hs
    obtain ⟨-, hs⟩ := hs
    unfold setBrowser at hs
    dsimp only at hs
    split at hs
    · exact settings_invalidate (h := { h with browser }) hs
    · cases hs
      rfl
  | invalidate now => exact settings_invalidate hs
  | task i now =>
    obtain ⟨-, hs⟩ := Option.ite_none_right_eq_some.1 hs
    cases hs
    exact settings_triggerBeginFrame _ now
  | render =>
    obtain ⟨-, hs⟩ := Option.ite_none_left_eq_some.1 hs
    cases hs
    rfl
  | renderReturns =>
    obtain ⟨-, hs⟩ := Option.ite_none_right_eq_some.1 hs
    cases hs
    rfl

/-- After any steps, within `Render` or not, there is at most one task, the flag is set just when there
is one, and without external BeginFrames there is one if a repaint has been requested since `Render` was
called last. -/
theorem beginFrame_run (settings : OsrRendererSettings) (es : List Event) (h : OsrRenderHandler)
    (hrun : Lts.Run step Lts.Any { settings } es h) :
    h.tasks.length ≤ 1 ∧ (h.beginFramePending = true ↔ h.tasks ≠ []) ∧
      (settings.externalBeginFrameEnabled = false → h.invalidated = true → h.tasks ≠ []) := by
  obtain ⟨hsettings, hi⟩ : h.settings = settings ∧ h.Inv := by
    refine hrun.inv (I := fun h => h.settings = settings ∧ h.Inv) ?_ ⟨rfl, inv_start settings⟩
    exact fun h e h' ⟨hsettings, hi⟩ _ hs => ⟨(settings_step hs).trans hsettings, hi.step hs⟩
  have htasks : h.beginFramePending = true ↔ h.tasks ≠ [] := by
    rw [← List.length_pos_iff, hi.tasks]
    cases h.beginFramePending <;> simp
  refine ⟨?_, htasks, fun hinternal hinvalidated => htasks.1 ?_⟩
  · rw [hi.tasks]
    split <;> simp
  · exact hi.requested (hsettings ▸ hinternal) hinvalidated

/-- `Render` asks for another frame before it returns. -/
theorem beginFrame_run_render : ∃ h, Lts.Run step Lts.Any { settings := ⟨false, 30⟩ }
    [.invalidate 0, .task 0 1, .invalidate 2, .invalidate 3] h ∧ h.rendering = true ∧ h.tasks ≠ [] := by
  obtain ⟨h, hexec, hrendering, hinvalidated⟩ : ∃ h, Lts.exec step { settings := ⟨false, 30⟩ }
      [.invalidate 0, .task 0 1, .invalidate 2, .invalidate 3] = some h ∧ h.rendering = true ∧
        h.invalidated = true := ⟨_, rfl, rfl, rfl⟩
  have hrun := Lts.run_of_exec hexec
  exact ⟨h, hrun, hrendering, (beginFrame_run _ _ h hrun).2.2 rfl hinvalidated⟩

end OsrRenderHandler
end NplBrowser
