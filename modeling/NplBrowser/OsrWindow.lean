import NplBrowser.Lib.Run
import Mathlib.Data.List.Basic

/-!
# The off-screen window

`OsrWindowWin` has a native window, a render handler and a browser, which come into being at three
times: a normal window's native window is made before its browser, a popup's by `ShowPopup` long
after. Everything here runs on the UI thread; `CreateBrowser` and `ShowPopup` are posted to it by
the main thread.

Only the pointers are kept, each as whether it is set; `useRender` and `useBrowser` stand for a call
through one. What a mouse message does besides, the click counts and the coordinates it sends, is
left out.
-/

namespace NplBrowser

inductive OsrTask
  | createBrowser
  | showPopup
  | show
  deriving DecidableEq

structure OsrWindow where
  popup : Bool
  hwnd : Bool := false
  renderHandler : Bool := false
  browser : Bool := false
  mouseRotation : Bool := false
  lastMouseDownOnView : Bool := false
  /-- The `ClientHandlerOsr` still forwards to the window. -/
  attached : Bool := true
  uiQueue : List OsrTask := []
  /-- The main thread has posted `CreateBrowser` or `ShowPopup`. -/
  posted : Bool := false
  /-- `OnAfterCreated` and `OnBeforeClose` have been called. -/
  opened : Bool := false
  closed : Bool := false
  creates : Nat := 0
  destroys : Nat := 0
  nullDeref : Bool := false
  /-- `Create` has been run with `hwnd_` set, `Destroy` without. -/
  recreated : Bool := false
  destroyedNone : Bool := false

namespace OsrWindow

def useRender (w : OsrWindow) : OsrWindow := if w.renderHandler then w else { w with nullDeref := true }

def useBrowser (w : OsrWindow) : OsrWindow := if w.browser then w else { w with nullDeref := true }

def create (w : OsrWindow) : OsrWindow :=
  { w with hwnd := true, creates := w.creates + 1, recreated := w.recreated || w.hwnd }

/-- `DestroyWindow` has `WM_NCDESTROY` reset `hwnd_` as well. -/
def destroy (w : OsrWindow) : OsrWindow :=
  { w with
    renderHandler := false
    hwnd := false
    destroys := w.destroys + 1
    destroyedNone := w.destroyedNone || !w.hwnd }

def ensureRenderHandler (w : OsrWindow) : OsrWindow := { w with renderHandler := true }

/-- `Show`, which leaves a window without a browser alone. -/
def «show» (w : OsrWindow) : OsrWindow := if w.browser then w.useBrowser else w

def showPopup (w : OsrWindow) : OsrWindow :=
  let w := w.create
  let w := w.ensureRenderHandler
  let w := w.useRender
  let w := w.useBrowser
  w.show

def onAfterCreated (w : OsrWindow) : OsrWindow :=
  let w := { w with browser := true }
  if w.hwnd then { w.ensureRenderHandler.useRender with uiQueue := w.uiQueue ++ [.show] } else w

def onBeforeClose (w : OsrWindow) : OsrWindow :=
  let w := { w.useBrowser with attached := false, browser := false }
  w.useRender.destroy

/-- `OnPopupShow`, `OnPopupSize`. -/
def onPopup (w : OsrWindow) : OsrWindow := w.useRender

/-- `OnPaint` and `OnAcceleratedPaint` of the browser. -/
def onPaint (w : OsrWindow) : OsrWindow := w.ensureRenderHandler.useRender

/-- `WM_PAINT`. -/
def paintMessage (w : OsrWindow) : OsrWindow := if w.browser then w.useBrowser else w

/-! ### Mouse messages -/

/-- The messages `OnMouseEvent` tells apart; `shift` is `MK_SHIFT`, `own` that the wheel was turned
over the window itself. -/
inductive MouseMessage
  | buttonDown (shift : Bool)
  | buttonUp
  | move
  | leave
  | wheel (own : Bool)
  deriving DecidableEq

/-- What the render handler says of the cursor and its popup widget. -/
structure Cursor where
  hover : Bool
  offset : Bool

def isOverPopupWidget (w : OsrWindow) (c : Cursor) : Bool := w.renderHandler && c.hover

def applyPopupOffset (w : OsrWindow) (c : Cursor) : OsrWindow :=
  if w.isOverPopupWidget c then w.useRender else w

def onMouseEvent (w : OsrWindow) (c : Cursor) : MouseMessage → OsrWindow
  | .buttonDown shift =>
    if shift then { w with mouseRotation := true }
    else if w.browser then
      { w with lastMouseDownOnView := !w.isOverPopupWidget c }.applyPopupOffset c
    else w
  | .buttonUp =>
    if w.mouseRotation then { w with mouseRotation := false }.useRender
    else if w.browser then
      if w.lastMouseDownOnView && w.isOverPopupWidget c then
        -- the popup's offsets are asked for; with one the message ends here
        if c.offset then w.useRender else w.useRender.applyPopupOffset c
      else w.applyPopupOffset c
    else w
  | .move =>
    if w.mouseRotation then w.useRender
    else if w.browser then w.applyPopupOffset c
    else w
  | .leave => w
  | .wheel own => if w.browser && own then w.applyPopupOffset c else w

/-! ### Steps -/

inductive Event
  /-- On the main thread: `CreateRootWindow` posts the first task. -/
  | post
  | runTask
  | onAfterCreated
  | onBeforeClose
  | onPopup
  | onPaint
  | paintMessage
  | mouseMessage (c : Cursor) (m : MouseMessage)

def runTask (w : OsrWindow) : OsrTask → OsrWindow
  | .createBrowser => w.create
  | .showPopup => w.showPopup
  | .show => w.show

/-- A call of the browser, while it is open, through the `ClientHandlerOsr`. -/
def forward (w : OsrWindow) (f : OsrWindow → OsrWindow) : Option OsrWindow :=
  if w.opened && !w.closed then some (if w.attached then f w else w) else none

def step (w : OsrWindow) : Event → Option OsrWindow
  | .post =>
    if w.posted then none
    else some { w with
      posted := true
      uiQueue := w.uiQueue ++ [if w.popup then .showPopup else .createBrowser] }
  | .runTask =>
    match w.uiQueue with
    | [] => none
    | task :: q => some ({ w with uiQueue := q }.runTask task)
  | .onAfterCreated =>
    -- a popup's browser is there from the start, another one is made by `CreateBrowser`
    if !w.opened && (w.popup || decide (0 < w.creates)) then
      some { w with opened := true }.onAfterCreated
    else none
  | .onBeforeClose => (w.forward onBeforeClose).map fun w => { w with closed := true }
  | .onPopup => w.forward onPopup
  | .onPaint => w.forward onPaint
  | .paintMessage => if w.hwnd then some w.paintMessage else none
  | .mouseMessage c m => if w.hwnd then some (w.onMouseEvent c m) else none

/-- A popup is shown while its browser is open, and a browser closes when it has a native window;
the browser shows a popup widget, and the mouse turns the view, when there is a render handler. -/
def Ready (w : OsrWindow) : Event → Prop
  | .runTask => w.uiQueue.head? = some .showPopup → w.browser = true
  | .onBeforeClose => w.hwnd = true
  | .onPopup => w.renderHandler = true
  | .mouseMessage _ m =>
    m = .buttonUp ∨ m = .move → w.mouseRotation = true → w.renderHandler = true
  | _ => True

instance (w : OsrWindow) : (e : Event) → Decidable (Ready w e)
  | .runTask => inferInstanceAs (Decidable (w.uiQueue.head? = some .showPopup → w.browser = true))
  | .onBeforeClose => inferInstanceAs (Decidable (w.hwnd = true))
  | .onPopup => inferInstanceAs (Decidable (w.renderHandler = true))
  | .mouseMessage _ m => inferInstanceAs (Decidable
      (m = .buttonUp ∨ m = .move → w.mouseRotation = true → w.renderHandler = true))
  | .post | .onAfterCreated | .onPaint | .paintMessage => isTrue trivial

/-! ### The invariant -/

variable {w w' : OsrWindow} {e : Event} {as : List Event}

/-- The tasks in the queue that make the native window. -/
def creators (w : OsrWindow) : List OsrTask := w.uiQueue.filter fun t => decide (t ≠ .show)

structure Inv (w : OsrWindow) : Prop where
  nullDeref : w.nullDeref = false
  recreated : w.recreated = false
  destroyedNone : w.destroyedNone = false
  count : w.creates = w.destroys + if w.hwnd then 1 else 0
  browser : w.browser = true ↔ w.opened = true ∧ w.closed = false
  attached : w.closed = false → w.attached = true
  render : w.browser = true → w.hwnd = true → w.renderHandler = true
  /-- One task makes the native window, once. -/
  once : w.creators.length + w.creates = if w.posted then 1 else 0
  kind : ∀ t ∈ w.uiQueue, t = .showPopup ∧ w.popup = true ∨ t = .createBrowser ∧ w.popup = false ∨
    t = .show
  normal : w.popup = false → w.opened = true → 0 < w.creates
  closed : w.closed = true → w.opened = true ∧ w.hwnd = false ∧ w.creates ≠ 0

theorem inv_start (popup : Bool) : Inv { popup } where
  nullDeref := rfl
  recreated := rfl
  destroyedNone := rfl
  count := rfl
  browser := by simp
  attached _ := rfl
  render h := by simp at h
  once := rfl
  kind t ht := by simp at ht
  normal _ h := by simp at h
  closed h := by simp at h

theorem useRender_of (h : w.renderHandler = true) : w.useRender = w := if_pos h

theorem useBrowser_of (h : w.browser = true) : w.useBrowser = w := if_pos h

theorem show_eq (w : OsrWindow) : w.show = w := by
  unfold OsrWindow.show
  split
  exacts [useBrowser_of ‹_›, rfl]

theorem paintMessage_eq (w : OsrWindow) : w.paintMessage = w := by
  unfold paintMessage
  split
  exacts [useBrowser_of ‹_›, rfl]

theorem applyPopupOffset_eq (w : OsrWindow) (c : Cursor) : w.applyPopupOffset c = w := by
  unfold applyPopupOffset
  split
  · rename_i h
    rw [isOverPopupWidget, Bool.and_eq_true] at h
    exact useRender_of h.1
  · rfl

/-- The mouse moves no pointer: only the two flags change. -/
theorem onMouseEvent_eq {c : Cursor} {m : MouseMessage} (hready : Ready w (.mouseMessage c m)) :
    ∃ rotation down, w.onMouseEvent c m =
      { w with mouseRotation := rotation, lastMouseDownOnView := down } := by
  unfold onMouseEvent
  split
  · split
    · exact ⟨true, w.lastMouseDownOnView, rfl⟩
    · split
      · rw [applyPopupOffset_eq]
        exact ⟨w.mouseRotation, _, rfl⟩
      · exact ⟨_, _, rfl⟩
  · split
    · rename_i hrotation
      refine ⟨false, w.lastMouseDownOnView, useRender_of ?_⟩
      exact hready (.inl rfl) hrotation
    · refine ⟨w.mouseRotation, w.lastMouseDownOnView, ?_⟩
      split
      · split
        · rename_i hover
          rw [Bool.and_eq_true, isOverPopupWidget, Bool.and_eq_true] at hover
          rw [useRender_of hover.2.1, applyPopupOffset_eq, ite_self]
        · exact applyPopupOffset_eq w c
      · rfl
  · refine ⟨w.mouseRotation, w.lastMouseDownOnView, ?_⟩
    split
    · rename_i hrotation
      exact useRender_of (hready (.inr rfl) hrotation)
    · split
      exacts [applyPopupOffset_eq w c, rfl]
  · exact ⟨_, _, rfl⟩
  · refine ⟨w.mouseRotation, w.lastMouseDownOnView, ?_⟩
    split
    exacts [applyPopupOffset_eq w c, rfl]

/-- Only the flags of the mouse differ, or the render handler has been made. -/
theorem Inv.congr (hi : Inv w) {rotation down render : Bool} (hr : w.renderHandler = true → render = true) :
    Inv { w with mouseRotation := rotation, lastMouseDownOnView := down, renderHandler := render } :=
  { hi with render := fun hb hh => hr (hi.render hb hh) }

theorem Inv.post (hi : Inv w) (hp : w.posted = false) :
    Inv { w with
      posted := true
      uiQueue := w.uiQueue ++ [if w.popup then .showPopup else .createBrowser] } := by
  refine { hi with once := ?_, kind := ?_ }
  · have honce := hi.once
    rw [hp, if_neg Bool.false_ne_true] at honce
    show (List.filter _ (w.uiQueue ++ [_])).length + w.creates = 1
    rw [List.filter_append, List.length_append]
    have hnew : (List.filter (fun t => decide (t ≠ OsrTask.show))
        [if w.popup then OsrTask.showPopup else .createBrowser]).length = 1 := by
      split <;> rfl
    unfold creators at honce
    omega
  · intro t ht
    rcases List.mem_append.1 ht with ht | ht
    · exact hi.kind t ht
    · rw [List.mem_singleton.1 ht]
      cases w.popup
      exacts [.inr (.inl ⟨rfl, rfl⟩), .inl ⟨rfl, rfl⟩]

/-- The task that makes the native window finds none, and none has been made before. -/
theorem Inv.creator {t : OsrTask} {q : List OsrTask} (hi : Inv w) (hq : w.uiQueue = t :: q)
    (ht : t ≠ .show) : w.hwnd = false ∧ w.creates = 0 ∧ w.destroys = 0 ∧ w.posted = true ∧
      (q.filter fun t => decide (t ≠ .show)) = [] := by
  have honce := hi.once
  have hcount := hi.count
  unfold creators at honce
  rw [hq, List.filter_cons_of_pos (by simpa using ht), List.length_cons] at honce
  have hposted : w.posted = true := by
    by_contra hp
    rw [if_neg hp] at honce
    omega
  rw [if_pos hposted] at honce
  have hhwnd : w.hwnd = false := by
    by_contra hh
    rw [if_pos (by simpa using hh)] at hcount
    omega
  rw [hhwnd, if_neg Bool.false_ne_true] at hcount
  refine ⟨hhwnd, by omega, by omega, hposted, List.length_eq_zero_iff.1 (by omega)⟩

/-- `Create`, with or without a render handler: the window has its browser when it needs one. -/
theorem Inv.created {t : OsrTask} {q : List OsrTask} {r : Bool} (hi : Inv w)
    (hq : w.uiQueue = t :: q) (ht : t ≠ .show) (hr : w.browser = true → r = true) :
    Inv { w with
      uiQueue := q
      hwnd := true
      renderHandler := r
      creates := w.creates + 1
      recreated := w.recreated || w.hwnd } := by
  obtain ⟨hhwnd, hcreates, hdestroys, hposted, hrest⟩ := hi.creator hq ht
  refine ⟨hi.nullDeref, ?_, hi.destroyedNone, ?_, hi.browser, hi.attached, fun hb _ => hr hb, ?_, ?_,
    fun _ _ => Nat.succ_pos _, ?_⟩
  · show (w.recreated || w.hwnd) = false
    rw [hi.recreated, hhwnd]
    rfl
  · show w.creates + 1 = w.destroys + 1
    omega
  · show (q.filter _).length + (w.creates + 1) = if w.posted then 1 else 0
    rw [hrest, hcreates, hposted]
    rfl
  · exact fun t ht => hi.kind t (by rw [hq]; exact .tail _ ht)
  · intro hc
    exact absurd hcreates (hi.closed hc).2.2

theorem Inv.createBrowser {q : List OsrTask} (hi : Inv w) (hq : w.uiQueue = .createBrowser :: q) :
    Inv ({ w with uiQueue := q }.runTask .createBrowser) := by
  refine hi.created (r := w.renderHandler) hq (by decide) fun hb => ?_
  -- the browser comes after its `CreateBrowser`
  have hcreates := (hi.creator hq (by decide)).2.1
  have hnormal : w.popup = false := by
    rcases hi.kind .createBrowser (by rw [hq]; exact .head _) with ⟨h, -⟩ | ⟨-, h⟩ | h
    · cases h
    · exact h
    · cases h
  have hpos := hi.normal hnormal (hi.browser.1 hb).1
  omega

theorem showPopup_eq (hb : w.browser = true) : w.showPopup =
    { w with
      hwnd := true
      renderHandler := true
      creates := w.creates + 1
      recreated := w.recreated || w.hwnd } := by
  have hb' : w.create.ensureRenderHandler.browser = true := hb
  unfold OsrWindow.showPopup
  dsimp only
  rw [show_eq, useRender_of rfl, useBrowser_of hb']
  rfl

theorem Inv.showPopup {q : List OsrTask} (hi : Inv w) (hq : w.uiQueue = .showPopup :: q)
    (hb : w.browser = true) : Inv ({ w with uiQueue := q }.runTask .showPopup) := by
  have hb' : { w with uiQueue := q }.browser = true := hb
  rw [runTask, showPopup_eq hb']
  exact hi.created (r := true) hq (by decide) fun _ => rfl

theorem Inv.show {q : List OsrTask} (hi : Inv w) (hq : w.uiQueue = .show :: q) :
    Inv ({ w with uiQueue := q }.runTask .show) := by
  rw [runTask, show_eq]
  refine { hi with once := ?_, kind := ?_ }
  · have honce := hi.once
    unfold creators at honce
    rwa [hq, List.filter_cons_of_neg (by simp)] at honce
  · exact fun t ht => hi.kind t (by rw [hq]; exact .tail _ ht)

theorem Inv.onAfterCreated (hi : Inv w) (ho : w.opened = false)
    (hc : w.popup = true ∨ 0 < w.creates) : Inv { w with opened := true }.onAfterCreated := by
  have hclosed : w.closed = false := by
    by_contra h
    rw [(hi.closed (by simpa using h)).1] at ho
    cases ho
  have hnormal : w.popup = false → 0 < w.creates := by
    intro hp
    rcases hc with hc | hc
    · rw [hp] at hc
      cases hc
    · exact hc
  unfold OsrWindow.onAfterCreated
  dsimp only
  split
  · rename_i hh
    rw [useRender_of rfl]
    refine ⟨hi.nullDeref, hi.recreated, hi.destroyedNone, hi.count, ?_, hi.attached, fun _ _ => rfl, ?_,
      ?_, fun hp _ => hnormal hp, ?_⟩
    · exact ⟨fun _ => ⟨rfl, hclosed⟩, fun _ => rfl⟩
    · have honce := hi.once
      show (List.filter _ (w.uiQueue ++ [.show])).length + w.creates = _
      rw [List.filter_append, List.filter_cons_of_neg (by simp), List.filter_nil, List.append_nil]
      exact honce
    · intro t ht
      rcases List.mem_append.1 ht with ht | ht
      exacts [hi.kind t ht, .inr (.inr (List.mem_singleton.1 ht))]
    · intro h
      rw [show w.closed = true from h] at hclosed
      cases hclosed
  · rename_i hh
    refine ⟨hi.nullDeref, hi.recreated, hi.destroyedNone, hi.count, ?_, hi.attached, ?_, hi.once,
      hi.kind, fun hp _ => hnormal hp, ?_⟩
    · exact ⟨fun _ => ⟨rfl, hclosed⟩, fun _ => rfl⟩
    · exact fun _ h => absurd h hh
    · intro h
      rw [show w.closed = true from h] at hclosed
      cases hclosed

theorem Inv.onBeforeClose (hi : Inv w) (ho : w.opened = true) (hc : w.closed = false)
    (hh : w.hwnd = true) : Inv { w.onBeforeClose with closed := true } := by
  have hb := hi.browser.2 ⟨ho, hc⟩
  have hcount := hi.count
  rw [hh, if_pos rfl] at hcount
  have heq : w.onBeforeClose =
      { w with
        attached := false
        browser := false
        renderHandler := false
        hwnd := false
        destroys := w.destroys + 1
        destroyedNone := w.destroyedNone || !w.hwnd } := by
    have hr : { w with attached := false, browser := false }.renderHandler = true := hi.render hb hh
    unfold OsrWindow.onBeforeClose
    rw [useBrowser_of hb]
    dsimp only
    rw [useRender_of hr]
    rfl
  rw [heq]
  refine ⟨hi.nullDeref, hi.recreated, ?_, ?_, ?_, ?_, ?_, hi.once, hi.kind, hi.normal, ?_⟩
  · show (w.destroyedNone || !w.hwnd) = false
    rw [hi.destroyedNone, hh]
    rfl
  · exact hcount
  · constructor
    · intro h
      cases h
    · rintro ⟨-, h⟩
      cases h
  · intro h
    cases h
  · intro h
    cases h
  · refine fun _ => ⟨ho, rfl, ?_⟩
    show w.creates ≠ 0
    omega

theorem Inv.forward {f : OsrWindow → OsrWindow} (hi : Inv w) (hf : w.forward f = some w') :
    w.opened = true ∧ w.closed = false ∧ w' = f w := by
  unfold OsrWindow.forward at hf
  split at hf
  · rename_i h
    rw [Bool.and_eq_true, Bool.not_eq_true'] at h
    rw [if_pos (hi.attached h.2)] at hf
    exact ⟨h.1, h.2, (Option.some.inj hf).symm⟩
  · cases hf

theorem Inv.step (hi : Inv w) (hready : Ready w e) (hs : OsrWindow.step w e = some w') : Inv w' := by
  unfold OsrWindow.step at hs
  split at hs
  · split at hs <;> cases hs
    exact hi.post (Bool.eq_false_iff.2 ‹_›)
  · split at hs
    · cases hs
    · rename_i task q hq
      cases hs
      cases task with
      | createBrowser => exact hi.createBrowser hq
      | showPopup => exact hi.showPopup hq (hready (by rw [hq]; rfl))
      | «show» => exact hi.show hq
  · split at hs <;> cases hs
    rename_i h
    rw [Bool.and_eq_true, Bool.not_eq_true', Bool.or_eq_true, decide_eq_true_eq] at h
    exact hi.onAfterCreated h.1 h.2
  · obtain ⟨w₁, hf, rfl⟩ := Option.map_eq_some_iff.1 hs
    obtain ⟨ho, hc, rfl⟩ := hi.forward hf
    exact hi.onBeforeClose ho hc hready
  · obtain ⟨-, -, rfl⟩ := hi.forward hs
    rw [onPopup, useRender_of hready]
    exact hi
  · obtain ⟨-, -, rfl⟩ := hi.forward hs
    rw [onPaint, useRender_of rfl]
    exact hi.congr fun _ => rfl
  · split at hs <;> cases hs
    rw [paintMessage_eq]
    exact hi
  · split at hs <;> cases hs
    obtain ⟨rotation, down, heq⟩ := onMouseEvent_eq hready
    rw [heq]
    exact hi.congr id

/-- No pointer is used while it is null, `Create` finds no native window and `Destroy` one, and each
`Create` is followed by its `Destroy`, at the latest when the browser has closed. -/
structure Lifecycle (w : OsrWindow) : Prop where
  nullDeref : w.nullDeref = false
  recreated : w.recreated = false
  destroyedNone : w.destroyedNone = false
  paired : w.creates = w.destroys + if w.hwnd then 1 else 0
  destroyed : w.closed = true → w.creates = w.destroys

theorem osrWindow_lifecycle {popup : Bool} (hr : Lts.Run OsrWindow.step Ready { popup } as w) :
    Lifecycle w := by
  have hi : Inv w := hr.inv (I := Inv) (fun _ _ _ hi hready hs => hi.step hready hs) (inv_start popup)
  refine ⟨hi.nullDeref, hi.recreated, hi.destroyedNone, hi.count, fun hc => ?_⟩
  have hcount := hi.count
  rwa [(hi.closed hc).2.1, if_neg Bool.false_ne_true] at hcount

/-- A popup that is painted before it is shown. -/
theorem osrWindow_lifecycle_popup : ∃ w, Lts.Run OsrWindow.step Ready { popup := true }
      [.onAfterCreated, .post, .onPaint, .runTask, .onPopup,
        .mouseMessage ⟨true, true⟩ (.buttonDown true), .mouseMessage ⟨true, true⟩ .move,
        .onBeforeClose] w ∧
    w.creates = 1 ∧ Lifecycle w := by
  obtain ⟨w, hs, hw⟩ : ∃ w, Lts.exec (Lts.checked OsrWindow.step Ready) { popup := true }
      [.onAfterCreated, .post, .onPaint, .runTask, .onPopup,
        .mouseMessage ⟨true, true⟩ (.buttonDown true), .mouseMessage ⟨true, true⟩ .move,
        .onBeforeClose] = some w ∧ w.creates = 1 := ⟨_, rfl, rfl⟩
  have hr := Lts.run_of_checked hs
  exact ⟨w, hr, hw, osrWindow_lifecycle hr⟩

/-- The popup's browser closes before it is shown. -/
theorem popup_closed_before_shown :
    ¬ ∀ popup as w, Lts.Run OsrWindow.step Lts.Any { popup } as w → Lifecycle w := by
  intro h
  obtain ⟨w, hs, hnull⟩ : ∃ w, Lts.exec OsrWindow.step { popup := true }
      [.onAfterCreated, .post, .onBeforeClose, .runTask] = some w ∧ w.nullDeref = true :=
    ⟨_, rfl, rfl⟩
  have hsafe := (h true _ w (Lts.run_of_exec hs)).nullDeref
  rw [hnull] at hsafe
  cases hsafe

end OsrWindow

end NplBrowser
