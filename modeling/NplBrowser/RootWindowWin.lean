import NplBrowser.Lib.Run
import NplBrowser.Bytes
import NplBrowser.Double

/-!
# A root window (`root_window_win.cc`)

The methods of `RootWindowWin` that show, move, close and tear down the window. Every use of a member
goes through `member` or `setMember`, which record a use after the delegate's `OnRootWindowDestroyed`
has returned: the delegate drops its reference there, and nothing else need keep the object alive.

The native window goes away in two steps. `DestroyWindow` begins to destroy it, with the user data
still in place, and messages may reach the object meanwhile; `WM_NCDESTROY` ends it. The browser may
be closed before, after or in between, and if `OnBrowserWindowDestroyed` calls `DestroyWindow` on a
window that is being destroyed already, that may end at once or do nothing. The invariant
(`RootWindowWin.Inv`) ties each of the two flags to its half of the teardown, so that the
notification comes with the second half and never again.
-/

namespace NplBrowser

/-- What the system keeps of the native window. -/
inductive Native
  | none | alive | destroying | gone
deriving DecidableEq

/-- The browser, as the UI thread has reported it. -/
inductive Page
  | none | creating | open | closed
deriving DecidableEq

/-- What the code has last asked for: of the window, that the system show or hide it, where, and whether it
takes input, of the browser a URL and a zoom level. What the system makes of it is left out: that
`SW_SHOWNORMAL` restores a window that is minimized or maximized, and the sizes it does not allow. -/
structure Look where
  visible : Bool := false
  bounds : Int32 × Int32 × Int32 × Int32 := (0, 0, 0, 0)
  enabled : Bool := true
  url : Bytes := []
  zoom : Double := .zero

structure RootWindowWin where
  isPopup : Bool := false
  withExtension : Bool := false
  /-- `hwnd_` is not NULL. -/
  hwnd : Bool := false
  /-- `browser_window_` is there, and whether its `browser_` is. -/
  browserWindow : Bool := true
  browser : Bool := false
  windowDestroyed : Bool := false
  browserDestroyed : Bool := false
  native : Native := .none
  page : Page := .none
  look : Look := {}
  /-- The two flags at each call of the delegate's `OnRootWindowDestroyed`. -/
  notified : List (Bool × Bool) := []
  /-- A member was used after such a call. -/
  misuse : Bool := false

namespace RootWindowWin

/-- Code of the class, on the one object. -/
def M (α : Type) := RootWindowWin → α × RootWindowWin

namespace M

variable {α β : Type}

instance : Monad M where
  pure a w := (a, w)
  bind m f w := f (m w).1 (m w).2

/-- What the system knows, and what it does. -/
def get : M RootWindowWin := fun w => (w, w)
def modify (f : RootWindowWin → RootWindowWin) : M Unit := fun w => ((), f w)

def run (m : M α) (w : RootWindowWin) : α × RootWindowWin := m w

@[simp] theorem run_pure (a : α) (w : RootWindowWin) : (pure a : M α).run w = (a, w) := rfl
@[simp] theorem run_bind (m : M α) (f : α → M β) (w : RootWindowWin) :
    (m >>= f).run w = (f (m.run w).1).run (m.run w).2 := rfl
@[simp] theorem run_get (w : RootWindowWin) : get.run w = (w, w) := rfl
@[simp] theorem run_modify (f : RootWindowWin → RootWindowWin) (w : RootWindowWin) :
    (modify f).run w = ((), f w) := rfl
@[simp] theorem run_ite (c : Prop) [Decidable c] (m n : M α) (w : RootWindowWin) :
    (if c then m else n).run w = if c then m.run w else n.run w := by
  split <;> rfl

end M

def freed (w : RootWindowWin) : Bool := !w.notified.isEmpty

def member {α : Type} (f : RootWindowWin → α) : M α := fun w =>
  (f w, { w with misuse := w.freed || w.misuse })

def setMember (f : RootWindowWin → RootWindowWin) : M Unit := fun w =>
  ((), f { w with misuse := w.freed || w.misuse })

/-- `delegate_->OnRootWindowDestroyed(this)`. -/
def onRootWindowDestroyed : M Unit := fun w =>
  ((), { w with notified := w.notified ++ [(w.windowDestroyed, w.browserDestroyed)] })

def notifyDestroyedIfDone : M Unit := do
  if ← member (·.windowDestroyed) then
    if ← member (·.browserDestroyed) then
      onRootWindowDestroyed

def onDestroyed : M Unit := do
  setMember ({ · with windowDestroyed := true })
  notifyDestroyedIfDone

/-- `WM_NCDESTROY`: the user data is cleared, so no later message finds the object. -/
def ncDestroy : M Unit := do
  M.modify ({ · with native := .gone })
  setMember ({ · with hwnd := false })
  onDestroyed

/-- `DestroyWindow(hwnd_)`; `again` says what it does to a window that is being destroyed. -/
def destroyWindow (again : Bool) : M Unit := do
  match (← M.get).native with
  | .alive => ncDestroy
  | .destroying => if again then ncDestroy
  | _ => pure ()

/-- `Close(force)`; without force it posts `WM_CLOSE`, which changes nothing yet. -/
def close (force : Bool) (again : Bool := false) : M Unit := do
  if ← member (·.hwnd) then
    if force then destroyWindow again

def onBrowserWindowDestroyed (again : Bool) : M Unit := do
  setMember ({ · with browserWindow := false, browser := false })
  if !(← member (·.windowDestroyed)) then
    close true again
  setMember ({ · with browserDestroyed := true })
  notifyDestroyedIfDone

/-- `GetBrowser()` is not null. -/
def getBrowser : M Bool := member fun w => w.browserWindow && w.browser

def showNormal : M Unit := do
  if ← member (·.hwnd) then
    M.modify fun w => { w with look := { w.look with visible := true } }

def hide : M Unit := do
  if ← member (·.hwnd) then
    M.modify fun w => { w with look := { w.look with visible := false } }

def setBounds (x y width height : Int32) : M Unit := do
  if ← member (·.hwnd) then
    M.modify fun w => { w with look := { w.look with bounds := (x, y, width, height) } }

/-- `::EnableWindow(GetWindowHandle(), enabled)`. -/
def enableWindow (enabled : Bool) : M Unit := do
  if ← member (·.hwnd) then
    M.modify fun w => { w with look := { w.look with enabled } }

/-- `CreateRootWindow`; `OnCreate` starts the browser of a window that is not a popup. -/
def createRootWindow : M Unit := do
  M.modify ({ · with native := .alive })
  setMember ({ · with hwnd := true })
  if !(← member (·.isPopup)) then
    M.modify ({ · with page := .creating })

/-- A message or a notification that makes the object use its members. -/
def touch : M Unit := do
  let _ ← member id

/-- `BrowserWindow::OnBrowserCreated`, and what the root window does then: a popup gets its native
window, another one is sized. -/
def onBrowserCreated : M Unit := do
  setMember ({ · with browser := true })
  if ← member (·.isPopup) then
    createRootWindow
  else
    touch

/-! ### The teardown -/

inductive Event
  | createRootWindow
  | browserCreated
  | touch
  | beginDestroy
  | ncDestroy
  | browserClosed (again : Bool)

/-- One event on the main thread, where it is possible: messages find the object as long as the
native window has the user data, notifications as long as the browser's delegate is attached. -/
def step (w : RootWindowWin) (e : Event) : Option RootWindowWin :=
  match e with
  | .createRootWindow =>
    if !w.isPopup ∧ w.native = .none then some (createRootWindow.run w).2 else none
  | .browserCreated =>
    if w.page = .creating then some (onBrowserCreated.run { w with page := .open }).2 else none
  | .touch =>
    if w.native = .alive ∨ w.native = .destroying ∨ w.page = .open then some (touch.run w).2 else none
  | .beginDestroy => if w.native = .alive then some { w with native := .destroying } else none
  | .ncDestroy => if w.native = .destroying then some (ncDestroy.run w).2 else none
  | .browserClosed again =>
    if w.page = .open then some ((onBrowserWindowDestroyed again).run { w with page := .closed }).2
    else none

/-- Just constructed; the browser of a popup is being created already. -/
def init (isPopup withExtension : Bool) : RootWindowWin :=
  { isPopup, withExtension, page := if isPopup then .creating else .none }

/-! #### The two halves, on an object that is still there -/

section
variable {w : RootWindowWin}

theorem freed_eq_false (h : w.freed = false) : w.notified = [] := by
  simpa [freed] using h

theorem ncDestroy_run (h : w.freed = false) :
    (ncDestroy.run w).2 =
      let w' := { w with native := .gone, hwnd := false, windowDestroyed := true }
      if w.browserDestroyed = true then { w' with notified := [(true, true)] } else w' := by
  have hn := freed_eq_false h
  obtain ⟨_, _, _, _, _, _, browserDestroyed, _, _, _, _, _⟩ := w
  cases hn
  cases browserDestroyed <;> rfl

theorem member_run {α : Type} (f : RootWindowWin → α) (h : w.freed = false) :
    (member f).run w = (f w, w) := by
  simp [M.run, member, h]

/-- On an object in which nothing has been notified yet, a member is just read. -/
theorem member_run_nil {α : Type} (f : RootWindowWin → α) (p e hw bw b wd bd : Bool) (n : Native)
    (pg : Page) (l : Look) (m : Bool) :
    (member f).run ⟨p, e, hw, bw, b, wd, bd, n, pg, l, [], m⟩ =
      (f ⟨p, e, hw, bw, b, wd, bd, n, pg, l, [], m⟩, ⟨p, e, hw, bw, b, wd, bd, n, pg, l, [], m⟩) := rfl

theorem close_run (h : w.freed = false) : (close true).run w =
    ((), if w.hwnd = true ∧ w.native = .alive then (ncDestroy.run w).2 else w) := by
  cases hh : w.hwnd <;> cases hn : w.native <;> simp [close, destroyWindow, member_run _ h, hh, hn]

theorem touch_run (h : w.freed = false) : (touch.run w).2 = w := by
  simp [touch, member_run _ h]

theorem createRootWindow_run (h : w.freed = false) (hp : w.isPopup = false) :
    (createRootWindow.run w).2 = { w with native := .alive, hwnd := true, page := .creating } := by
  have hn := freed_eq_false h
  obtain ⟨_, _, _, _, _, _, _, _, _, _, _, _⟩ := w
  cases hn
  cases hp
  rfl

theorem onBrowserCreated_run (h : w.freed = false) :
    (onBrowserCreated.run w).2 =
      if w.isPopup = true then { w with browser := true, native := .alive, hwnd := true }
      else { w with browser := true } := by
  have hn := freed_eq_false h
  obtain ⟨isPopup, _, _, _, _, _, _, _, _, _, _, _⟩ := w
  cases hn
  cases isPopup <;> rfl

/-- The browser's half: a window still there goes first, with the browser's flag not yet set, so that
the notification is the last thing the method does. -/
theorem onBrowserWindowDestroyed_run (again : Bool) (h : w.freed = false)
    (hb : w.browserDestroyed = false) (hw : w.windowDestroyed = true ↔ w.native = .gone)
    (hh : w.hwnd = true ↔ w.native = .alive ∨ w.native = .destroying) :
    ((onBrowserWindowDestroyed again).run w).2 =
      let w' := { w with browserWindow := false, browser := false, browserDestroyed := true }
      if w.native = .alive ∨ (w.native = .destroying ∧ again = true) then
        { w' with native := .gone, hwnd := false, windowDestroyed := true, notified := [(true, true)] }
      else if w.native = .gone then { w' with notified := [(true, true)] } else w' := by
  have hn := freed_eq_false h
  obtain ⟨_, _, hwnd, _, _, windowDestroyed, _, native, _, _, _, _⟩ := w
  cases hn
  cases hb
  have hw' : windowDestroyed = decide (native = .gone) := by
    rw [Bool.eq_iff_iff, decide_eq_true_iff]; exact hw
  have hh' : hwnd = decide (native = .alive ∨ native = .destroying) := by
    rw [Bool.eq_iff_iff, decide_eq_true_iff]; exact hh
  subst hw' hh'
  cases native <;> cases again <;> rfl

end

/-! #### The invariant -/

/-- Each flag stands for its half, the handle for a window that is there, the pointers for a browser
that is, and the one notification for both halves. -/
structure Inv (w : RootWindowWin) : Prop where
  windowDestroyed : w.windowDestroyed = true ↔ w.native = .gone
  browserDestroyed : w.browserDestroyed = true ↔ w.page = .closed
  hwnd : w.hwnd = true ↔ w.native = .alive ∨ w.native = .destroying
  notified : w.notified = if w.native = .gone ∧ w.page = .closed then [(true, true)] else []
  misuse : w.misuse = false
  fresh : w.native = .none → if w.isPopup = true then w.page = .creating else w.page = .none
  popup : w.isPopup = true → w.page = .creating → w.native = .none
  browserWindow : w.browserWindow = true ↔ w.page ≠ .closed
  browser : w.browser = true ↔ w.page = .open
  alive : w.native = .alive → w.page = .creating ∨ w.page = .open

namespace Inv

variable {w w' : RootWindowWin}

theorem freed (h : w.Inv) : w.freed = decide (w.native = .gone ∧ w.page = .closed) := by
  rw [RootWindowWin.freed, h.notified]
  by_cases hc : w.native = .gone ∧ w.page = .closed
  · simp [hc]
  · simp [hc]

theorem page_of_freed (h : w.Inv) (hf : w.freed = true) : w.page = .closed := by
  rw [h.freed, decide_eq_true_eq] at hf
  exact hf.2

theorem init (isPopup withExtension : Bool) : (RootWindowWin.init isPopup withExtension).Inv := by
  cases isPopup <;> exact ⟨by simp [RootWindowWin.init], by simp [RootWindowWin.init],
    by simp [RootWindowWin.init], by simp [RootWindowWin.init], rfl, fun _ => rfl,
    by simp [RootWindowWin.init], by simp [RootWindowWin.init], by simp [RootWindowWin.init], nofun⟩

theorem createRootWindow (h : w.Inv) (hp : w.isPopup = false) (hn : w.native = .none) :
    (RootWindowWin.createRootWindow.run w).2.Inv := by
  have hpage : w.page = .none := by simpa [hp] using h.fresh hn
  have hw : w.windowDestroyed = false := by simpa [hn] using h.windowDestroyed
  have hb : w.browserDestroyed = false := by simpa [hpage] using h.browserDestroyed
  have hnot : w.notified = [] := by rw [h.notified, if_neg (by simp [hn])]
  rw [createRootWindow_run (by simp [h.freed, hn]) hp]
  exact ⟨by simp [hw], by simp [hb], by simp, by simp [hnot], h.misuse, nofun, by simp [hp],
    by simpa [hpage] using h.browserWindow, by simpa [hpage] using h.browser, fun _ => .inl rfl⟩

theorem onBrowserCreated (h : w.Inv) (hpage : w.page = .creating) :
    (RootWindowWin.onBrowserCreated.run { w with page := .open }).2.Inv := by
  have hb : w.browserDestroyed = false := by simpa [hpage] using h.browserDestroyed
  have hnot : w.notified = [] := by rw [h.notified, if_neg (by simp [hpage])]
  have hbw : w.browserWindow = true := h.browserWindow.2 (by simp [hpage])
  rw [onBrowserCreated_run (by simp [RootWindowWin.freed, hnot])]
  cases hp : w.isPopup with
  | true =>
    have hw : w.windowDestroyed = false := by simpa [h.popup hp hpage] using h.windowDestroyed
    exact ⟨by simp [hw], by simp [hb], by simp, by simp [hnot], h.misuse, nofun, nofun, by simp [hbw],
      by simp, fun _ => .inr rfl⟩
  | false =>
    have hn : w.native ≠ .none := fun hn => by simpa [hp, hpage] using h.fresh hn
    exact ⟨h.windowDestroyed, by simp [hb], h.hwnd, by simp [hnot], h.misuse, fun h => absurd h hn,
      nofun, by simp [hbw], by simp, fun _ => .inr rfl⟩

theorem ncDestroy (h : w.Inv) (hn : w.native = .alive ∨ w.native = .destroying) :
    (RootWindowWin.ncDestroy.run w).2.Inv := by
  have hgone : w.native ≠ .gone := by rcases hn with hn | hn <;> simp [hn]
  have hnot : w.notified = [] := by rw [h.notified, if_neg fun h => hgone h.1]
  have hpop : w.isPopup = true → w.page ≠ .creating := fun hp hc => by
    have := h.popup hp hc
    rcases hn with hn | hn <;> simp [hn] at this
  rw [ncDestroy_run (by simp [RootWindowWin.freed, hnot])]
  cases hb : w.browserDestroyed with
  | true =>
    have hc := h.browserDestroyed.1 hb
    exact ⟨by simp, by simp [hc], by simp, by simp [hc], h.misuse, nofun,
      fun hp hc => absurd hc (hpop hp), h.browserWindow, h.browser, nofun⟩
  | false =>
    have hc : w.page ≠ .closed := fun hc => by simpa [hb] using h.browserDestroyed.2 hc
    exact ⟨by simp, by simp [hc], by simp, by simp [hnot, hc], h.misuse, nofun,
      fun hp hc => absurd hc (hpop hp), h.browserWindow, h.browser, nofun⟩

theorem onBrowserWindowDestroyed (again : Bool) (h : w.Inv) (hpage : w.page = .open) :
    ((RootWindowWin.onBrowserWindowDestroyed again).run { w with page := .closed }).2.Inv := by
  have hb : w.browserDestroyed = false := by simpa [hpage] using h.browserDestroyed
  have hnot : w.notified = [] := by rw [h.notified, if_neg (by simp [hpage])]
  have hn : w.native ≠ .none := fun hn => by
    have := h.fresh hn
    split at this <;> simp [hpage] at this
  rw [onBrowserWindowDestroyed_run (w := { w with page := .closed }) again
    (by simp [RootWindowWin.freed, hnot]) hb h.windowDestroyed h.hwnd]
  by_cases hdes : w.native = .alive ∨ (w.native = .destroying ∧ again = true)
  · simp only [if_pos hdes]
    exact ⟨by simp, by simp, by simp, by simp, h.misuse, nofun, nofun, by simp, by simp, nofun⟩
  · simp only [if_neg hdes]
    by_cases hgone : w.native = .gone
    · simp only [if_pos hgone]
      exact ⟨h.windowDestroyed, by simp, h.hwnd, by simp [hgone], h.misuse, fun h => absurd h hn, nofun,
        by simp, by simp, fun h => by simp [hgone] at h⟩
    · simp only [if_neg hgone]
      exact ⟨h.windowDestroyed, by simp, h.hwnd, by simp [hgone, hnot], h.misuse,
        fun h => absurd h hn, nofun, by simp, by simp, fun h => absurd (.inl h) hdes⟩

/-- What the user sees is not part of it. -/
theorem look (h : w.Inv) (l : Look) : Inv { w with look := l } :=
  ⟨h.windowDestroyed, h.browserDestroyed, h.hwnd, h.notified, h.misuse, h.fresh, h.popup,
    h.browserWindow, h.browser, h.alive⟩

theorem step {e : Event} (h : w.Inv) (hs : w.step e = some w') : w'.Inv := by
  cases e with
  | createRootWindow =>
    simp only [RootWindowWin.step, Option.ite_none_right_eq_some, Bool.not_eq_true'] at hs
    obtain ⟨⟨hp, hn⟩, hs⟩ := hs
    cases hs
    exact h.createRootWindow hp hn
  | browserCreated =>
    simp only [RootWindowWin.step, Option.ite_none_right_eq_some] at hs
    obtain ⟨hpage, hs⟩ := hs
    cases hs
    exact h.onBrowserCreated hpage
  | touch =>
    simp only [RootWindowWin.step, Option.ite_none_right_eq_some] at hs
    obtain ⟨hen, hs⟩ := hs
    cases hs
    -- neither half is done, or not both of them
    have hfreed : w.freed = false := by
      rw [h.freed, decide_eq_false_iff_not]
      rintro ⟨hn, hc⟩
      simp [hn, hc] at hen
    rw [touch_run hfreed]
    exact h
  | beginDestroy =>
    simp only [RootWindowWin.step, Option.ite_none_right_eq_some] at hs
    obtain ⟨hn, hs⟩ := hs
    cases hs
    exact ⟨by simpa [hn] using h.windowDestroyed, h.browserDestroyed, by simpa [hn] using h.hwnd,
      by simpa [hn] using h.notified, h.misuse, nofun, fun hp hc => by simpa [hn] using h.popup hp hc,
      h.browserWindow, h.browser, nofun⟩
  | ncDestroy =>
    simp only [RootWindowWin.step, Option.ite_none_right_eq_some] at hs
    obtain ⟨hn, hs⟩ := hs
    cases hs
    exact h.ncDestroy (.inr hn)
  | browserClosed again =>
    simp only [RootWindowWin.step, Option.ite_none_right_eq_some] at hs
    obtain ⟨hpage, hs⟩ := hs
    cases hs
    exact h.onBrowserWindowDestroyed again hpage

end Inv

/-- In every run the delegate is told at most once, with both flags set, no member is used
afterwards, and when both the native window and the browser are gone it has been told. -/
theorem teardown {isPopup withExtension : Bool} {es : List Event} {w : RootWindowWin}
    (hrun : Lts.Run step Lts.Any (init isPopup withExtension) es w) :
    w.misuse = false ∧
      w.notified = if w.native = .gone ∧ w.page = .closed then [(true, true)] else [] := by
  have h : w.Inv := hrun.inv (fun _ _ _ h _ hs => h.step hs) (.init isPopup withExtension)
  exact ⟨h.misuse, h.notified⟩

/-- The browser closes while its window is being destroyed. -/
theorem teardown_nested : ∃ w, Lts.exec step (init false false)
      [.createRootWindow, .browserCreated, .beginDestroy, .browserClosed true] = some w ∧
    w.misuse = false ∧ w.notified = [(true, true)] := by
  obtain ⟨w, hw⟩ : ∃ w, Lts.exec step (init false false)
      [.createRootWindow, .browserCreated, .beginDestroy, .browserClosed true] = some w := ⟨_, rfl⟩
  have h := teardown (Lts.run_of_exec hw)
  refine ⟨w, hw, ?_⟩
  cases hw
  exact h

end RootWindowWin
end NplBrowser
