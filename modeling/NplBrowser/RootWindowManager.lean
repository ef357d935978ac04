import Mathlib.Logic.Function.Basic
import NplBrowser.Command

/-!
# The windows of a process (`root_window_manager.cc`)

One client process: its root windows, the manager that keeps a reference to each of them, and the
two threads. The main thread runs the tasks of `mainQueue` one after the other; messages for a native
window reach it between any two of them, as long as the window has its user data. The UI thread
creates and closes browsers and reports both to the main thread through the same queue.

A window is named by its number, an extension by its identifier; one that cannot be loaded directly
has no window and is left out. `rootWindows` is a set in the source, ordered by address, on which
nothing depends. The configuration of a window that only its looks depend on is left out too.
-/

namespace NplBrowser

inductive MainTask
  | createRootWindow (w : Nat)
  | onRootWindowCreated (w : Nat)
  | notifyBrowserCreated (w : Nat)
  | notifyBrowserClosed (w : Nat)
  | handleCustomTask (w : Nat) (input : Json)
  | postQuitMessage

inductive UiTask
  | modifyZoom (w : Nat) (zoom : Double)
  | cleanupOnUIThread

structure Cefclient where
  terminateWhenAllWindowsClosed : Bool := true
  created : Nat := 0
  window : Nat → RootWindowWin := fun _ => {}
  /-- The browser of a window, as the UI thread knows it. -/
  page : Nat → Page := fun _ => .none
  /-- The extension that the browser of a window hosts. -/
  extension : Nat → Option Bytes := fun _ => none
  rootWindows : List Nat := []
  extensions : List Bytes := []
  activeRootWindow : Option Nat := none
  /-- The window whose browser is active. -/
  activeBrowser : Option Nat := none
  files : Bytes → File := fun _ => none
  inst : Option CefClientConfig := none
  mainQueue : List MainTask := []
  uiQueue : List UiTask := []
  /-- `WM_QUIT` has been posted. -/
  quit : Bool := false
  /-- A destroyed window was not found in `root_windows_`. -/
  missing : Bool := false
  /-- A command was run on a destroyed window. -/
  stale : Bool := false
  /-- An exception has left the message loop. -/
  crashed : Bool := false

namespace Cefclient

/-! ### The manager -/

def getBrowser (s : Cefclient) (w : Nat) : Bool := (s.window w).browserWindow && (s.window w).browser

def hasRootWindowAsExtension (s : Cefclient) (extension : Bytes) : Bool :=
  s.rootWindows.any fun w =>
    (s.window w).withExtension && s.getBrowser w && s.extension w == some extension

/-- A new window, numbered `created`. -/
def add (s : Cefclient) (win : RootWindowWin) (page : Page) (extension : Option Bytes) : Cefclient :=
  { s with
    created := s.created + 1
    window := Function.update s.window s.created win
    page := Function.update s.page s.created page
    extension := Function.update s.extension s.created extension }

/-- `root_windows_.insert(root_window)`. -/
def insert (s : Cefclient) (w : Nat) : Cefclient :=
  { s with rootWindows := if w ∈ s.rootWindows then s.rootWindows else w :: s.rootWindows }

/-- `Init` on the main thread: the native window is there at once, the browser is on its way. -/
def init (s : Cefclient) (extension : Option Bytes) : Cefclient :=
  s.add (RootWindowWin.createRootWindow.run (.init false extension.isSome)).2 .creating extension

/-- All that `OnRootWindowCreated` does with an extension window is to insert it. -/
def createExtensionWindow (s : Cefclient) (extension : Bytes) : Cefclient :=
  if s.hasRootWindowAsExtension extension then s
  else (s.init (some extension)).insert s.created

/-- `OnExtensionsChanged` of a window, which asks for a window for each extension. -/
def onExtensionsChanged (s : Cefclient) : Cefclient := s.extensions.foldl createExtensionWindow s

def onRootWindowActivated (s : Cefclient) (w : Nat) : Cefclient :=
  if (s.window w).withExtension then s
  else if s.activeRootWindow = some w then s
  else
    { s with activeRootWindow := some w, activeBrowser := if s.getBrowser w then some w else none }

def onRootWindowCreated (s : Cefclient) (w : Nat) : Cefclient :=
  let s := s.insert w
  if (s.window w).withExtension then s
  else
    let s := s.onExtensionsChanged
    if s.rootWindows.length = 1 then s.onRootWindowActivated w else s

/-- `CreateRootWindow` on the main thread. -/
def createRootWindow (s : Cefclient) (extension : Option Bytes) : Cefclient :=
  (s.init extension).onRootWindowCreated s.created

def addExtension (s : Cefclient) (extension : Bytes) : Cefclient :=
  if extension ∈ s.extensions then s
  else
    let s := { s with extensions := s.extensions ++ [extension] }
    s.rootWindows.foldl
      (fun s w => if (s.window w).withExtension then s else s.onExtensionsChanged) s

def onRootWindowDestroyed (s : Cefclient) (w : Nat) : Cefclient :=
  let rootWindows := s.rootWindows.filter (· ≠ w)
  let active := s.activeRootWindow = some w
  { s with
    missing := s.missing || !decide (w ∈ s.rootWindows)
    rootWindows
    activeRootWindow := if active then none else s.activeRootWindow
    activeBrowser := if active then none else s.activeBrowser
    uiQueue :=
      if s.terminateWhenAllWindowsClosed ∧ rootWindows = [] then s.uiQueue ++ [.cleanupOnUIThread]
      else s.uiQueue }

def onBrowserCreated (s : Cefclient) (w : Nat) : Cefclient :=
  if s.activeRootWindow = some w then { s with activeBrowser := some w } else s

/-- The window after some code of its class, which ends with the call of `OnRootWindowDestroyed` if
it makes that call. -/
def setWindow (s : Cefclient) (w : Nat) (win : RootWindowWin) : Cefclient :=
  let s' := { s with window := Function.update s.window w win }
  if win.freed && !(s.window w).freed then s'.onRootWindowDestroyed w else s'

/-! ### The threads -/

/-- `HandleCustomTask` with the bare pointer it was bound to. -/
def handleCustomTask (s : Cefclient) (w : Nat) (input : Json) : Cefclient :=
  let (c, r) := NplBrowser.handleCustomTask input
    { window := s.window w, files := s.files, inst := s.inst }
  let s' := { s with stale := s.stale || (s.window w).freed }.setWindow w c.window
  { s' with
    files := c.files
    inst := c.inst
    uiQueue := s'.uiQueue ++ c.zooms.map (.modifyZoom w)
    crashed := !r.isOk }

/-- A task of the main thread, taken off the queue. -/
def runMain (s : Cefclient) (again : Bool) : MainTask → Cefclient
  | .createRootWindow w =>
    { s with page := Function.update s.page w .creating }.setWindow w
      (RootWindowWin.createRootWindow.run (s.window w)).2
  | .onRootWindowCreated w => s.onRootWindowCreated w
  | .notifyBrowserCreated w =>
    (s.setWindow w (RootWindowWin.onBrowserCreated.run { s.window w with page := .open }).2).onBrowserCreated w
  | .notifyBrowserClosed w =>
    s.setWindow w
      ((RootWindowWin.onBrowserWindowDestroyed again).run { s.window w with page := .closed }).2
  | .handleCustomTask w input => s.handleCustomTask w input
  | .postQuitMessage => { s with quit := true }

def runUi (s : Cefclient) : UiTask → Cefclient
  | .modifyZoom w zoom =>
    let win := s.window w
    { s with window := Function.update s.window w { win with look := { win.look with zoom } } }
  | .cleanupOnUIThread => { s with mainQueue := s.mainQueue ++ [.postQuitMessage] }

inductive Event
  /-- `CreateRootWindow` on the main and on the UI thread. -/
  | mainCreate (extension : Option Bytes)
  | uiCreate (extension : Option Bytes)
  | popup (opener : Nat)
  | createExtensionWindow (extension : Bytes)
  | addExtension (extension : Bytes)
  /-- On the UI thread. -/
  | browserCreated (w : Nat)
  | browserClosed (w : Nat)
  /-- Messages for a native window. -/
  | activate (w : Nat)
  | copyData (w : Nat) (lpData : Bytes)
  | beginDestroy (w : Nat)
  | ncDestroy (w : Nat)
  | runMain (again : Bool)
  | runUi

/-- Messages find the window. -/
def hasUserData (s : Cefclient) (w : Nat) : Bool :=
  (s.window w).native = .alive ∨ (s.window w).native = .destroying

def step (parse : Bytes → Option Json) (s : Cefclient) (e : Event) : Option Cefclient :=
  if s.crashed then none else
  match e with
  | .mainCreate extension => some (s.createRootWindow extension)
  | .uiCreate extension =>
    some { s.add (.init false extension.isSome) .none extension with
      mainQueue := s.mainQueue ++ [.createRootWindow s.created, .onRootWindowCreated s.created] }
  | .popup opener =>
    if s.page opener = .open then
      some { s.add (.init true false) .creating none with
        mainQueue := s.mainQueue ++ [.onRootWindowCreated s.created] }
    else none
  | .createExtensionWindow extension => some (s.createExtensionWindow extension)
  | .addExtension extension => some (s.addExtension extension)
  | .browserCreated w =>
    if s.page w = .creating then
      some { s with page := Function.update s.page w .open,
                    mainQueue := s.mainQueue ++ [.notifyBrowserCreated w] }
    else none
  | .browserClosed w =>
    if s.page w = .open then
      some { s with page := Function.update s.page w .closed,
                    mainQueue := s.mainQueue ++ [.notifyBrowserClosed w] }
    else none
  | .activate w => if s.hasUserData w then some (s.onRootWindowActivated w) else none
  | .copyData w lpData =>
    if s.hasUserData w then
      match handleCustomMsg parse lpData with
      | some input => some { s with mainQueue := s.mainQueue ++ [.handleCustomTask w input] }
      | none => some s
    else none
  | .beginDestroy w =>
    if (s.window w).native = .alive then
      some (s.setWindow w { s.window w with native := .destroying })
    else none
  | .ncDestroy w =>
    if (s.window w).native = .destroying then
      some (s.setWindow w (RootWindowWin.ncDestroy.run (s.window w)).2)
    else none
  | .runMain again =>
    match s.mainQueue with
    | [] => none
    | t :: q => some ({ s with mainQueue := q }.runMain again t)
  | .runUi =>
    match s.uiQueue with
    | [] => none
    | t :: q => some ({ s with uiQueue := q }.runUi t)

end Cefclient

end NplBrowser
