import NplBrowser.ImageRequests

/-!
# Extension controls (`views_window.cc`, `root_window_views.cc`)

Any number of `RootWindowViews` with one image cache. `OnExtensionsChanged` of a window asks the
cache for the icons and its callback puts the extensions into the window; before the `ViewsWindow`
exists the extensions wait in `pending_extensions_`. All of it runs on the UI thread: a call from
another thread is posted to it, and an event stands for the run of the posted task. Requests of
others, `RootWindowViews::InitOnMainThread` for one, go to the same cache.
-/

namespace NplBrowser

def kDefaultExtensionIcon : Bytes := lit "window_icon"

structure Extension where
  identifier : Bytes
  /-- `GetExtensionIconPath`; empty if the manifest names no icon. -/
  iconPath : Bytes
  internal : Bool := false
  deriving DecidableEq

def iconInfo (e : Extension) : ImageInfo :=
  if e.iconPath = [] then .empty else .create1x e.iconPath e.iconPath e.internal

/-- A `RootWindowViews` with its `ViewsWindow`. -/
structure RootWindowViews where
  withControls : Bool := true
  /-- `window_` is set. -/
  window : Bool := false
  pendingExtensions : List Extension := []
  extensions : List (Extension × Option Image) := []
  /-- The buttons of `extensions_panel_`. -/
  controls : List (Extension × Option Image) := []
  /-- What `OnExtensionsChanged` was last called with. -/
  last : List Extension := []

namespace RootWindowViews

/-- There are eleven button IDs; the other extensions are ignored, with a warning. -/
def updateExtensionControls (w : RootWindowViews) : RootWindowViews :=
  if w.withControls then { w with controls := w.extensions.take 11 } else w

def setExtensions (w : RootWindowViews) (extensions : List (Extension × Option Image)) : RootWindowViews :=
  { w with extensions }.updateExtensionControls

end RootWindowViews

structure Views where
  cache : ImageCache := {}
  window : Nat → RootWindowViews := fun _ => {}
  /-- The window and the extensions that the callback of a request is bound to, if it is
  `OnExtensionIconsLoaded`. -/
  callback : Nat → Option (Nat × List Extension) := fun _ => none

namespace Views

def setWindow (s : Views) (w : Nat) (win : RootWindowViews) : Views :=
  { s with window := Function.update s.window w win }

def onExtensionIconsLoaded (s : Views) (w : Nat) (extensions : List Extension)
    (images : List (Option Image)) : Views :=
  let icon (image : Option Image) := image.or (s.cache.imageMap.getCachedImage kDefaultExtensionIcon)
  s.setWindow w ((s.window w).setExtensions ((extensions.zip images).map fun (e, image) => (e, icon image)))

/-- `callback.Run(images)`. -/
def answer (s : Views) (a : Answer) : Views :=
  match s.callback a.request with
  | some (w, extensions) => s.onExtensionIconsLoaded w extensions a.images
  | none => s

/-- The cache has moved on, and run the callbacks it has answered. -/
def moveOn (s : Views) (cache : ImageCache) : Views :=
  (cache.answers.drop s.cache.answers.length).foldl answer { s with cache }

/-- `GetImageCache()->LoadImages` with `OnExtensionIconsLoaded` for a callback. -/
def loadIcons (s : Views) (w : Nat) (extensions : List Extension) : Views :=
  let request := s.cache.requests.length
  let infos := extensions.map iconInfo
  { s with callback := Function.update s.callback request (some (w, extensions)) }.moveOn
    ({ s.cache with requests := s.cache.requests ++ [infos] }.loadImages request infos)

/-- `ViewsWindow::OnExtensionsChanged`. -/
def viewsOnExtensionsChanged (s : Views) (w : Nat) (extensions : List Extension) : Views :=
  if extensions = [] then
    if (s.window w).extensions = [] then s else s.setWindow w ((s.window w).setExtensions [])
  else s.loadIcons w extensions

/-- `RootWindowViews::OnExtensionsChanged`. -/
def onExtensionsChanged (s : Views) (w : Nat) (extensions : List Extension) : Views :=
  if (s.window w).window then s.viewsOnExtensionsChanged w extensions
  else s.setWindow w { s.window w with pendingExtensions := extensions }

def onViewsWindowCreated (s : Views) (w : Nat) : Views :=
  let s := s.setWindow w { s.window w with window := true }
  let pending := (s.window w).pendingExtensions
  if pending = [] then s
  else
    let s := s.viewsOnExtensionsChanged w pending
    s.setWindow w { s.window w with pendingExtensions := [] }

/-- `ViewsWindow::OnWindowCreated`, which ends with `AddControls`. -/
def onWindowCreated (s : Views) (w : Nat) : Views :=
  let s := s.onViewsWindowCreated w
  s.setWindow w (s.window w).updateExtensionControls

inductive Event
  | onExtensionsChanged (w : Nat) (extensions : List Extension)
  | onWindowCreated (w : Nat)
  /-- A request of somebody else, or a task of the image cache. -/
  | cache (e : ImageCache.Event)

def step (addRep : RepContent → Bool) (s : Views) : Event → Option Views
  | .onExtensionsChanged w extensions =>
    some ((s.setWindow w { s.window w with last := extensions }).onExtensionsChanged w extensions)
  | .onWindowCreated w => if (s.window w).window then none else some (s.onWindowCreated w)
  | .cache e => (s.cache.step addRep e).map s.moveOn

/-! ### When the last update wins -/

/-- The extensions whose icons are being loaded for `w`, in the order they will be answered. -/
def loading (s : Views) (w : Nat) : List (List Extension) :=
  s.cache.waiting.filterMap fun t =>
    match s.callback t.2 with
    | some (v, extensions) => if v = w then some extensions else none
    | none => none

/-- No icon has to be loaded, so that an update is answered at once. -/
def answeredAtOnce (s : Views) (extensions : List Extension) : Bool :=
  extensions.all fun e => (iconInfo e).id == kEmptyId || (s.cache.imageMap (iconInfo e).id).isSome

/-- An update that is answered at once does not overtake the one before it, unless that is for the
same extensions. -/
def Ready (s : Views) : Event → Prop
  | .onExtensionsChanged w extensions =>
    (s.window w).window = true → s.answeredAtOnce extensions = true →
      ∀ loading ∈ (s.loading w).getLast?, loading = extensions
  | _ => True

instance (s : Views) : (e : Event) → Decidable (Ready s e)
  | .onExtensionsChanged w extensions =>
    inferInstanceAs (Decidable ((s.window w).window = true → s.answeredAtOnce extensions = true →
      ∀ loading ∈ (s.loading w).getLast?, loading = extensions))
  | .onWindowCreated _ | .cache _ => isTrue trivial

end Views

end NplBrowser
