import Mathlib.Data.List.Induction
import NplBrowser.Lib.Run
import NplBrowser.OsrRenderer

/-!
# The draggable regions of a page (`root_window_win.cc`)

`OnSetDraggableRegions` makes a region of the page's rectangles and subclasses the child windows. Where a
child's point is in the region its procedure leaves the hit test to the root window, whose procedure
looks its own point up in the same region. `CreateRectRgn`, `CombineRgn` and `SetWindowLongPtr` are taken
to succeed.
-/

namespace NplBrowser
namespace DraggableRegions

/-- `POINT`. -/
structure Point where
  x : Int
  y : Int
deriving DecidableEq

/-- `POINTS`: the point of the screen, as the message has it. -/
structure Points where
  x : Int16
  y : Int16

/-- `CefDraggableRegion`, of a size that is not negative. -/
structure DraggableRegion where
  bounds : Rect
  draggable : Bool
  width_nonneg : 0 ≤ bounds.width.toInt
  height_nonneg : 0 ≤ bounds.height.toInt

/-- `HRGN`: the points that it has. -/
abbrev Region := Point → Bool

/-- The half-open rectangle between two corners. -/
def createRectRgn (left top right bottom : Int) : Region :=
  fun p => left ≤ p.x && p.x < right && (top ≤ p.y && p.y < bottom)

/-- The sum of two `int`s. `none`: it overflows, which is undefined. -/
def addInt (a b : Int32) : Option Int :=
  let sum := a.toInt + b.toInt
  if -2 ^ 31 ≤ sum ∧ sum < 2 ^ 31 then some sum else none

/-- One turn of the loop: `RGN_OR` or `RGN_DIFF`. -/
def combineRgn (rgn : Region) (it : DraggableRegion) : Option Region :=
  match addInt it.bounds.x it.bounds.width, addInt it.bounds.y it.bounds.height with
  | some right, some bottom =>
    let region := createRectRgn it.bounds.x.toInt it.bounds.y.toInt right bottom
    some fun p => if it.draggable then rgn p || region p else rgn p && !region p
  | _, _ => none

/-- The region that is determined for a list, from the empty one. -/
def newRegion (regions : List DraggableRegion) : Option Region := regions.foldlM combineRgn fun _ => false

inductive WndProc
  | own
  | subclassed
deriving DecidableEq

/-- A child window: its procedure, and its properties `kParentWndProc` and `kDraggableRegion`, which is set
to `draggable_region_` if at all. -/
structure ChildWindow where
  wndProc : WndProc := .own
  parentWndProc : Option WndProc := none
  draggableRegion : Bool := false

def subclassWindow (w : ChildWindow) : ChildWindow :=
  if w.parentWndProc.isSome then w
  else { wndProc := .subclassed, parentWndProc := some w.wndProc, draggableRegion := true }

def unSubclassWindow (w : ChildWindow) : ChildWindow :=
  { wndProc := w.parentWndProc.getD w.wndProc, parentWndProc := none, draggableRegion := false }

/-- The root window's region and its child windows. -/
structure State (Hwnd : Type) where
  draggableRegion : Region := fun _ => false
  children : Hwnd → ChildWindow := fun _ => {}

section
variable {Hwnd : Type}

def onSetDraggableRegions (s : State Hwnd) (regions : List DraggableRegion) : Option (State Hwnd) :=
  (newRegion regions).map fun region =>
    { draggableRegion := region
      children := fun hwnd =>
        if regions.isEmpty then unSubclassWindow (s.children hwnd) else subclassWindow (s.children hwnd) }

/-! ### The hit test -/

/-- Where the client area of a window is on the screen. -/
structure ClientArea where
  left : Int
  top : Int
  width : Int
  height : Int

namespace ClientArea

def contains (w : ClientArea) (points : Points) : Bool :=
  createRectRgn w.left w.top (w.left + w.width) (w.top + w.height) ⟨points.x.toInt, points.y.toInt⟩

def screenToClient (w : ClientArea) (points : Points) : Point :=
  ⟨points.x.toInt - w.left, points.y.toInt - w.top⟩

end ClientArea

/-- What `WM_NCHITTEST` answers. -/
inductive Hit
  | client
  | transparent
  | caption
  | border
deriving DecidableEq

/-- Where the windows are: the browser's child window, which stands for the ones that fill it as well, is
inside the root window and no other child window is over it. `frame` is the answer of `DefWindowProc`
outside of the client area. -/
structure Layout (Hwnd : Type) where
  root : ClientArea
  children : List Hwnd
  area : Hwnd → ClientArea
  browser : Hwnd
  frame : Points → Hit
  frame_ne : ∀ points, frame points ≠ .client
  browser_mem : browser ∈ children
  inside : ∀ points, (area browser).contains points = true → root.contains points = true
  apart : ∀ hwnd ∈ children, hwnd ≠ browser → ∀ points, (area hwnd).contains points = true →
    (area browser).contains points = false

namespace Layout

/-- The child window at a point. -/
def windowAt (layout : Layout Hwnd) (points : Points) : Option Hwnd :=
  layout.children.find? fun hwnd => (layout.area hwnd).contains points

/-- The point in the browser's child window, and thus of the page. -/
def pagePoint (layout : Layout Hwnd) (points : Points) : Point :=
  (layout.area layout.browser).screenToClient points

/-- The point is over the browser. -/
def OverBrowser (layout : Layout Hwnd) (points : Points) : Prop :=
  (layout.area layout.browser).contains points = true

/-- `DefWindowProc` of the root window. -/
def defWindowProc (layout : Layout Hwnd) (points : Points) : Hit :=
  if layout.root.contains points then .client else layout.frame points

end Layout

/-- The procedure of a child window, at a point of its client area, where its own procedure answers
HTCLIENT: this is what `SubclassedWindowProc` calls first. -/
def childWndProc (s : State Hwnd) (hwnd : Hwnd) (point : Point) : Hit :=
  match (s.children hwnd).wndProc with
  | .own => .client
  | .subclassed =>
    if (s.children hwnd).draggableRegion && s.draggableRegion point then .transparent else .client

def rootWndProc (s : State Hwnd) (layout : Layout Hwnd) (points : Points) : Hit :=
  let hit := layout.defWindowProc points
  if hit = .client ∧ s.draggableRegion (layout.root.screenToClient points) = true then .caption else hit

/-- The system asks the child window at the point, if there is one, and the root window where there is none
or it is transparent. -/
def hitTest (s : State Hwnd) (layout : Layout Hwnd) (points : Points) : Hit :=
  match layout.windowAt points with
  | none => rootWndProc s layout points
  | some hwnd =>
    match childWndProc s hwnd ((layout.area hwnd).screenToClient points) with
    | .transparent => rootWndProc s layout points
    | hit => hit

/-! ### What the regions are for -/

def DraggableRegion.contains (r : DraggableRegion) (p : Point) : Bool :=
  createRectRgn r.bounds.x.toInt r.bounds.y.toInt (r.bounds.x.toInt + r.bounds.width.toInt)
    (r.bounds.y.toInt + r.bounds.height.toInt) p

/-- The last rectangle that contains the point exists and is draggable. -/
def Dragged (regions : List DraggableRegion) (p : Point) : Prop :=
  ∃ last, regions.reverse.find? (·.contains p) = some last ∧ last.draggable = true

/-- The list of the latest call. -/
def latest (calls : List (List DraggableRegion)) : List DraggableRegion := calls.getLast?.getD []

/-- Of the points over the browser those are in the caption that the regions make so, and of the others
none that would not be there anyway. -/
def HitRight (layout : Layout Hwnd) (regions : List DraggableRegion) (s : State Hwnd) : Prop :=
  (∀ points, layout.OverBrowser points →
    (hitTest s layout points = .caption ↔ Dragged regions (layout.pagePoint points))) ∧
  ∀ points, ¬ layout.OverBrowser points → hitTest s layout points = .caption →
    layout.defWindowProc points = .caption

/-- The edges of the rectangle are `int`s. -/
def EdgesFit (r : DraggableRegion) : Prop :=
  r.bounds.x.toInt + r.bounds.width.toInt < 2 ^ 31 ∧ r.bounds.y.toInt + r.bounds.height.toInt < 2 ^ 31

/-- What is draggable of the page is so of the root window, where it looks the same point up. Beside the
browser nothing is draggable of the root window, except where a child window is that does not leave the
point to it. -/
def LayoutOk (layout : Layout Hwnd) (regions : List DraggableRegion) : Prop :=
  (∀ points, layout.OverBrowser points → Dragged regions (layout.pagePoint points) →
    Dragged regions (layout.root.screenToClient points)) ∧
  ∀ points, ¬ layout.OverBrowser points → layout.root.contains points = true →
    (∀ hwnd, layout.windowAt points = some hwnd →
      Dragged regions ((layout.area hwnd).screenToClient points)) →
    ¬ Dragged regions (layout.root.screenToClient points)

variable {s : State Hwnd} {layout : Layout Hwnd} {calls : List (List DraggableRegion)}
  {regions : List DraggableRegion} {it : DraggableRegion} {region rgn : Region} {p : Point} {points : Points}

/-! ### The region -/

theorem addInt_of_lt {a b : Int32} (hb : 0 ≤ b.toInt) (h : a.toInt + b.toInt < 2 ^ 31) :
    addInt a b = some (a.toInt + b.toInt) := by
  have ha := a.le_toInt
  exact if_pos ⟨by omega, h⟩

theorem addInt_of_not_lt {a b : Int32} (h : ¬ a.toInt + b.toInt < 2 ^ 31) : addInt a b = none :=
  if_neg fun hfit => h hfit.2

theorem combineRgn_of_fit (h : EdgesFit it) : combineRgn rgn it =
    some fun p => if it.draggable then rgn p || it.contains p else rgn p && !it.contains p := by
  rw [combineRgn, addInt_of_lt it.width_nonneg h.1, addInt_of_lt it.height_nonneg h.2]
  rfl

theorem combineRgn_of_not_fit (h : ¬ EdgesFit it) : combineRgn rgn it = none := by
  rw [EdgesFit, not_and_or] at h
  rcases h with h | h
  · rw [combineRgn, addInt_of_not_lt h]
  · rw [combineRgn, addInt_of_not_lt h]
    split <;> simp_all

theorem newRegion_append : newRegion (regions ++ [it]) = (newRegion regions).bind (combineRgn · it) := by
  simp [newRegion, List.foldlM_append]

theorem exists_newRegion : (∃ region, newRegion regions = some region) ↔ ∀ r ∈ regions, EdgesFit r := by
  induction regions using List.reverseRecOn with
  | nil => simp [newRegion]
  | append_singleton regions it ih =>
    rw [newRegion_append, List.forall_mem_append, ← ih, List.forall_mem_singleton]
    simp only [Option.bind_eq_some_iff]
    constructor
    · rintro ⟨region, rgn, hrgn, hit⟩
      refine ⟨⟨rgn, hrgn⟩, by_contra fun hfit => ?_⟩
      rw [combineRgn_of_not_fit hfit] at hit
      cases hit
    · rintro ⟨⟨rgn, hrgn⟩, hfit⟩
      exact ⟨_, rgn, hrgn, combineRgn_of_fit hfit⟩

theorem not_dragged_nil : ¬ Dragged [] p := by
  simp [Dragged]

/-- The last rectangle decides about its points, and the ones before it about the others. -/
theorem dragged_append : Dragged (regions ++ [it]) p ↔
    if it.contains p = true then it.draggable = true else Dragged regions p := by
  unfold Dragged
  rw [List.reverse_append, List.reverse_singleton, List.singleton_append, List.find?_cons]
  split <;> simp_all

/-- And so it does in the region, by a union or a difference. -/
theorem newRegion_iff (h : newRegion regions = some region) : region p = true ↔ Dragged regions p := by
  induction regions using List.reverseRecOn generalizing region with
  | nil =>
    cases h
    simpa using not_dragged_nil
  | append_singleton regions it ih =>
    have hfit : EdgesFit it := exists_newRegion.1 ⟨_, h⟩ it (by simp)
    rw [newRegion_append] at h
    obtain ⟨rgn, hrgn, hit⟩ := Option.bind_eq_some_iff.1 h
    rw [combineRgn_of_fit hfit] at hit
    cases hit
    rw [dragged_append, ← ih hrgn]
    rcases it.draggable <;> rcases hcontains : it.contains p <;> simp [hcontains]

/-! ### Any sequence of calls -/

/-- The region is that of the latest list, and the child windows are subclassed just if it has a rectangle. -/
structure Follows (calls : List (List DraggableRegion)) (s : State Hwnd) : Prop where
  region : newRegion (latest calls) = some s.draggableRegion
  plain : latest calls = [] → ∀ hwnd, s.children hwnd = {}
  subclassed : latest calls ≠ [] → ∀ hwnd, s.children hwnd = ⟨.subclassed, some .own, true⟩

@[simp] theorem latest_append : latest (calls ++ [regions]) = regions := by simp [latest]

theorem follows_init : Follows [] ({} : State Hwnd) := ⟨rfl, fun _ _ => rfl, fun h => absurd rfl h⟩

theorem Follows.step {s' : State Hwnd} (h : Follows calls s) (hs : onSetDraggableRegions s regions = some s') :
    Follows (calls ++ [regions]) s' := by
  obtain ⟨region, hregion, rfl⟩ := Option.map_eq_some_iff.1 hs
  have hchild : ∀ hwnd, s.children hwnd = {} ∨ s.children hwnd = ⟨.subclassed, some .own, true⟩ := by
    intro hwnd
    rcases eq_or_ne (latest calls) [] with hnil | hne
    · exact .inl (h.plain hnil hwnd)
    · exact .inr (h.subclassed hne hwnd)
  refine ⟨by rwa [latest_append], fun hnil hwnd => ?_, fun hne hwnd => ?_⟩
  · rw [latest_append] at hnil
    rcases hchild hwnd with hw | hw <;> simp [hnil, hw, unSubclassWindow]
  · rw [latest_append] at hne
    rcases hchild hwnd with hw | hw <;> simp [hne, hw, subclassWindow]

theorem follows_of_exec (h : Lts.exec onSetDraggableRegions ({} : State Hwnd) calls = some s) :
    Follows calls s := by
  have hrun := (Lts.run_of_exec h).hist (I := Follows) (p := [])
    (fun calls s regions s' hf _ hs => hf.step hs) follows_init
  rwa [List.nil_append] at hrun

theorem exists_exec : (∃ s', Lts.exec onSetDraggableRegions s calls = some s') ↔
    ∀ regions ∈ calls, ∀ r ∈ regions, EdgesFit r := by
  induction calls generalizing s with
  | nil => simp [Lts.exec]
  | cons regions calls ih =>
    rw [List.forall_mem_cons, ← exists_newRegion, Lts.exec, onSetDraggableRegions]
    rcases newRegion regions with _ | region
    · simp
    · simpa using ih

/-! ### The two steps of the hit test -/

namespace Layout

theorem windowAt_browser : layout.windowAt points = some layout.browser ↔ layout.OverBrowser points := by
  refine ⟨fun h => by simpa [OverBrowser] using List.find?_some h, fun hover => ?_⟩
  obtain ⟨hwnd, hfind⟩ : ∃ hwnd, layout.windowAt points = some hwnd :=
    Option.isSome_iff_exists.1 (List.find?_isSome.2 ⟨_, layout.browser_mem, hover⟩)
  have hcontains : (layout.area hwnd).contains points = true := by simpa using List.find?_some hfind
  rw [hfind]
  refine congrArg some (by_contra fun hne => ?_)
  have hoff := layout.apart hwnd (List.mem_of_find?_eq_some hfind) hne points hcontains
  rw [OverBrowser, hoff] at hover
  cases hover

theorem defWindowProc_client : layout.defWindowProc points = .client ↔ layout.root.contains points = true := by
  unfold defWindowProc
  split
  · simp [*]
  · simp [*, layout.frame_ne points]

end Layout

theorem rootWndProc_caption : rootWndProc s layout points = .caption ↔
    (layout.root.contains points = true ∧ s.draggableRegion (layout.root.screenToClient points) = true) ∨
      layout.defWindowProc points = .caption := by
  rw [← layout.defWindowProc_client]
  unfold rootWndProc
  dsimp only
  split <;> simp [*]

/-- A child window is transparent where the region says so: if the windows are not subclassed, nowhere. -/
theorem Follows.childWndProc (h : Follows calls s) (hwnd : Hwnd) (p : Point) :
    childWndProc s hwnd p = if s.draggableRegion p then .transparent else .client := by
  unfold DraggableRegions.childWndProc
  rcases eq_or_ne (latest calls) [] with hnil | hne
  · have hregion := h.region
    rw [hnil] at hregion
    simp [h.plain hnil hwnd, ← Option.some.inj hregion]
  · simp [h.subclassed hne hwnd]

theorem Follows.hitTest_caption (h : Follows calls s) : hitTest s layout points = .caption ↔
    (∀ hwnd, layout.windowAt points = some hwnd →
      s.draggableRegion ((layout.area hwnd).screenToClient points) = true) ∧
    rootWndProc s layout points = .caption := by
  unfold hitTest
  rcases layout.windowAt points with _ | hwnd
  · simp
  · simp only [h.childWndProc, Option.some.injEq, forall_eq']
    split <;> simp_all

theorem Follows.hitRight_iff (h : Follows calls s) : HitRight layout (latest calls) s ↔
    LayoutOk layout (latest calls) := by
  have hdragged : ∀ p, s.draggableRegion p = true ↔ Dragged (latest calls) p := fun p => newRegion_iff h.region
  refine and_congr (forall₂_congr fun points hover => ?_) (forall₂_congr fun points hout => ?_)
  · have hroot : layout.root.contains points = true := layout.inside points hover
    have hdef := layout.defWindowProc_client.2 hroot
    rw [h.hitTest_caption, rootWndProc_caption, Layout.windowAt_browser.2 hover, hdef]
    simp only [Option.some.injEq, forall_eq', hdragged, hroot, true_and, reduceCtorEq, or_false]
    exact and_iff_left_iff_imp
  · have hframe : layout.root.contains points = true → layout.defWindowProc points ≠ .caption := by
      intro hroot
      rw [layout.defWindowProc_client.2 hroot]
      decide
    rw [h.hitTest_caption, rootWndProc_caption]
    simp only [hdragged]
    tauto

/-- After any sequence of calls, the hit test is what the latest list says just if no edge overflows and the
list says of the page what it says of the root window. -/
theorem hitTest_iff (layout : Layout Hwnd) (calls : List (List DraggableRegion)) :
    (∃ s, Lts.exec onSetDraggableRegions ({} : State Hwnd) calls = some s ∧
        HitRight layout (latest calls) s) ↔
      (∀ regions ∈ calls, ∀ r ∈ regions, EdgesFit r) ∧ LayoutOk layout (latest calls) := by
  rw [← exists_exec (s := ({} : State Hwnd))]
  constructor
  · rintro ⟨s, hs, hright⟩
    exact ⟨⟨s, hs⟩, (follows_of_exec hs).hitRight_iff.1 hright⟩
  · rintro ⟨⟨s, hs⟩, hok⟩
    exact ⟨s, hs, (follows_of_exec hs).hitRight_iff.2 hok⟩

/-- The address bar above the browser. -/
def addressBar : Layout Bool where
  root := ⟨0, 0, 300, 200⟩
  children := [false, true]
  area hwnd := if hwnd then ⟨0, 24, 300, 176⟩ else ⟨0, 0, 300, 24⟩
  browser := true
  frame _ := .border
  frame_ne _ := by decide
  browser_mem := by decide
  inside points h := by
    simp [ClientArea.contains, createRectRgn] at *
    omega
  apart hwnd _ hne points h := by
    rw [Bool.eq_false_of_not_eq_true hne] at h
    simp [ClientArea.contains, createRectRgn] at *
    omega

/-- The top of the page is draggable, and 24 pixels farther down, where the root window looks it up, it is
not. -/
theorem not_hitTest_addressBar :
    ¬ ∃ s, Lts.exec onSetDraggableRegions ({} : State Bool) [[⟨⟨0, 0, 100, 20⟩, true, by decide, by decide⟩]] =
        some s ∧ HitRight addressBar (latest [[⟨⟨0, 0, 100, 20⟩, true, by decide, by decide⟩]]) s := by
  rintro ⟨s, hs, hright, -⟩
  have hdragged := (hright ⟨0, 29⟩ rfl).2 ⟨_, rfl, rfl⟩
  cases hs
  exact absurd hdragged (by decide)

/-- So it is where the browser is all of the root window. -/
theorem layoutOk_of_fills (h : layout.area layout.browser = layout.root) : LayoutOk layout regions := by
  refine ⟨fun points _ hdragged => ?_, fun points hout hroot => ?_⟩
  · rwa [Layout.pagePoint, h] at hdragged
  · rw [Layout.OverBrowser, h] at hout
    exact absurd hroot hout

end

end DraggableRegions
end NplBrowser
