import Mathlib.Data.Set.Function
import NplBrowser.OsrRenderer

/-!
# Where a popup is shown, and what the mouse hits

Both render handlers keep the rectangle of a popup as the browser gave it and as it is shown, moved
into the view; `PopupLayer::set_bounds` of the D3D11 one does in its own words what
`GetPopupRectInWebView` of the GL one does. `ApplyPopupOffset` translates a point of the shown
rectangle back to the one the browser knows.
-/

namespace NplBrowser

namespace Rect

/-- `CefRect::Contains`. -/
def contains (r : Rect) (pointX pointY : Int32) : Bool :=
  pointX ≥ r.x && pointX < r.x + r.width && pointY ≥ r.y && pointY < r.y + r.height

/-- The points of a rectangle. -/
def points (r : Rect) : Set (Int32 × Int32) :=
  { p | (r.x.toInt ≤ p.1.toInt ∧ p.1.toInt < r.x.toInt + r.width.toInt) ∧
    (r.y.toInt ≤ p.2.toInt ∧ p.2.toInt < r.y.toInt + r.height.toInt) }

/-- The right and the bottom edge are `int`s. -/
structure EdgesFit (r : Rect) : Prop where
  right : r.x.toInt + r.width.toInt < 2 ^ 31
  bottom : r.y.toInt + r.height.toInt < 2 ^ 31

structure Positive (r : Rect) : Prop where
  width : 0 < r.width.toInt
  height : 0 < r.height.toInt

end Rect

/-- What a render handler says of its popup. -/
structure PopupHandler where
  isOverPopupWidget : Int32 → Int32 → Bool
  getPopupXOffset : Int32
  getPopupYOffset : Int32

/-- `OsrWindowWin::ApplyPopupOffset`. -/
def applyPopupOffset (h : PopupHandler) (p : Int32 × Int32) : Int32 × Int32 :=
  if h.isOverPopupWidget p.1 p.2 then (p.1 + h.getPopupXOffset, p.2 + h.getPopupYOffset) else p

/-- `OsrRenderHandlerWinGL`. -/
def OsrRenderer.popupHandler (s : OsrRenderer) : PopupHandler where
  isOverPopupWidget x y :=
    let rc := s.popupRect
    let popupRight := rc.x + rc.width
    let popupBottom := rc.y + rc.height
    x ≥ rc.x && x < popupRight && (y ≥ rc.y && y < popupBottom)
  getPopupXOffset := s.originalPopupRect.x - s.popupRect.x
  getPopupYOffset := s.originalPopupRect.y - s.popupRect.y

structure PopupLayer where
  originalBounds : Rect := ⟨0, 0, 0, 0⟩
  bounds : Rect := ⟨0, 0, 0, 0⟩

namespace PopupLayer

/-- `PopupLayer::set_bounds` in a composition of the given size. -/
def setBounds (l : PopupLayer) (outerWidth outerHeight : Int32) (bounds : Rect) : PopupLayer :=
  if outerWidth = 0 ∨ outerHeight = 0 then l
  else
    let b := bounds
    let b := if b.x < 0 then { b with x := 0 } else b
    let b := if b.y < 0 then { b with y := 0 } else b
    let b := if b.x + b.width > outerWidth then { b with x := outerWidth - b.width } else b
    let b := if b.y + b.height > outerHeight then { b with y := outerHeight - b.height } else b
    let b := if b.x < 0 then { b with x := 0 } else b
    let b := if b.y < 0 then { b with y := 0 } else b
    { originalBounds := bounds, bounds := b }

/-- `OsrRenderHandlerWinD3D11`, while it has a popup layer. -/
def popupHandler (l : PopupLayer) : PopupHandler where
  isOverPopupWidget := l.bounds.contains
  getPopupXOffset := l.originalBounds.x - l.bounds.x
  getPopupYOffset := l.originalBounds.y - l.bounds.y

end PopupLayer

/-- What is shown of a popup whose size is `original`, in a view of the given size. -/
structure Shown (viewWidth viewHeight : Int32) (original shown : Rect) : Prop where
  size : shown.width = original.width ∧ shown.height = original.height
  origin : 0 ≤ shown.x.toInt ∧ 0 ≤ shown.y.toInt
  right : original.width.toInt ≤ viewWidth.toInt → shown.x.toInt + shown.width.toInt ≤ viewWidth.toInt
  bottom : original.height.toInt ≤ viewHeight.toInt →
    shown.y.toInt + shown.height.toInt ≤ viewHeight.toInt

/-- The points shown are those of the original rectangle, and no other point moves. -/
structure Translates (h : PopupHandler) (original shown : Rect) : Prop where
  bijOn : Set.BijOn (applyPopupOffset h) shown.points original.points
  other : ∀ p, p ∉ shown.points → applyPopupOffset h p = p

/-! ### One direction -/

section
variable {origin extent view x : Int32}

theorem toInt_ite_neg (x : Int32) : (if x < 0 then 0 else x).toInt = max x.toInt 0 := by
  have h0 : (0 : Int32).toInt = 0 := rfl
  split <;> rename_i h <;> rw [Int32.lt_iff_toInt_lt, h0] at h
  · rw [h0, max_eq_right (by omega)]
  · rw [max_eq_left (by omega)]

/-- Where a popup begins that reaches no further than an `int`. -/
theorem toInt_popupOrigin (hext : 0 < extent.toInt) (hfit : origin.toInt + extent.toInt < 2 ^ 31)
    (hview : 0 < view.toInt) : (OsrRenderer.popupOrigin origin extent view).toInt =
      if max origin.toInt 0 + extent.toInt ≤ view.toInt then max origin.toInt 0
      else max (view.toInt - extent.toInt) 0 := by
  have hlt := extent.toInt_lt
  unfold OsrRenderer.popupOrigin
  dsimp only
  rw [toInt_ite_neg]
  have hstart := toInt_ite_neg origin
  generalize (if origin < 0 then 0 else origin) = rc at hstart ⊢
  have hsum : (rc + extent).toInt = rc.toInt + extent.toInt := by
    rw [MachineInt.toInt_add (by omega), if_pos (by omega)]
  have hback : (view - extent).toInt = view.toInt - extent.toInt :=
    MachineInt.toInt_sub (by omega) (by omega)
  simp only [gt_iff_lt, Int32.lt_iff_toInt_lt, hsum]
  split <;> split <;> omega

/-- A popup is moved to where it still reaches no further than an `int`. -/
theorem popupOrigin_bounds (hext : 0 < extent.toInt) (hfit : origin.toInt + extent.toInt < 2 ^ 31)
    (hview : 0 < view.toInt) :
    0 ≤ (OsrRenderer.popupOrigin origin extent view).toInt ∧
      (OsrRenderer.popupOrigin origin extent view).toInt + extent.toInt < 2 ^ 31 ∧
      (extent.toInt ≤ view.toInt →
        (OsrRenderer.popupOrigin origin extent view).toInt + extent.toInt ≤ view.toInt) := by
  have h₁ := view.toInt_lt
  have h₂ := extent.toInt_lt
  rw [toInt_popupOrigin hext hfit hview]
  split <;> omega

/-- From the place `shown` to the place `origin`, without a wrap as neither place reaches that far. -/
theorem toInt_translate {shown : Int32} (hfit : origin.toInt + extent.toInt < 2 ^ 31)
    (h : shown.toInt ≤ x.toInt ∧ x.toInt < shown.toInt + extent.toInt) :
    (x + (origin - shown)).toInt = x.toInt - shown.toInt + origin.toInt := by
  have hlow := origin.le_toInt
  rw [Int32.toInt_add, Int32.toInt_sub, Int.add_bmod_bmod, Int.bmod_eq_of_le] <;> omega

theorem toInt_translate_back {shown : Int32} (hfit : shown.toInt + extent.toInt < 2 ^ 31)
    (h : origin.toInt ≤ x.toInt ∧ x.toInt < origin.toInt + extent.toInt) :
    (x - (origin - shown)).toInt = x.toInt - origin.toInt + shown.toInt := by
  have hlow := shown.le_toInt
  rw [Int32.toInt_sub, Int32.toInt_sub, Int.sub_bmod_bmod, Int.bmod_eq_of_le] <;> omega

end

/-! ### The rectangles -/

section
variable {original shown : Rect} {viewWidth viewHeight : Int32}

theorem shown_of_origins (hpos : original.Positive) (hfit : original.EdgesFit) (hwidth : 0 < viewWidth.toInt)
    (hheight : 0 < viewHeight.toInt)
    (h : shown = { original with
      x := OsrRenderer.popupOrigin original.x original.width viewWidth
      y := OsrRenderer.popupOrigin original.y original.height viewHeight }) :
    Shown viewWidth viewHeight original shown ∧ shown.EdgesFit := by
  subst h
  obtain ⟨hx, hright, hinx⟩ := popupOrigin_bounds hpos.width hfit.right hwidth
  obtain ⟨hy, hbottom, hiny⟩ := popupOrigin_bounds hpos.height hfit.bottom hheight
  exact ⟨⟨⟨rfl, rfl⟩, ⟨hx, hy⟩, hinx, hiny⟩, ⟨hright, hbottom⟩⟩

theorem ite_x (c : Prop) [Decidable c] (a x y width height : Int32) :
    (if c then ⟨a, y, width, height⟩ else ⟨x, y, width, height⟩ : Rect) =
      ⟨if c then a else x, y, width, height⟩ := by
  split <;> rfl

theorem ite_y (c : Prop) [Decidable c] (a x y width height : Int32) :
    (if c then ⟨x, a, width, height⟩ else ⟨x, y, width, height⟩ : Rect) =
      ⟨x, if c then a else y, width, height⟩ := by
  split <;> rfl

theorem setBounds_eq (l : PopupLayer) (hwidth : 0 < viewWidth.toInt) (hheight : 0 < viewHeight.toInt)
    (bounds : Rect) : l.setBounds viewWidth viewHeight bounds =
      { originalBounds := bounds
        bounds := { bounds with
          x := OsrRenderer.popupOrigin bounds.x bounds.width viewWidth
          y := OsrRenderer.popupOrigin bounds.y bounds.height viewHeight } } := by
  have hne : ∀ {a : Int32}, 0 < a.toInt → a ≠ 0 := by
    rintro a ha rfl
    exact absurd ha (by decide)
  unfold PopupLayer.setBounds OsrRenderer.popupOrigin
  rw [if_neg (not_or.2 ⟨hne hwidth, hne hheight⟩)]
  -- the assignments to `y` leave `x` alone, and the other way round
  rcases bounds with ⟨x, y, width, height⟩
  simp only [ite_x, ite_y]

theorem toInt_edge {a extent : Int32} (hext : 0 < extent.toInt) (hfit : a.toInt + extent.toInt < 2 ^ 31) :
    (a + extent).toInt = a.toInt + extent.toInt := by
  have hlow := a.le_toInt
  exact MachineInt.toInt_add_iff.2 (by omega)

/-- The comparisons of a hit test, with edges that are `int`s. -/
theorem mem_points_iff (hpos : shown.Positive) (hfit : shown.EdgesFit) (p : Int32 × Int32) :
    p ∈ shown.points ↔ (p.1 ≥ shown.x ∧ p.1 < shown.x + shown.width) ∧
      (p.2 ≥ shown.y ∧ p.2 < shown.y + shown.height) := by
  simp only [Rect.points, Set.mem_ofPred_eq, ge_iff_le, Int32.le_iff_toInt_le, Int32.lt_iff_toInt_lt,
    toInt_edge hpos.width hfit.right, toInt_edge hpos.height hfit.bottom]

theorem translates_of (hsize : shown.width = original.width ∧ shown.height = original.height)
    (hfit : original.EdgesFit) (hshown : shown.EdgesFit) {h : PopupHandler}
    (hover : ∀ p : Int32 × Int32, h.isOverPopupWidget p.1 p.2 = true ↔ p ∈ shown.points)
    (hx : h.getPopupXOffset = original.x - shown.x) (hy : h.getPopupYOffset = original.y - shown.y) :
    Translates h original shown := by
  obtain ⟨hwidth, hheight⟩ := hsize
  have happly : ∀ p ∈ shown.points,
      applyPopupOffset h p = (p.1 + (original.x - shown.x), p.2 + (original.y - shown.y)) := by
    intro p hp
    rw [applyPopupOffset, if_pos ((hover p).2 hp), hx, hy]
  have hto : ∀ p ∈ shown.points,
      (applyPopupOffset h p).1.toInt = p.1.toInt - shown.x.toInt + original.x.toInt ∧
        (applyPopupOffset h p).2.toInt = p.2.toInt - shown.y.toInt + original.y.toInt := by
    intro p hp
    rw [happly p hp]
    exact ⟨toInt_translate (hwidth ▸ hfit.right) hp.1, toInt_translate (hheight ▸ hfit.bottom) hp.2⟩
  refine ⟨⟨?_, ?_, ?_⟩, fun p hp => if_neg (fun hc => hp ((hover p).1 hc))⟩
  · intro p hp
    obtain ⟨h₁, h₂⟩ := hto p hp
    obtain ⟨⟨hleft, hright⟩, htop, hbottom⟩ := hp
    rw [hwidth] at hright
    rw [hheight] at hbottom
    refine ⟨?_, ?_⟩
    · rw [h₁]
      omega
    · rw [h₂]
      omega
  · intro p hp q hq heq
    rw [happly p hp, happly q hq, Prod.mk.injEq] at heq
    exact Prod.ext ((Int32.add_left_inj _).1 heq.1) ((Int32.add_left_inj _).1 heq.2)
  · intro q hq
    obtain ⟨hqx, hqy⟩ := hq
    have h₁ := toInt_translate_back (hwidth ▸ hshown.right) hqx
    have h₂ := toInt_translate_back (hheight ▸ hshown.bottom) hqy
    refine ⟨(q.1 - (original.x - shown.x), q.2 - (original.y - shown.y)), ?_, ?_⟩
    · refine ⟨?_, ?_⟩
      · rw [h₁, hwidth]
        omega
      · rw [h₂, hheight]
        omega
    · rw [happly]
      · simp
      · refine ⟨?_, ?_⟩
        · rw [h₁, hwidth]
          omega
        · rw [h₂, hheight]
          omega

end

/-- Both handlers show a popup in the same place, inside of the view if it fits there, and both hit
what they show. -/
theorem popup_shown_and_hit (s : OsrRenderer) (l : PopupLayer) (rect : Rect)
    (hview : 0 < s.viewWidth.toInt ∧ 0 < s.viewHeight.toInt) (hpos : rect.Positive) (hfit : rect.EdgesFit) :
    (s.onPopupSize rect).popupRect = (l.setBounds s.viewWidth s.viewHeight rect).bounds ∧
      Shown s.viewWidth s.viewHeight rect (s.onPopupSize rect).popupRect ∧
      Translates (s.onPopupSize rect).popupHandler rect (s.onPopupSize rect).popupRect ∧
      Translates (l.setBounds s.viewWidth s.viewHeight rect).popupHandler rect
        (s.onPopupSize rect).popupRect := by
  have hsize : s.onPopupSize rect = { s with
      originalPopupRect := rect, popupRect := s.getPopupRectInWebView rect } := by
    have hw : ¬ rect.width ≤ 0 := by
      rw [Int32.le_iff_toInt_le, show (0 : Int32).toInt = 0 from rfl]
      exact Int.not_le.2 hpos.width
    have hh : ¬ rect.height ≤ 0 := by
      rw [Int32.le_iff_toInt_le, show (0 : Int32).toInt = 0 from rfl]
      exact Int.not_le.2 hpos.height
    exact if_neg (not_or.2 ⟨hw, hh⟩)
  rw [hsize, setBounds_eq l hview.1 hview.2]
  dsimp only
  obtain ⟨hshown, hedges⟩ := shown_of_origins hpos hfit hview.1 hview.2
    (show s.getPopupRectInWebView rect = _ from rfl)
  have hposShown : (s.getPopupRectInWebView rect).Positive := ⟨hpos.width, hpos.height⟩
  refine ⟨rfl, hshown, ?_, ?_⟩
  · refine translates_of hshown.size hfit hedges (fun p => ?_) rfl rfl
    rw [mem_points_iff hposShown hedges]
    simp [OsrRenderer.popupHandler]
  · refine translates_of hshown.size hfit hedges (fun p => ?_) rfl rfl
    rw [mem_points_iff hposShown hedges]
    simp [PopupLayer.popupHandler, Rect.contains, OsrRenderer.getPopupRectInWebView, and_assoc]

/-- A popup that opens over the left and the bottom edge of the view. -/
theorem popup_shown_and_hit_corner :
    (({ viewWidth := 100, viewHeight := 100 } : OsrRenderer).onPopupSize ⟨-20, 80, 40, 40⟩).popupRect =
      ⟨0, 60, 40, 40⟩ ∧
    Translates (({ viewWidth := 100, viewHeight := 100 } : OsrRenderer).onPopupSize ⟨-20, 80, 40, 40⟩).popupHandler
      ⟨-20, 80, 40, 40⟩ ⟨0, 60, 40, 40⟩ := by
  have hrect : (({ viewWidth := 100, viewHeight := 100 } : OsrRenderer).onPopupSize
      ⟨-20, 80, 40, 40⟩).popupRect = ⟨0, 60, 40, 40⟩ := by decide
  have h := (popup_shown_and_hit { viewWidth := 100, viewHeight := 100 } {} ⟨-20, 80, 40, 40⟩ ⟨by decide, by decide⟩
    ⟨by decide, by decide⟩ ⟨by decide, by decide⟩).2.2.1
  rw [hrect] at h
  exact ⟨hrect, h⟩

end NplBrowser
