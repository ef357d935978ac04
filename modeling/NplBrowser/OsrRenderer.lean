import Mathlib.Tactic.Ring
import NplBrowser.Lib.MachineInt
import NplBrowser.Lib.Run

/-!
# The off-screen renderer's texture

`OsrRenderer` has one texture, of the size of the view as last painted. A paint of the view sizes it
anew or updates the dirty rectangles; a paint of a popup updates the place of the popup, which
`OnPopupSize` has computed from the view's size at that time. The popup is cut off at the right and
the bottom of the view, by more than its own extent if the view has become too small by then.

An `int` wraps around here. Of the calls to OpenGL only what decides which pixels are read and
written is kept.
-/

namespace NplBrowser

/-- `CefRect`. -/
structure Rect where
  x : Int32
  y : Int32
  width : Int32
  height : Int32
deriving DecidableEq

/-- A call of `glTexSubImage2D`, with the unpacking parameters, the size of the buffer passed to
`OnPaint` and that of the texture as last sized by `glTexImage2D`. -/
structure SubImage where
  x : Int32
  y : Int32
  width : Int32
  height : Int32
  rowLength : Int32
  skipPixels : Int32
  skipRows : Int32
  bufferWidth : Int32
  bufferHeight : Int32
  texture : Option (Int32 × Int32)
deriving DecidableEq

inductive PaintType
  | view
  | popup
deriving DecidableEq

structure OsrRenderer where
  viewWidth : Int32 := 0
  viewHeight : Int32 := 0
  popupRect : Rect := ⟨0, 0, 0, 0⟩
  originalPopupRect : Rect := ⟨0, 0, 0, 0⟩
  texture : Option (Int32 × Int32) := none
  /-- The calls of `glTexSubImage2D` so far. -/
  issued : List SubImage := []
deriving DecidableEq

namespace OsrRenderer

inductive Event
  | popupShow («show» : Bool)
  | popupSize (rect : Rect)
  | paint (type : PaintType) (dirtyRects : List Rect) (width height : Int32)

def onPopupShow (s : OsrRenderer) («show» : Bool) : OsrRenderer :=
  if «show» then s else { s with popupRect := ⟨0, 0, 0, 0⟩, originalPopupRect := ⟨0, 0, 0, 0⟩ }

/-- One coordinate of `GetPopupRectInWebView`. -/
def popupOrigin (origin extent view : Int32) : Int32 :=
  let rc := if origin < 0 then 0 else origin
  let rc := if rc + extent > view then view - extent else rc
  if rc < 0 then 0 else rc

def getPopupRectInWebView (s : OsrRenderer) (rc : Rect) : Rect :=
  { rc with
    x := popupOrigin rc.x rc.width s.viewWidth
    y := popupOrigin rc.y rc.height s.viewHeight }

def onPopupSize (s : OsrRenderer) (rect : Rect) : OsrRenderer :=
  if rect.width ≤ 0 ∨ rect.height ≤ 0 then s
  else { s with originalPopupRect := rect, popupRect := s.getPopupRectInWebView rect }

def subImage (s : OsrRenderer) (width height : Int32) (rect : Rect) : SubImage where
  x := rect.x
  y := rect.y
  width := rect.width
  height := rect.height
  rowLength := width
  skipPixels := rect.x
  skipRows := rect.y
  bufferWidth := width
  bufferHeight := height
  texture := s.texture

def paintView (s : OsrRenderer) (dirtyRects : List Rect) (width height : Int32) : OsrRenderer :=
  if s.viewWidth ≠ width ∨ s.viewHeight ≠ height ∨ dirtyRects = [⟨0, 0, width, height⟩] then
    { s with viewWidth := width, viewHeight := height, texture := some (width, height) }
  else
    { s with
      viewWidth := width
      viewHeight := height
      issued := s.issued ++ dirtyRects.map (s.subImage width height) }

/-- What is skipped at the left or the top, where the popup begins, and its extent. -/
def clip (origin extent view : Int32) : Int32 × Int32 × Int32 :=
  let skip := if origin < 0 then -origin else 0
  let x := if origin < 0 then 0 else origin
  let w := if x + extent > view then extent - (x + extent - view) else extent
  (skip, x, w)

def popupImage (s : OsrRenderer) (width height : Int32) : SubImage :=
  let (skipPixels, x, w) := clip s.popupRect.x width s.viewWidth
  let (skipRows, y, h) := clip s.popupRect.y height s.viewHeight
  { x, y, width := w, height := h, rowLength := width, skipPixels, skipRows, bufferWidth := width,
    bufferHeight := height, texture := s.texture }

def paintPopup (s : OsrRenderer) (width height : Int32) : OsrRenderer :=
  if 0 < s.popupRect.width ∧ 0 < s.popupRect.height then
    { s with issued := s.issued ++ [s.popupImage width height] }
  else s

/-- The rectangle lies inside of the buffer. -/
def Within (width height : Int32) (r : Rect) : Prop :=
  (0 ≤ r.x.toInt ∧ 0 ≤ r.width.toInt ∧ r.x.toInt + r.width.toInt ≤ width.toInt) ∧
    (0 ≤ r.y.toInt ∧ 0 ≤ r.height.toInt ∧ r.y.toInt + r.height.toInt ≤ height.toInt)

instance (width height : Int32) (r : Rect) : Decidable (Within width height r) :=
  inferInstanceAs (Decidable ((_ ∧ _ ∧ _) ∧ (_ ∧ _ ∧ _)))

/-- A buffer has positive extents, and the dirty rectangles of the view lie inside of it. -/
def step (s : OsrRenderer) : Event → Option OsrRenderer
  | .popupShow «show» => some (s.onPopupShow «show»)
  | .popupSize rect => some (s.onPopupSize rect)
  | .paint .view dirtyRects width height =>
    if 0 < width ∧ 0 < height ∧ ∀ r ∈ dirtyRects, Within width height r then
      some (s.paintView dirtyRects width height)
    else none
  | .paint .popup _ width height =>
    if 0 < width ∧ 0 < height then some (s.paintPopup width height) else none

end OsrRenderer

/-! ## What a call reads and writes -/

namespace SubImage

/-- The extents are not negative, the destination lies inside of the texture, and every selected pixel
inside of the buffer. -/
structure InBounds (c : SubImage) : Prop where
  extent : 0 ≤ c.width.toInt ∧ 0 ≤ c.height.toInt
  destination : 0 ≤ c.x.toInt ∧ 0 ≤ c.y.toInt ∧ ∃ size, c.texture = some size ∧
    c.x.toInt + c.width.toInt ≤ size.1.toInt ∧ c.y.toInt + c.height.toInt ≤ size.2.toInt
  source : ∀ i j : Int, 0 ≤ i → i < c.width.toInt → 0 ≤ j → j < c.height.toInt →
    0 ≤ (c.skipRows.toInt + j) * c.rowLength.toInt + c.skipPixels.toInt + i ∧
      (c.skipRows.toInt + j) * c.rowLength.toInt + c.skipPixels.toInt + i <
        c.bufferWidth.toInt * c.bufferHeight.toInt

/-- Pixels of a rectangle inside of the buffer. -/
theorem source_of_rect {x y w h i j width height : Int} (hx : 0 ≤ x) (hy : 0 ≤ y) (hw : x + w ≤ width)
    (hh : y + h ≤ height) (hi : 0 ≤ i) (hiw : i < w) (hj : 0 ≤ j) (hjh : j < h) :
    0 ≤ (y + j) * width + x + i ∧ (y + j) * width + x + i < width * height := by
  have hwidth : 0 ≤ width := by omega
  have hrow : 0 ≤ (y + j) * width := Int.mul_nonneg (by omega) hwidth
  refine ⟨by omega, ?_⟩
  have hlast : (y + j + 1) * width ≤ height * width := Int.mul_le_mul_of_nonneg_right (by omega) hwidth
  calc (y + j) * width + x + i < (y + j) * width + width := by omega
    _ = (y + j + 1) * width := by ring
    _ ≤ height * width := hlast
    _ = width * height := Int.mul_comm _ _

end SubImage

namespace OsrRenderer

/-- A popup is painted into a view that has been painted, at a place that is still in it, and the
right and the bottom of the buffer there are `int`s. -/
def Fits (s : OsrRenderer) : Event → Prop
  | .paint .popup _ width height =>
    0 < s.popupRect.width → 0 < s.popupRect.height → s.viewWidth ≠ 0 ∧
      (s.popupRect.x ≤ s.viewWidth ∧ s.popupRect.x.toInt + width.toInt < 2 ^ 31) ∧
      (s.popupRect.y ≤ s.viewHeight ∧ s.popupRect.y.toInt + height.toInt < 2 ^ 31)
  | _ => True

instance (s : OsrRenderer) (e : Event) : Decidable (Fits s e) :=
  match e with
  | .paint .popup _ width height =>
    inferInstanceAs (Decidable (_ → _ → _ ∧ (_ ∧ s.popupRect.x.toInt + width.toInt < _) ∧
      (_ ∧ s.popupRect.y.toInt + height.toInt < _)))
  | .paint .view _ _ _ | .popupShow _ | .popupSize _ => isTrue trivial

/-- The texture has the size of the view, once it has been painted; the popup is not to the left of
the view or above it. -/
structure Inv (s : OsrRenderer) : Prop where
  texture : (s.viewWidth = 0 ∧ s.viewHeight = 0 ∧ s.texture = none) ∨
    (0 < s.viewWidth.toInt ∧ 0 < s.viewHeight.toInt ∧ s.texture = some (s.viewWidth, s.viewHeight))
  popup : 0 ≤ s.popupRect.x.toInt ∧ 0 ≤ s.popupRect.y.toInt

/-! ## Arithmetic -/

section
variable {origin extent view : Int32}

/-- What a popup that begins inside of the buffer range is cut down to. -/
theorem clip_eq (ho : 0 ≤ origin.toInt) (he : 0 < extent.toInt) (hv : 0 ≤ view.toInt) :
    (clip origin extent view).1 = 0 ∧ (clip origin extent view).2.1 = origin ∧
      (clip origin extent view).2.2.toInt =
        if origin.toInt + extent.toInt < 2 ^ 31 then min extent.toInt (view.toInt - origin.toInt)
        else extent.toInt := by
  have hneg : ¬ origin < 0 := by
    rw [Int32.lt_iff_toInt_lt]
    show ¬ origin.toInt < 0
    omega
  have h₁ := origin.toInt_lt
  have h₂ := extent.toInt_lt
  have h₃ := view.toInt_lt
  have hsum := MachineInt.toInt_add (a := origin) (le_of_lt he)
  unfold clip
  simp only [if_neg hneg, true_and]
  simp only [gt_iff_lt, Int32.lt_iff_toInt_lt]
  by_cases hlt : origin.toInt + extent.toInt < 2 ^ 31
  · rw [if_pos hlt] at hsum ⊢
    split
    · rename_i hcut
      rw [hsum] at hcut
      have hover : (origin + extent - view).toInt = origin.toInt + extent.toInt - view.toInt := by
        rw [MachineInt.toInt_sub (by omega) hv, hsum]
      have hrest : (extent - (origin + extent - view)).toInt =
          extent.toInt - (origin.toInt + extent.toInt - view.toInt) := by
        rw [MachineInt.toInt_sub (by omega) (by omega), hover]
      omega
    · rename_i hcut
      rw [hsum] at hcut
      omega
  · rw [if_neg hlt] at hsum ⊢
    rw [if_neg (by omega)]

theorem popupOrigin_nonneg : 0 ≤ (popupOrigin origin extent view).toInt := by
  have hzero : ∀ rc : Int32, 0 ≤ (if rc < 0 then 0 else rc).toInt := by
    intro rc
    split
    · decide
    · rename_i h
      rw [Int32.lt_iff_toInt_lt] at h
      exact Int.not_lt.1 h
  exact hzero _

end

/-! ## The invariant -/

section
variable {s s' : OsrRenderer} {e : Event}

theorem Inv.init : Inv {} where
  texture := .inl ⟨rfl, rfl, rfl⟩
  popup := ⟨by decide, by decide⟩

theorem Inv.view (h : s.Inv) : 0 ≤ s.viewWidth.toInt ∧ 0 ≤ s.viewHeight.toInt := by
  rcases h.texture with ⟨hw, hh, -⟩ | ⟨hw, hh, -⟩
  · rw [hw, hh]
    decide
  · omega

theorem pos_toInt {a : Int32} : 0 < a ↔ 0 < a.toInt := Int32.lt_iff_toInt_lt

theorem Inv.step (h : s.Inv) (hs : s.step e = some s') : s'.Inv := by
  cases e with
  | popupShow «show» =>
    cases hs
    unfold onPopupShow
    split
    exacts [h, ⟨h.texture, le_refl (0 : Int), le_refl (0 : Int)⟩]
  | popupSize rect =>
    cases hs
    unfold onPopupSize
    split
    exacts [h, ⟨h.texture, popupOrigin_nonneg, popupOrigin_nonneg⟩]
  | paint type dirtyRects width height =>
    cases type with
    | view =>
      obtain ⟨⟨hw, hh, -⟩, hs⟩ := Option.ite_none_right_eq_some.1 hs
      cases hs
      unfold paintView
      split
      · exact ⟨.inr ⟨pos_toInt.1 hw, pos_toInt.1 hh, rfl⟩, h.popup⟩
      · rename_i hsame
        push Not at hsame
        refine ⟨?_, h.popup⟩
        rw [← hsame.1, ← hsame.2.1]
        exact h.texture
    | popup =>
      obtain ⟨-, hs⟩ := Option.ite_none_right_eq_some.1 hs
      cases hs
      unfold paintPopup
      split
      exacts [⟨h.texture, h.popup⟩, h]

/-! ## The calls of a step -/

theorem subImage_inBounds (h : s.Inv) {width height : Int32} {r : Rect} (hw : 0 < width)
    (hsame : s.viewWidth = width ∧ s.viewHeight = height) (hr : Within width height r) :
    (s.subImage width height r).InBounds := by
  obtain ⟨⟨hx, hrw, hxw⟩, hy, hrh, hyh⟩ := hr
  rcases h.texture with ⟨hzero, -, -⟩ | ⟨-, -, htexture⟩
  · rw [← hsame.1, hzero] at hw
    exact absurd hw (by decide)
  · refine ⟨⟨hrw, hrh⟩, ⟨hx, hy, _, htexture, ?_, ?_⟩, ?_⟩
    · rw [hsame.1]
      exact hxw
    · rw [hsame.2]
      exact hyh
    · intro i j hi hiw hj hjh
      exact SubImage.source_of_rect hx hy hxw hyh hi hiw hj hjh

theorem popupImage_inBounds_iff (h : s.Inv) {width height : Int32} (hw : 0 < width) (hh : 0 < height) :
    (s.popupImage width height).InBounds ↔ s.viewWidth ≠ 0 ∧
      (s.popupRect.x ≤ s.viewWidth ∧ s.popupRect.x.toInt + width.toInt < 2 ^ 31) ∧
      (s.popupRect.y ≤ s.viewHeight ∧ s.popupRect.y.toInt + height.toInt < 2 ^ 31) := by
  obtain ⟨hx, hy⟩ := h.popup
  obtain ⟨hvw, hvh⟩ := h.view
  have hw' := pos_toInt.1 hw
  have hh' := pos_toInt.1 hh
  obtain ⟨hskip, hxc, hwc⟩ := clip_eq hx hw' hvw
  obtain ⟨hskip', hyc, hhc⟩ := clip_eq hy hh' hvh
  have hvwlt := s.viewWidth.toInt_lt
  have hvhlt := s.viewHeight.toInt_lt
  rw [Int32.le_iff_toInt_le, Int32.le_iff_toInt_le]
  constructor
  · rintro ⟨⟨hew, heh⟩, ⟨-, -, size, hsize, hright, hbottom⟩, -⟩
    rcases h.texture with ⟨-, -, hnone⟩ | ⟨hpos, -, htexture⟩
    · rw [popupImage, hnone] at hsize
      cases hsize
    · have hsize' : s.texture = some size := hsize
      rw [htexture, Option.some.injEq] at hsize'
      subst hsize'
      simp only [popupImage, hxc, hyc, hwc, hhc] at hew heh hright hbottom
      refine ⟨fun hzero => by rw [hzero] at hpos; exact absurd hpos (by decide), ?_, ?_⟩
      · split at hew <;> omega
      · split at heh <;> omega
  · rintro ⟨hview, ⟨hxv, hxlt⟩, hyv, hylt⟩
    rcases h.texture with ⟨hzero, -, -⟩ | ⟨-, -, htexture⟩
    · exact absurd hzero hview
    · rw [if_pos hxlt] at hwc
      rw [if_pos hylt] at hhc
      refine ⟨?_, ⟨?_, ?_, _, htexture, ?_, ?_⟩, ?_⟩
      · simp only [popupImage, hwc, hhc]
        omega
      · simpa only [popupImage, hxc] using hx
      · simpa only [popupImage, hyc] using hy
      · simp only [popupImage, hxc, hwc]
        omega
      · simp only [popupImage, hyc, hhc]
        omega
      · intro i j hi hiw hj hjh
        simp only [popupImage, hskip, hskip', hwc, hhc] at hiw hjh ⊢
        have hz : (0 : Int32).toInt = 0 := rfl
        rw [hz]
        exact SubImage.source_of_rect (le_refl 0) (le_refl 0) (by omega) (by omega) hi hiw hj hjh

/-- The calls of a step are in bounds just when the step fits. -/
theorem step_inBounds_iff (h : s.Inv) (hs : s.step e = some s') :
    (∃ new, s'.issued = s.issued ++ new ∧ ∀ c ∈ new, c.InBounds) ↔ Fits s e := by
  cases e with
  | popupShow «show» =>
    cases hs
    refine iff_of_true ⟨[], ?_, nofun⟩ trivial
    unfold onPopupShow
    split <;> simp
  | popupSize rect =>
    cases hs
    refine iff_of_true ⟨[], ?_, nofun⟩ trivial
    unfold onPopupSize
    split <;> simp
  | paint type dirtyRects width height =>
    cases type with
    | view =>
      obtain ⟨⟨hw, -, hdirty⟩, hs⟩ := Option.ite_none_right_eq_some.1 hs
      cases hs
      unfold paintView
      split
      · exact iff_of_true ⟨[], by simp, nofun⟩ trivial
      · rename_i hsame
        push Not at hsame
        refine iff_of_true ⟨_, rfl, fun c hc => ?_⟩ trivial
        obtain ⟨r, hr, rfl⟩ := List.mem_map.1 hc
        exact subImage_inBounds h hw ⟨hsame.1, hsame.2.1⟩ (hdirty r hr)
    | popup =>
      obtain ⟨⟨hw, hh⟩, hs⟩ := Option.ite_none_right_eq_some.1 hs
      cases hs
      unfold paintPopup Fits
      split
      · rename_i hshown
        constructor
        · rintro ⟨new, hnew, hall⟩ - -
          rw [List.append_cancel_left_eq] at hnew
          subst hnew
          exact (popupImage_inBounds_iff h hw hh).1 (hall _ (.head _))
        · intro hfits
          refine ⟨_, rfl, fun c hc => ?_⟩
          rw [List.mem_singleton.1 hc]
          exact (popupImage_inBounds_iff h hw hh).2 (hfits hshown.1 hshown.2)
      · rename_i hhidden
        exact iff_of_true ⟨[], by simp, nofun⟩ fun h₁ h₂ => absurd ⟨h₁, h₂⟩ hhidden

end

/-- In a run of steps that fit every call is in bounds, and after any run at all those of the next step
are just when it fits. -/
theorem issued_inBounds (es : List Event) (s : OsrRenderer) (h : Lts.Run step Lts.Any {} es s) :
    (Lts.Run step Fits {} es s → ∀ c ∈ s.issued, c.InBounds) ∧
      ∀ e s', s.step e = some s' →
        ((∃ new, s'.issued = s.issued ++ new ∧ ∀ c ∈ new, c.InBounds) ↔ Fits s e) := by
  constructor
  · intro h
    have hrun : s.Inv ∧ ∀ c ∈ s.issued, c.InBounds := by
      refine h.inv (I := fun s => s.Inv ∧ ∀ c ∈ s.issued, c.InBounds) ?_ ⟨.init, nofun⟩
      rintro s e s' ⟨hi, hall⟩ hfits hs
      obtain ⟨new, hnew, hin⟩ := (step_inBounds_iff hi hs).2 hfits
      refine ⟨hi.step hs, fun c hc => ?_⟩
      rw [hnew, List.mem_append] at hc
      exact hc.elim (hall c) (hin c)
    exact hrun.2
  · intro e s' hs
    exact step_inBounds_iff (h.inv (fun _ _ _ hi _ hs => hi.step hs) .init) hs

/-- A popup that reaches over the edge of the view. -/
theorem issued_inBounds_popup :
    ∃ s, Lts.Run step Fits {} [.paint .view [] 100 100, .popupSize ⟨80, 80, 40, 40⟩, .paint .popup [] 60 60] s ∧
      s.issued.length = 1 ∧ ∀ c ∈ s.issued, c.InBounds := by
  obtain ⟨s, hs, hlen⟩ : ∃ s, Lts.exec (Lts.checked step Fits) {} [.paint .view [] 100 100,
      .popupSize ⟨80, 80, 40, 40⟩, .paint .popup [] 60 60] = some s ∧ s.issued.length = 1 := ⟨_, rfl, rfl⟩
  have hrun := Lts.run_of_checked hs
  exact ⟨s, hrun, hlen, (issued_inBounds _ s hrun.any).1 hrun⟩

/-- The view shrinks between the size and the paint of the popup: its extents are negative. -/
theorem not_issued_inBounds_shrunk :
    ¬ ∀ es s, Lts.Run step Lts.Any {} es s → ∀ c ∈ s.issued, c.InBounds := by
  intro h
  obtain ⟨s, hs, c, hc, hneg⟩ : ∃ s, Lts.exec step {} [.paint .view [] 100 100, .popupSize ⟨80, 80, 20, 20⟩,
      .paint .view [] 50 50, .paint .popup [] 20 20] = some s ∧ ∃ c ∈ s.issued, c.width.toInt < 0 :=
    ⟨_, rfl, _, .head _, by decide⟩
  have hin := (h _ s (Lts.run_of_exec hs) c hc).extent.1
  omega

end OsrRenderer
end NplBrowser
