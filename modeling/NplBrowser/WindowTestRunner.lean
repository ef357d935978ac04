import NplBrowser.OsrRenderer

/-!
# Placing the window inside of a display (`window_test_runner.cc`)

`ModifyBounds` treats both directions alike: the window's origin is moved to the display's coordinates
and not left before its edge, the extent is brought between 100 and that of the display, and a window
that reaches over the far edge is moved back to it. The sum that is compared with the far edge wraps
around when the origin is close to the largest `int`, and the window is left where it is then.
-/

namespace NplBrowser

namespace WindowTestRunner

/-- The origin, which is relative to the display's, as far as the first comparison leaves it. -/
def enter (display origin : Int32) : Int32 :=
  let origin := origin + display
  if origin < display then display else origin

def size (display extent : Int32) : Int32 :=
  if extent < 100 then 100 else if extent ≥ display then display else extent

/-- Back from the far edge. -/
def retreat (display displayExtent origin extent : Int32) : Int32 :=
  if origin + extent ≥ display + displayExtent then display + displayExtent - extent else origin

def modifyBounds (display window : Rect) : Rect :=
  let x := enter display.x window.x
  let y := enter display.y window.y
  let width := size display.width window.width
  let height := size display.height window.height
  { x := retreat display.x display.width x width
    y := retreat display.y display.height y height
    width
    height }

/-- A display's work area, at least 100 by 100, whose edges are `int`s. -/
structure Display extends Rect where
  wide : 100 ≤ width.toInt
  high : 100 ≤ height.toInt
  right_lt : x.toInt + width.toInt < 2 ^ 31
  bottom_lt : y.toInt + height.toInt < 2 ^ 31

/-- The window lies inside of the display and is at least 100 by 100. -/
structure OnScreen (display : Display) (window : Rect) : Prop where
  left : display.x.toInt ≤ window.x.toInt
  right : window.x.toInt + window.width.toInt ≤ display.x.toInt + display.width.toInt
  top : display.y.toInt ≤ window.y.toInt
  bottom : window.y.toInt + window.height.toInt ≤ display.y.toInt + display.height.toInt
  wide : 100 ≤ window.width.toInt
  high : 100 ≤ window.height.toInt

/-- The far edges of the window, before it is moved back, are `int`s. -/
def Fits (display : Display) (window : Rect) : Prop :=
  (enter display.x window.x).toInt + (size display.width window.width).toInt < 2 ^ 31 ∧
    (enter display.y window.y).toInt + (size display.height window.height).toInt < 2 ^ 31

instance (display : Display) (window : Rect) : Decidable (Fits display window) :=
  inferInstanceAs (Decidable (_ ∧ _))

/-! ### One direction -/

variable {display displayExtent origin extent : Int32}

theorem le_enter (display origin : Int32) : display.toInt ≤ (enter display origin).toInt := by
  unfold enter
  dsimp only
  split
  · exact Int.le_refl _
  · rename_i h
    rw [Int32.lt_iff_toInt_lt] at h
    exact Int.not_lt.1 h

theorem size_bounds (h : 100 ≤ displayExtent.toInt) (extent : Int32) :
    100 ≤ (size displayExtent extent).toInt ∧ (size displayExtent extent).toInt ≤ displayExtent.toInt := by
  have h100 : (100 : Int32).toInt = 100 := rfl
  unfold size
  split
  · exact ⟨by rw [h100], by rwa [h100]⟩
  · rename_i hlow
    rw [Int32.lt_iff_toInt_lt, h100] at hlow
    split
    · exact ⟨h, Int.le_refl _⟩
    · rename_i hhigh
      rw [ge_iff_le, Int32.le_iff_toInt_le] at hhigh
      omega

/-- The window is moved back as far as it has to be, unless its far edge is no `int`. -/
theorem retreat_inside_iff (horigin : display.toInt ≤ origin.toInt) (hpos : 0 ≤ extent.toInt)
    (hextent : extent.toInt ≤ displayExtent.toInt) (hfar : display.toInt + displayExtent.toInt < 2 ^ 31) :
    (display.toInt ≤ (retreat display displayExtent origin extent).toInt ∧
      (retreat display displayExtent origin extent).toInt + extent.toInt ≤
        display.toInt + displayExtent.toInt) ↔ origin.toInt + extent.toInt < 2 ^ 31 := by
  have h₁ := display.le_toInt
  have h₂ := origin.toInt_lt
  have h₃ := extent.toInt_lt
  have hedge : (display + displayExtent).toInt = display.toInt + displayExtent.toInt :=
    MachineInt.toInt_add_iff.2 (by omega)
  have hback : (display + displayExtent - extent).toInt = display.toInt + displayExtent.toInt - extent.toInt := by
    rw [← hedge]
    exact MachineInt.toInt_sub_iff.2 (by omega)
  have hsum := MachineInt.toInt_add (a := origin) hpos
  unfold retreat
  simp only [ge_iff_le, Int32.le_iff_toInt_le, hedge]
  by_cases hover : origin.toInt + extent.toInt < 2 ^ 31
  · rw [if_pos hover] at hsum
    split <;> omega
  · rw [if_neg hover] at hsum
    split <;> omega

/-! ### Both directions -/

/-- The window is placed on the screen just when the edges that are compared are `int`s. -/
theorem modifyBounds_onScreen_iff (display : Display) (window : Rect) :
    OnScreen display (modifyBounds display.toRect window) ↔ Fits display window := by
  obtain ⟨hwide, hwidth⟩ := size_bounds display.wide window.width
  obtain ⟨hhigh, hheight⟩ := size_bounds display.high window.height
  have hx := retreat_inside_iff (le_enter display.x window.x) (by omega) hwidth display.right_lt
  have hy := retreat_inside_iff (le_enter display.y window.y) (by omega) hheight display.bottom_lt
  constructor
  · intro h
    exact ⟨hx.1 ⟨h.left, h.right⟩, hy.1 ⟨h.top, h.bottom⟩⟩
  · rintro ⟨hfx, hfy⟩
    obtain ⟨hleft, hright⟩ := hx.2 hfx
    obtain ⟨htop, hbottom⟩ := hy.2 hfy
    exact ⟨hleft, hright, htop, hbottom, hwide, hhigh⟩

/-- A window whose origin is the largest `int`. -/
theorem not_modifyBounds_onScreen_far :
    ¬ ∀ (display : Display) (window : Rect), OnScreen display (modifyBounds display.toRect window) := by
  intro h
  have hright := (h ⟨⟨0, 0, 1920, 1080⟩, by decide, by decide, by decide, by decide⟩ ⟨2147483647, 0, 300, 200⟩).right
  exact absurd hright (by decide)

end WindowTestRunner
end NplBrowser
