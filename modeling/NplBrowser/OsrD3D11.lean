import Mathlib.Tactic.Ring
import NplBrowser.Lib.MachineInt
import NplBrowser.Lib.Run

/-!
# The accelerated off-screen renderer

`OsrRenderHandlerWinD3D11::Render` draws the texture it shares with the browser, and first brings
the composition and the swap chain to the texture's size. The size is kept in four places: the
fields of both objects, the buffer of the swap chain and the viewport, whose extents are floats.

`SwapChain::resize` returns early when one of the two extents has not changed, so the last three
follow a texture only if both extents changed or neither did (`Keeps`). Every D3D call
succeeds here; layers, blending and time are left out.
-/

namespace NplBrowser

/-- `static_cast<float>` of a positive `int`: 24 significant bits, ties to even. -/
def single (n : Nat) : Nat :=
  if n < 2 ^ 24 then n else
  let u := 2 ^ (n.log2 - 23)
  let q := n / u
  let r := n % u
  if u < 2 * r ∨ (u = 2 * r ∧ q % 2 = 1) then (q + 1) * u else q * u

example : single 16777217 = 16777216 := by decide +kernel

/-- The size of a shared texture. -/
structure Texture where
  width : UInt32
  height : UInt32
  width_pos : 0 < width
  height_pos : 0 < height

namespace Texture

/-- `texture_size()` where it is passed on as two `int`s. -/
def toInt (t : Texture) : Int × Int := (t.width.toInt32.toInt, t.height.toInt32.toInt)

end Texture

structure Viewport where
  width : Nat
  height : Nat
deriving DecidableEq

/-- `width_`, `height_`, the size of the buffers and the viewport of the context. -/
structure SwapChain where
  width : Int := 0
  height : Int := 0
  buffer : UInt32 × UInt32
  viewport : Option Viewport := none
deriving DecidableEq

/-- `SwapChain::resize`. -/
def SwapChain.resize (s : SwapChain) (width height : Int) : SwapChain :=
  if width ≤ 0 ∨ height ≤ 0 ∨ width = s.width ∨ height = s.height then s
  else
    { width
      height
      buffer := (UInt32.ofInt width, UInt32.ofInt height)
      viewport := some ⟨single width.toNat, single height.toNat⟩ }

structure Composition where
  width : Int
  height : Int
  vsync : Bool := true
deriving DecidableEq

def Composition.resize (c : Composition) (vsync : Bool) (width height : Int) : Composition :=
  { c with vsync, width, height }

structure RenderHandlerD3D11 where
  composition : Composition
  swapChain : SwapChain
deriving DecidableEq

/-- A call to `Render`. -/
structure Frame where
  texture : Texture
  sendBeginFrame : Bool

namespace RenderHandlerD3D11

/-- `Initialize`: the composition has the size asked for, the buffers that of the window. -/
def start (width height : Int) (window : UInt32 × UInt32) : RenderHandlerD3D11 where
  composition := { width, height }
  swapChain := { buffer := window }

def render (r : RenderHandlerD3D11) (f : Frame) : RenderHandlerD3D11 where
  composition := r.composition.resize (!f.sendBeginFrame) f.texture.toInt.1 f.texture.toInt.2
  swapChain := r.swapChain.resize f.texture.toInt.1 f.texture.toInt.2

def step (r : RenderHandlerD3D11) (f : Frame) : Option RenderHandlerD3D11 := some (r.render f)

/-- All four places have the size of the texture. -/
structure Follows (r : RenderHandlerD3D11) (t : Texture) : Prop where
  composition : r.composition.width = t.width.toNat ∧ r.composition.height = t.height.toNat
  swapChain : r.swapChain.width = t.width.toNat ∧ r.swapChain.height = t.height.toNat
  buffer : r.swapChain.buffer = (t.width, t.height)
  viewport : r.swapChain.viewport = some ⟨t.width.toNat, t.height.toNat⟩

/-- The extents are `int`s that a float holds exactly. -/
def Fits (t : Texture) : Prop :=
  (t.width.toNat < 2 ^ 31 ∧ single t.width.toNat = t.width.toNat) ∧
    (t.height.toNat < 2 ^ 31 ∧ single t.height.toNat = t.height.toNat)

/-- Both extents of the swap chain change, or neither does. -/
def Keeps (r : RenderHandlerD3D11) (f : Frame) : Prop :=
  Fits f.texture ∧
    (r.swapChain.width = f.texture.width.toNat ↔ r.swapChain.height = f.texture.height.toNat)

instance (r : RenderHandlerD3D11) (f : Frame) : Decidable (Keeps r f) :=
  inferInstanceAs (Decidable (((_ ∧ _) ∧ (_ ∧ _)) ∧ _))

/-! ## What the swap chain is between two frames -/

/-- `resize` has set nothing yet, or all of it from one size. -/
structure Inv (s : SwapChain) : Prop where
  fresh : s.viewport = none → s.width = 0 ∧ s.height = 0
  sized : ∀ v, s.viewport = some v → 0 < s.width ∧ 0 < s.height ∧
    s.buffer = (UInt32.ofInt s.width, UInt32.ofInt s.height) ∧
    v = ⟨single s.width.toNat, single s.height.toNat⟩

theorem Inv.initial (window : UInt32 × UInt32) : Inv { buffer := window } where
  fresh _ := ⟨rfl, rfl⟩
  sized v h := by simp at h

theorem Inv.resize {s : SwapChain} (hi : Inv s) (width height : Int) : Inv (s.resize width height) := by
  unfold SwapChain.resize
  split
  · exact hi
  · rename_i h
    simp only [not_or, Int.not_le] at h
    constructor
    · intro hv
      simp at hv
    · intro v hv
      exact ⟨h.1, h.2.1, rfl, (Option.some.inj hv).symm⟩

theorem inv_run {width height : Int} {window : UInt32 × UInt32} {fs : List Frame}
    {r : RenderHandlerD3D11} (h : Lts.Run step Lts.Any (start width height window) fs r) :
    Inv r.swapChain := by
  refine h.inv (I := fun r => Inv r.swapChain) ?_ (Inv.initial window)
  intro r f r' hi _ hs
  cases Option.some.inj hs
  exact hi.resize _ _

/-! ## When a frame is followed -/

theorem ofInt_toNat (n : UInt32) : UInt32.ofInt n.toNat = n := by
  apply UInt32.toNat_inj.1
  have hn : n.toNat < 2 ^ 32 := n.toNat_lt
  simp only [UInt32.ofInt, UInt32.toNat_ofNat']
  omega

section
variable {r : RenderHandlerD3D11} {f : Frame}

theorem Fits.toInt {t : Texture} (h : Fits t) : t.toInt = (↑t.width.toNat, ↑t.height.toNat) := by
  rw [Texture.toInt, MachineInt.toInt_toInt32_iff.2 h.1.1, MachineInt.toInt_toInt32_iff.2 h.2.1]

theorem pos_of_texture (t : Texture) : 0 < t.width.toNat ∧ 0 < t.height.toNat :=
  ⟨UInt32.lt_iff_toNat_lt.1 t.width_pos, UInt32.lt_iff_toNat_lt.1 t.height_pos⟩

theorem Keeps.follows (hi : Inv r.swapChain) (h : Keeps r f) : Follows (r.render f) f.texture := by
  obtain ⟨hfits, hboth⟩ := h
  have ht := hfits.toInt
  obtain ⟨hw, hh⟩ := pos_of_texture f.texture
  have hcomposition : (r.render f).composition.width = f.texture.width.toNat ∧
      (r.render f).composition.height = f.texture.height.toNat := by
    simp [render, Composition.resize, ht]
  have hswap : (r.render f).swapChain =
      r.swapChain.resize f.texture.width.toNat f.texture.height.toNat := by
    rw [render, ht]
  by_cases hsame : r.swapChain.width = f.texture.width.toNat
  · have hheight := hboth.1 hsame
    rw [SwapChain.resize, if_pos (.inr (.inr (.inl hsame.symm)))] at hswap
    cases hv : r.swapChain.viewport with
    | none =>
      have h0 := (hi.fresh hv).1
      omega
    | some v =>
      obtain ⟨-, -, hbuffer, rfl⟩ := hi.sized v hv
      rw [hsame, hheight] at hbuffer hv
      refine ⟨hcomposition, by rw [hswap]; exact ⟨hsame, hheight⟩, ?_, ?_⟩
      · rw [hswap, hbuffer, ofInt_toNat, ofInt_toNat]
      · rw [hswap, hv, Int.toNat_natCast, Int.toNat_natCast, hfits.1.2, hfits.2.2]
  · have hheight : r.swapChain.height ≠ f.texture.height.toNat := fun h => hsame (hboth.2 h)
    rw [SwapChain.resize, if_neg (by omega)] at hswap
    refine ⟨hcomposition, by rw [hswap]; exact ⟨rfl, rfl⟩, ?_, ?_⟩
    · rw [hswap, ofInt_toNat, ofInt_toNat]
    · rw [hswap, Int.toNat_natCast, Int.toNat_natCast, hfits.1.2, hfits.2.2]

theorem Follows.keeps (hi : Inv r.swapChain) (h : Follows (r.render f) f.texture) : Keeps r f := by
  have hw : f.texture.width.toInt32.toInt = f.texture.width.toNat := h.composition.1
  have hh : f.texture.height.toInt32.toInt = f.texture.height.toNat := h.composition.2
  have ht : f.texture.toInt = (↑f.texture.width.toNat, ↑f.texture.height.toNat) := by
    rw [Texture.toInt, hw, hh]
  obtain ⟨hwpos, hhpos⟩ := pos_of_texture f.texture
  obtain ⟨-, hsize, -, hview⟩ := h
  simp only [render, ht] at hsize hview
  have hsingle : single f.texture.width.toNat = f.texture.width.toNat ∧
      single f.texture.height.toNat = f.texture.height.toNat := by
    obtain ⟨-, -, -, hv⟩ := (hi.resize _ _).sized _ hview
    rw [hsize.1, hsize.2, Int.toNat_natCast, Int.toNat_natCast, Viewport.mk.injEq] at hv
    exact ⟨hv.1.symm, hv.2.symm⟩
  refine ⟨⟨⟨MachineInt.toInt_toInt32_iff.1 hw, hsingle.1⟩, ⟨MachineInt.toInt_toInt32_iff.1 hh, hsingle.2⟩⟩, ?_⟩
  unfold SwapChain.resize at hsize
  split at hsize
  · exact ⟨fun _ => hsize.2, fun _ => hsize.1⟩
  · rename_i hchanged
    omega

end

/-- In any run of frames that each keep the swap chain in step the last one is followed, and after
any frames at all the next one is followed just when it does. -/
theorem follows_render (width height : Int) (window : UInt32 × UInt32) :
    (∀ fs f r, Lts.Run step Keeps (start width height window) (fs ++ [f]) r → Follows r f.texture) ∧
      ∀ fs r f, Lts.Run step Lts.Any (start width height window) fs r →
        (Follows (r.render f) f.texture ↔ Keeps r f) := by
  constructor
  · intro fs f r h
    obtain ⟨m, hm, hkeeps, hs⟩ := h.of_append_single
    cases Option.some.inj hs
    exact hkeeps.follows (inv_run hm.any)
  · intro fs r f h
    exact ⟨fun hf => hf.keeps (inv_run h), fun hk => hk.follows (inv_run h)⟩

/-- A frame of the given size. -/
def frame (width height : UInt32) (hw : 0 < width := by decide) (hh : 0 < height := by decide) : Frame :=
  ⟨⟨width, height, hw, hh⟩, false⟩

theorem follows_render_grown :
    ∃ r, Lts.Run step Keeps (start 800 600 (800, 600)) ([frame 800 600, frame 800 600] ++ [frame 640 480]) r ∧
      Follows r (frame 640 480).texture := by
  obtain ⟨r, hr⟩ : ∃ r, Lts.exec (Lts.checked step Keeps) (start 800 600 (800, 600))
      ([frame 800 600, frame 800 600] ++ [frame 640 480]) = some r := ⟨_, rfl⟩
  have hrun := Lts.run_of_checked hr
  exact ⟨r, hrun, (follows_render 800 600 (800, 600)).1 _ _ _ hrun⟩

/-- A window made taller: the swap chain keeps its old height. -/
theorem not_follows_taller :
    ¬ ∀ (width height : Int) (window : UInt32 × UInt32) (fs : List Frame) (f : Frame)
      (r : RenderHandlerD3D11), Lts.Run step Lts.Any (start width height window) (fs ++ [f]) r →
        Follows r f.texture := by
  intro h
  have hrun : Lts.Run step Lts.Any (start 800 600 (800, 600)) ([frame 800 600] ++ [frame 800 700]) _ :=
    Lts.run_of_exec rfl
  have := (h _ _ _ _ _ _ hrun).buffer
  exact absurd this (by decide +kernel)

end RenderHandlerD3D11
end NplBrowser
