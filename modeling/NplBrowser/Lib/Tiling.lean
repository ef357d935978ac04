import Mathlib.Data.List.Chain
import Mathlib.Order.Lattice

/-!
# Intervals one behind another

`Tiles p r is`: the half-open intervals `is`, none of them empty, lie one behind another from `p` to
`r`. Then they partition what is between `p` and `r`.
-/

namespace Tiling

variable {α : Type*} [LinearOrder α]

def Tiles : α → α → List (α × α) → Prop
  | p, r, [] => p = r
  | p, r, i :: is => i.1 = p ∧ p < i.2 ∧ Tiles i.2 r is

/-- Nonempty intervals in increasing order that cover just what is between `p` and `r`. -/
structure Partition (p r : α) (is : List (α × α)) : Prop where
  nonempty : ∀ i ∈ is, i.1 < i.2
  increasing : is.Pairwise fun i j => i.2 ≤ j.1
  covered : ∀ x, (p ≤ x ∧ x < r) ↔ ∃ i ∈ is, i.1 ≤ x ∧ x < i.2

variable {p q r : α} {is js : List (α × α)}

theorem Tiles.append (h : Tiles p q is) (h' : Tiles q r js) : Tiles p r (is ++ js) := by
  induction is generalizing p with
  | nil =>
    obtain rfl : p = q := h
    exact h'
  | cons i is ih => exact ⟨h.1, h.2.1, ih h.2.2⟩

theorem Tiles.le (h : Tiles p r is) : p ≤ r := by
  induction is generalizing p with
  | nil => exact le_of_eq h
  | cons i is ih => exact h.2.1.le.trans (ih h.2.2)

/-- Every interval begins at `p` at the earliest. -/
theorem Tiles.start_le (h : Tiles p r is) : ∀ i ∈ is, p ≤ i.1 := by
  induction is generalizing p with
  | nil => exact nofun
  | cons i is ih =>
    intro j hj
    rcases List.mem_cons.1 hj with rfl | hj
    · exact h.1.ge
    · exact h.2.1.le.trans (ih h.2.2 j hj)

theorem Tiles.partition (h : Tiles p r is) : Partition p r is := by
  induction is generalizing p with
  | nil =>
    obtain rfl : p = r := h
    exact ⟨nofun, .nil, fun x => ⟨fun hx => absurd hx.2 hx.1.not_gt, nofun⟩⟩
  | cons i is ih =>
    obtain ⟨rfl, hlt, hrest⟩ := h
    obtain ⟨hnonempty, hincreasing, hcovered⟩ := ih hrest
    refine ⟨List.forall_mem_cons.2 ⟨hlt, hnonempty⟩, hincreasing.cons hrest.start_le, fun x => ?_⟩
    rw [List.exists_mem_cons_iff, ← hcovered]
    have hle := hrest.le
    constructor
    · rintro ⟨hx, hxr⟩
      rcases lt_or_ge x i.2 with hxi | hxi
      exacts [.inl ⟨hx, hxi⟩, .inr ⟨hxi, hxr⟩]
    · rintro (⟨hx, hxi⟩ | ⟨hx, hxr⟩)
      exacts [⟨hx, hxi.trans_le hle⟩, ⟨hlt.le.trans hx, hxr⟩]

/-- The interval from `p` to `q`, if it is not empty. -/
def between (p q : α) : List (α × α) := if p < q then [(p, q)] else []

theorem tiles_between (h : p ≤ q) : Tiles p q (between p q) := by
  unfold between
  split <;> rename_i hpq
  · exact ⟨rfl, hpq, rfl⟩
  · exact h.antisymm (not_lt.1 hpq)

/-- The intervals between boundaries. -/
def consecutive (bounds : List α) : List (α × α) := bounds.zip bounds.tail

theorem tiles_consecutive {bounds : List α} (h : (p :: bounds).IsChain (· < ·)) :
    Tiles p ((p :: bounds).getLast (by simp)) (consecutive (p :: bounds)) := by
  induction bounds generalizing p with
  | nil => rfl
  | cons b bounds ih =>
    obtain ⟨hpb, hrest⟩ := List.isChain_cons_cons.1 h
    refine ⟨rfl, hpb, ?_⟩
    rw [List.getLast_cons_cons]
    exact ih hrest

end Tiling
