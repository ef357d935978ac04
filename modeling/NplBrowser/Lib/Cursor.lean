import Mathlib.Data.List.Basic

/-!
# Cursors on a list

A cursor is a position in a list, its end included. Forward moves stop at the end, and what they pass
over is a piece of the list, so what a cursor delivers between two resets is a sublist of the items.
-/

/-- A list with a position in it. -/
structure Cursor (α : Type*) where
  items : List α
  pos : Nat
  pos_le : pos ≤ items.length

namespace Cursor

variable {α : Type*} {c : Cursor α} {k : Nat} {d : List α}

def start (items : List α) : Cursor α := ⟨items, 0, Nat.zero_le _⟩

/-- As far as there are items. -/
def advance (c : Cursor α) (k : Nat) : Cursor α := ⟨c.items, min (c.pos + k) c.items.length, Nat.min_le_right _ _⟩

/-- The next `k` items, or fewer at the end. -/
def upcoming (c : Cursor α) (k : Nat) : List α := (c.items.drop c.pos).take k

/-- There are `k` items ahead. -/
def Available (c : Cursor α) (k : Nat) : Prop := c.pos + k ≤ c.items.length

instance (c : Cursor α) (k : Nat) : Decidable (c.Available k) := inferInstanceAs (Decidable (_ ≤ _))

def reset (c : Cursor α) : Cursor α := start c.items

@[simp] theorem items_start (items : List α) : (start items).items = items := rfl

@[simp] theorem items_advance (c : Cursor α) (k : Nat) : (c.advance k).items = c.items := rfl

@[simp] theorem pos_advance (c : Cursor α) (k : Nat) :
    (c.advance k).pos = min (c.pos + k) c.items.length := rfl

@[simp] theorem items_reset (c : Cursor α) : c.reset.items = c.items := rfl

theorem length_upcoming (c : Cursor α) (k : Nat) : (c.upcoming k).length = min k (c.items.length - c.pos) := by
  simp [upcoming]

theorem length_upcoming_eq_iff : (c.upcoming k).length = k ↔ c.Available k := by
  have := c.pos_le
  rw [length_upcoming, Available]
  omega

/-- What lies before the position after a move. -/
theorem take_advance (c : Cursor α) (k : Nat) :
    c.items.take (c.advance k).pos = c.items.take c.pos ++ c.upcoming k := by
  rw [upcoming, ← List.take_add, pos_advance]
  rcases Nat.le_total (c.pos + k) c.items.length with h | h
  · rw [Nat.min_eq_left h]
  · rw [Nat.min_eq_right h, List.take_length, List.take_of_length_le h]

/-- All that has been delivered lies before the position, in order. -/
def Passed (c : Cursor α) (d : List α) : Prop := d.Sublist (c.items.take c.pos)

theorem Passed.nil (c : Cursor α) : c.Passed [] := List.nil_sublist _

theorem Passed.next (h : c.Passed d) (k : Nat) : (c.advance k).Passed (d ++ c.upcoming k) := by
  unfold Passed
  rw [items_advance, take_advance]
  exact List.Sublist.append h (List.Sublist.refl _)

theorem Passed.skip (h : c.Passed d) (k : Nat) : (c.advance k).Passed d := by
  unfold Passed
  rw [items_advance, take_advance]
  exact h.trans (List.sublist_append_left _ _)

theorem Passed.sublist (h : c.Passed d) : d.Sublist c.items := h.trans (List.take_sublist _ _)

end Cursor
