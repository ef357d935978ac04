import Mathlib.Algebra.BigOperators.Intervals
import Mathlib.Data.List.Basic

/-!
# Queues

`Ahead q t P`: the queue `q` holds `t`, and `P` is what is to be taken off it before. A property of
waiting elements that speaks of what comes before them is stated for every `P`; appending to the
queue leaves it alone, and taking off the head moves the head from `P` into the state.

The backlog: in round `i` there is room for `size i`, and of what has come up by then, `due i` in all, the
rest is left for the next round. What is left after `n` rounds is the worst of the sums from some round
on.
-/

namespace Fifo

variable {α : Type*} {q l P : List α} {t u : α}

def Ahead (q : List α) (t : α) (P : List α) : Prop := ∃ S, q = P ++ t :: S

theorem Ahead.mem (h : Ahead q t P) : t ∈ q := by
  obtain ⟨S, rfl⟩ := h
  simp

theorem Ahead.subset (h : Ahead q t P) : P ⊆ q := by
  obtain ⟨S, rfl⟩ := h
  exact List.subset_append_left P _

theorem exists_ahead (h : t ∈ q) : ∃ P, Ahead q t P := by
  obtain ⟨P, S, hq⟩ := List.append_of_mem h
  exact ⟨P, S, hq⟩

theorem not_ahead_nil : ¬ Ahead [] t P := by
  rintro ⟨S, h⟩
  simp at h

/-- One place further back, behind a new head. -/
theorem Ahead.cons (h : Ahead q t P) (u : α) : Ahead (u :: q) t (u :: P) := by
  obtain ⟨S, rfl⟩ := h
  exact ⟨S, rfl⟩

theorem ahead_head (t : α) (q : List α) : Ahead (t :: q) t [] := ⟨q, rfl⟩

theorem Ahead.append_left (h : Ahead q t P) (l : List α) : Ahead (l ++ q) t (l ++ P) := by
  obtain ⟨S, rfl⟩ := h
  exact ⟨S, by rw [List.append_assoc]⟩

theorem ahead_append (h : Ahead (q ++ l) t P) :
    Ahead q t P ∨ ∃ P', P = q ++ P' ∧ Ahead l t P' := by
  obtain ⟨S, h⟩ := h
  rcases List.append_eq_append_iff.1 h with ⟨P', rfl, hl⟩ | ⟨S', rfl, hS⟩
  · exact .inr ⟨P', rfl, S, hl⟩
  · cases S' with
    | nil =>
      rw [List.nil_append] at hS
      exact .inr ⟨[], by simp, S, hS.symm⟩
    | cons v S' =>
      rw [List.cons_append, List.cons.injEq] at hS
      obtain ⟨rfl, -⟩ := hS
      exact .inl ⟨S', rfl⟩

theorem ahead_append_singleton (h : Ahead (q ++ [u]) t P) : Ahead q t P ∨ (P = q ∧ t = u) := by
  rcases ahead_append h with h | ⟨P', rfl, S, h⟩
  · exact .inl h
  · cases P' with
    | nil =>
      rw [List.nil_append, List.cons.injEq] at h
      exact .inr ⟨by simp, h.1.symm⟩
    | cons v P' => simp at h

/-- The first of the elements with a property. -/
theorem exists_first {p : α → Prop} (h : ∃ t ∈ q, p t) :
    ∃ t P, Ahead q t P ∧ p t ∧ ∀ u ∈ P, ¬ p u := by
  induction q with
  | nil =>
    obtain ⟨t, ht, -⟩ := h
    cases ht
  | cons u q ih =>
    by_cases hu : p u
    · exact ⟨u, [], ahead_head u q, hu, by simp⟩
    · obtain ⟨t, ht, hp⟩ := h
      have htq : t ∈ q := by
        rcases List.mem_cons.1 ht with rfl | ht
        exacts [absurd hp hu, ht]
      obtain ⟨t', P, hahead, hp', hfirst⟩ := ih ⟨t, htq, hp⟩
      refine ⟨t', u :: P, hahead.cons u, hp', fun v hv => ?_⟩
      rcases List.mem_cons.1 hv with rfl | hv
      exacts [hu, hfirst v hv]

end Fifo

namespace Backlog

variable {b due size : Nat → Nat}

theorem le_iff {n : Nat} (h0 : b 0 = 0) (hdue : ∀ i < n, due i ≤ due (i + 1))
    (hstep : ∀ i < n, b (i + 1) = b i + (due (i + 1) - due i) - size i) (k : Nat) :
    b n ≤ k ↔ ∀ i ≤ n, due n ≤ due i + ∑ j ∈ Finset.Ico i n, size j + k := by
  induction n generalizing k with
  | zero =>
    refine iff_of_true (by omega) fun i hi => ?_
    obtain rfl := Nat.le_zero.1 hi
    omega
  | succ n ih =>
    have ih := ih (fun i hi => hdue i (by omega)) (fun i hi => hstep i (by omega))
    have hb := hstep n (Nat.lt_succ_self n)
    have hd := hdue n (Nat.lt_succ_self n)
    have hsum : ∀ i ≤ n, ∑ j ∈ Finset.Ico i (n + 1), size j = ∑ j ∈ Finset.Ico i n, size j + size n :=
      fun i hi => Finset.sum_Ico_succ_top hi size
    constructor
    · intro hle i hi
      rcases Nat.le_succ_iff.1 hi with hi | rfl
      · have hlast := (ih (size n + k - (due (n + 1) - due n))).1 (by omega) i hi
        rw [hsum i hi]
        omega
      · exact (Nat.le_add_right _ _).trans (Nat.le_add_right _ _)
    · intro hfit
      have hself := hfit n (Nat.le_succ n)
      rw [hsum n (Nat.le_refl n), Finset.Ico_self, Finset.sum_empty] at hself
      have hle := (ih (size n + k - (due (n + 1) - due n))).2 fun i hi => by
        have hi' := hfit i (Nat.le_succ_of_le hi)
        rw [hsum i hi] at hi'
        omega
      omega

theorem eq_zero_iff {n : Nat} (b due size : Nat → Nat) (h0 : b 0 = 0) (hdue : ∀ i < n, due i ≤ due (i + 1))
    (hstep : ∀ i < n, b (i + 1) = b i + (due (i + 1) - due i) - size i) :
    b n = 0 ↔ ∀ i ≤ n, due n ≤ due i + ∑ j ∈ Finset.Ico i n, size j := by
  rw [← Nat.le_zero, le_iff h0 hdue hstep 0]
  simp only [Nat.add_zero]

end Backlog
