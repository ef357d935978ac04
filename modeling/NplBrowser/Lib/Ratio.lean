import Mathlib.Algebra.GroupWithZero.Nat
import Mathlib.Tactic.Ring

/-!
# The binary logarithm of a fraction, and its quotient rounded

Neither depends on how the fraction is written (`floorLog_mul`, `divRound_mul`).
-/

namespace Ratio

/-- `2 ^ k ≤ n / d`. -/
def IsBelow (n d : Nat) (k : Int) : Prop := d * 2 ^ k.toNat ≤ n * 2 ^ (-k).toNat

def floorLog (n d : Nat) : Int :=
  let k : Int := Nat.log2 n - Nat.log2 d
  if n * 2 ^ (-k).toNat < d * 2 ^ k.toNat then k - 1 else k

/-- The quotient rounded to even. -/
def divRound (n d : Nat) : Nat :=
  if 2 * (n % d) > d ∨ (2 * (n % d) = d ∧ n / d % 2 = 1) then n / d + 1 else n / d

variable {n d c : Nat} {k l : Int}

theorem isBelow_of_succ (h : IsBelow n d (k + 1)) : IsBelow n d k := by
  unfold IsBelow at *
  rcases Int.lt_or_le k 0 with hk | hk
  · have hp : (-k).toNat = (-(k + 1)).toNat + 1 := by omega
    have h0 : (k + 1).toNat = 0 := by omega
    have h0' : k.toNat = 0 := by omega
    rw [h0, pow_zero] at h
    rw [h0', pow_zero, hp, pow_succ]
    calc d * 1 ≤ n * 2 ^ (-(k + 1)).toNat := h
      _ ≤ n * (2 ^ (-(k + 1)).toNat * 2) := Nat.mul_le_mul_left n (Nat.le_mul_of_pos_right _ (by omega))
  · have hp : (k + 1).toNat = k.toNat + 1 := by omega
    have h0 : (-k).toNat = 0 := by omega
    have h0' : (-(k + 1)).toNat = 0 := by omega
    rw [h0', pow_zero, hp, pow_succ] at h
    rw [h0, pow_zero]
    exact (Nat.mul_le_mul_left d (Nat.le_mul_of_pos_right _ (by omega))).trans h

theorem isBelow_of_le (hkl : k ≤ l) (h : IsBelow n d l) : IsBelow n d k := by
  obtain ⟨i, rfl⟩ : ∃ i : Nat, l = k + i := ⟨(l - k).toNat, by omega⟩
  induction i with
  | zero => simpa using h
  | succ i ih =>
    refine ih (by omega) (isBelow_of_succ ?_)
    rwa [show k + (i : Int) + 1 = k + ((i + 1 : Nat) : Int) by push_cast; ring]

theorem isBelow_mul_iff (hc : 0 < c) : IsBelow (n * c) (d * c) k ↔ IsBelow n d k := by
  unfold IsBelow
  rw [mul_right_comm d, mul_right_comm n]
  exact Nat.mul_le_mul_right_iff hc

/-- It is the greatest such power. -/
theorem floorLog_spec (hn : 0 < n) (hd : 0 < d) :
    IsBelow n d (floorLog n d) ∧ ¬ IsBelow n d (floorLog n d + 1) := by
  have hn1 : 2 ^ Nat.log2 n ≤ n := Nat.log2_self_le hn.ne'
  have hn2 : n < 2 ^ (Nat.log2 n + 1) := Nat.lt_log2_self
  have hd1 : 2 ^ Nat.log2 d ≤ d := Nat.log2_self_le hd.ne'
  have hd2 : d < 2 ^ (Nat.log2 d + 1) := Nat.lt_log2_self
  generalize hk : (Nat.log2 n - Nat.log2 d : Int) = k
  -- one place below is always below, one place above never is
  have hlow : IsBelow n d (k - 1) := by
    unfold IsBelow
    have hadd : Nat.log2 d + 1 + (k - 1).toNat = Nat.log2 n + (-(k - 1)).toNat := by omega
    calc d * 2 ^ (k - 1).toNat ≤ 2 ^ (Nat.log2 d + 1) * 2 ^ (k - 1).toNat := Nat.mul_le_mul_right _ hd2.le
      _ = 2 ^ Nat.log2 n * 2 ^ (-(k - 1)).toNat := by rw [← pow_add, ← pow_add, hadd]
      _ ≤ n * 2 ^ (-(k - 1)).toNat := Nat.mul_le_mul_right _ hn1
  have hhigh : ¬ IsBelow n d (k + 1) := by
    unfold IsBelow
    rw [not_le]
    have hadd : Nat.log2 n + 1 + (-(k + 1)).toNat = Nat.log2 d + (k + 1).toNat := by omega
    calc n * 2 ^ (-(k + 1)).toNat < 2 ^ (Nat.log2 n + 1) * 2 ^ (-(k + 1)).toNat :=
          Nat.mul_lt_mul_of_pos_right hn2 (Nat.two_pow_pos _)
      _ = 2 ^ Nat.log2 d * 2 ^ (k + 1).toNat := by rw [← pow_add, ← pow_add, hadd]
      _ ≤ d * 2 ^ (k + 1).toNat := Nat.mul_le_mul_right _ hd1
  have hfloor : floorLog n d = if n * 2 ^ (-k).toNat < d * 2 ^ k.toNat then k - 1 else k := by
    rw [← hk]
    rfl
  rw [hfloor]
  split_ifs with h
  · rw [sub_add_cancel]
    exact ⟨hlow, not_le.2 h⟩
  · exact ⟨not_lt.1 h, hhigh⟩

theorem floorLog_mul (hn : 0 < n) (hd : 0 < d) (hc : 0 < c) : floorLog (n * c) (d * c) = floorLog n d := by
  obtain ⟨h1, h2⟩ := floorLog_spec hn hd
  obtain ⟨h3, h4⟩ := floorLog_spec (Nat.mul_pos hn hc) (Nat.mul_pos hd hc)
  rw [isBelow_mul_iff hc] at h3 h4
  refine le_antisymm (le_of_not_gt fun h => ?_) (le_of_not_gt fun h => ?_)
  · exact h2 (isBelow_of_le (by omega) h3)
  · exact h4 (isBelow_of_le (by omega) h1)

theorem divRound_mul (hc : 0 < c) : divRound (n * c) (d * c) = divRound n d := by
  have hr : n * c % (d * c) = n % d * c := Nat.mul_mod_mul_right c n d
  unfold divRound
  rw [hr, Nat.mul_div_mul_right n d hc, ← mul_assoc]
  have hgt : 2 * (n % d) * c > d * c ↔ 2 * (n % d) > d := Nat.mul_lt_mul_right hc
  have heq : 2 * (n % d) * c = d * c ↔ 2 * (n % d) = d := Nat.mul_left_inj hc.ne'
  simp only [hgt, heq]

theorem divRound_zero (hd : 0 < d) : divRound 0 d = 0 := by
  unfold divRound
  rw [Nat.zero_mod, Nat.zero_div, if_neg (by omega)]

end Ratio
