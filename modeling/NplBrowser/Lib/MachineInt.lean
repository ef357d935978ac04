import Mathlib.Tactic.Ring

/-!
# Machine integers

When an operation of 32 bits gives what it gives over the integers, and what it gives otherwise.

Identifiers from a counter: `f i` is what the counter shows when it has been counted up `i` times from
zero; the first `N` of them are different. Identifiers that are counted up from zero, the last one being
the state, are new and not zero as long as there are fewer than `N`.
-/

namespace MachineInt

variable {a b : Int32} {i : Int}

/-- The numbers that are their own residues. -/
theorem bmod_eq_iff : i.bmod (2 ^ 32) = i ↔ -2 ^ 31 ≤ i ∧ i < 2 ^ 31 := by
  refine ⟨fun h => ?_, fun h => Int.bmod_eq_of_le (by omega) (by omega)⟩
  rw [← h]
  exact ⟨Int.le_bmod (by decide), Int.bmod_lt (by decide)⟩

theorem toInt_add_iff : (a + b).toInt = a.toInt + b.toInt ↔
    -2 ^ 31 ≤ a.toInt + b.toInt ∧ a.toInt + b.toInt < 2 ^ 31 := by
  rw [Int32.toInt_add, bmod_eq_iff]

theorem toInt_sub_iff : (a - b).toInt = a.toInt - b.toInt ↔
    -2 ^ 31 ≤ a.toInt - b.toInt ∧ a.toInt - b.toInt < 2 ^ 31 := by
  rw [Int32.toInt_sub, bmod_eq_iff]

/-- A sum that wraps around at the upper end, if at all. -/
theorem toInt_add (hb : 0 ≤ b.toInt) : (a + b).toInt =
    if a.toInt + b.toInt < 2 ^ 31 then a.toInt + b.toInt else a.toInt + b.toInt - 2 ^ 32 := by
  have hlow := a.le_toInt
  have ha := a.toInt_lt
  have hb' := b.toInt_lt
  split
  · exact toInt_add_iff.2 (by omega)
  · rw [Int32.toInt_add, ← Int.sub_bmod_right]
    exact Int.bmod_eq_of_le (by omega) (by omega)

theorem toInt_sub (ha : 0 ≤ a.toInt) (hb : 0 ≤ b.toInt) : (a - b).toInt = a.toInt - b.toInt := by
  have ha' := a.toInt_lt
  have hb' := b.toInt_lt
  exact toInt_sub_iff.2 (by omega)

theorem toInt_ofNat (n : Nat) : (Int32.ofNat n).toInt = (n : Int).bmod (2 ^ 32) := Int32.toInt_ofNat'

theorem toInt_ofNat_le (n : Nat) : (Int32.ofNat n).toInt ≤ n := by
  rw [toInt_ofNat, Int.bmod_def]
  split <;> omega

theorem toInt_toInt32 (n : UInt32) : n.toInt32.toInt = (n.toNat : Int).bmod (2 ^ 32) :=
  BitVec.toInt_eq_toNat_bmod _

theorem toInt_toInt32_iff {n : UInt32} : n.toInt32.toInt = n.toNat ↔ n.toNat < 2 ^ 31 := by
  rw [toInt_toInt32, bmod_eq_iff]
  omega

end MachineInt

namespace Counter

variable {T : Type*} {f : Nat → T} {N n : Nat} {last x : T} {S S' : T → Prop}

/-- At most `n` identifiers have been given, `last` the last of them, and those in `S` are such. -/
def Given (f : Nat → T) (n : Nat) (last : T) (S : T → Prop) : Prop :=
  ∃ i ≤ n, last = f i ∧ ∀ x, S x → ∃ j, 0 < j ∧ j ≤ i ∧ x = f j

theorem Given.mono {n' : Nat} (h : Given f n last S) (hn : n ≤ n') (hS : ∀ x, S' x → S x) : Given f n' last S' := by
  obtain ⟨i, hi, hlast, hgiven⟩ := h
  exact ⟨i, hi.trans hn, hlast, fun x hx => hgiven x (hS x hx)⟩

variable [Add T] [OfNat T 0] [OfNat T 1]

structure Counts (f : Nat → T) (N : Nat) : Prop where
  zero : f 0 = 0
  succ (n : Nat) : f (n + 1) = f n + 1
  inj : ∀ i j, i < N → j < N → f i = f j → i = j

theorem Given.init (hf : Counts f N) (hS : ∀ x, ¬ S x) : Given f 0 0 S :=
  ⟨0, Nat.le_refl 0, hf.zero.symm, fun x hx => absurd hx (hS x)⟩

theorem Given.ne_zero (hf : Counts f N) (h : Given f n last S) (hn : n < N) (hx : S x) : x ≠ 0 := by
  obtain ⟨i, hi, -, hgiven⟩ := h
  obtain ⟨j, hpos, hj, rfl⟩ := hgiven x hx
  intro h0
  rw [← hf.zero] at h0
  have := hf.inj j 0 (by omega) (by omega) h0
  omega

theorem Given.next (hf : Counts f N) (h : Given f n last S) (hn : n + 1 < N) : last + 1 ≠ 0 ∧ ¬ S (last + 1) ∧
    Given f (n + 1) (last + 1) (fun x => S x ∨ x = last + 1) := by
  obtain ⟨i, hi, hlast, hgiven⟩ := h
  have hnext : last + 1 = f (i + 1) := by rw [hf.succ, hlast]
  rw [hnext]
  refine ⟨fun h0 => ?_, fun hS => ?_, i + 1, Nat.succ_le_succ hi, rfl, ?_⟩
  · rw [← hf.zero] at h0
    have := hf.inj (i + 1) 0 (by omega) (by omega) h0
    omega
  · obtain ⟨j, -, hj, heq⟩ := hgiven _ hS
    have := hf.inj (i + 1) j (by omega) (by omega) heq
    omega
  · rintro x (hx | rfl)
    · obtain ⟨j, hpos, hj, rfl⟩ := hgiven x hx
      exact ⟨j, hpos, by omega, rfl⟩
    · exact ⟨i + 1, Nat.succ_pos i, Nat.le_refl _, rfl⟩

theorem counts_int32 : Counts Int32.ofNat (2 ^ 32) where
  zero := rfl
  succ n := Int32.ofNat_add n 1
  inj i j hi hj h := by
    have := congrArg (fun x => x.toBitVec.toNat) h
    simp only [Int32.toBitVec_ofNat', BitVec.toNat_ofNat] at this
    rwa [Nat.mod_eq_of_lt hi, Nat.mod_eq_of_lt hj] at this

theorem counts_int64 : Counts Int64.ofNat (2 ^ 64) where
  zero := rfl
  succ n := Int64.ofNat_add n 1
  inj i j hi hj h := by
    have := congrArg (fun x => x.toBitVec.toNat) h
    simp only [Int64.toBitVec_ofNat', BitVec.toNat_ofNat] at this
    rwa [Nat.mod_eq_of_lt hi, Nat.mod_eq_of_lt hj] at this

end Counter
