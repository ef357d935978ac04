import Mathlib.Data.List.Infix

/-!
# Finding a pattern in a text

`findFrom p s k` is the first occurrence of `p` in `s` that starts at `k` or later, `rfindTo p s k`
the last one that starts at `k` or before. Both are characterised by the occurrences themselves
(`At`). What a text put together from parts contains follows from `NoOverlap`: a pattern that
cannot reach into the next part is found in one part or the other.
-/

namespace Search

variable {α : Type*} [DecidableEq α] {p q s t : List α} {c : α} {i j k : Nat}

/-- `p` stands at position `i` of `s`. -/
def At (p s : List α) (i : Nat) : Prop := p <+: s.drop i

instance (p s : List α) (i : Nat) : Decidable (At p s i) := inferInstanceAs (Decidable (_ <+: _))

def first (p : List α) : List α → Option Nat
  | [] => if p = [] then some 0 else none
  | c :: s => if p <+: c :: s then some 0 else (first p s).map (· + 1)

def last (p : List α) : List α → Option Nat
  | [] => if p = [] then some 0 else none
  | c :: s =>
    match last p s with
    | some i => some (i + 1)
    | none => if p <+: c :: s then some 0 else none

def findFrom (p s : List α) (k : Nat) : Option Nat := (first p (s.drop k)).map (· + k)

def rfindTo (p s : List α) (k : Nat) : Option Nat := last p (s.take (k + p.length))

/-! ### Occurrences -/

omit [DecidableEq α] in
theorem at_zero : At p s 0 ↔ p <+: s := Iff.rfl

omit [DecidableEq α] in
theorem at_drop : At p (s.drop k) i ↔ At p s (k + i) := by
  unfold At
  rw [List.drop_drop]

omit [DecidableEq α] in
theorem at_append_right (s : List α) : At p (s ++ t) (s.length + i) ↔ At p t i := by
  unfold At
  rw [List.drop_length_add_append]

omit [DecidableEq α] in
theorem At.le (h : At p s i) (hp : p ≠ []) : i + p.length ≤ s.length := by
  have hlen := List.IsPrefix.length_le h
  have hpos := List.length_pos_of_ne_nil hp
  rw [List.length_drop] at hlen
  omega

omit [DecidableEq α] in
theorem at_append_left (h : i + p.length ≤ s.length) : At p (s ++ t) i ↔ At p s i := by
  unfold At
  rw [List.drop_append_of_le_length (by omega)]
  constructor
  · intro hp
    refine List.prefix_of_prefix_length_le hp (List.prefix_append _ _) ?_
    rw [List.length_drop]
    omega
  · intro hp
    exact hp.trans (List.prefix_append _ _)

omit [DecidableEq α] in
theorem At.append (h : At p s i) (t : List α) : At p (s ++ t) i := by
  unfold At
  rw [List.drop_append]
  exact List.IsPrefix.trans h (List.prefix_append _ _)

omit [DecidableEq α] in
theorem at_singleton : At [c] s i ↔ s[i]? = some c := by
  unfold At
  rw [← List.head?_drop]
  cases hs : s.drop i with
  | nil => simp
  | cons d r => simp [eq_comm]

omit [DecidableEq α] in
theorem At.getElem? (h : At p s i) {j : Nat} (hj : j < p.length) : s[i + j]? = p[j]? := by
  obtain ⟨r, hr⟩ := h
  rw [← List.getElem?_drop, ← hr, List.getElem?_append_left hj]

omit [DecidableEq α] in
theorem At.head (h : At (c :: p) s i) : s[i]? = some c := by
  have h0 := h.getElem? (j := 0) (by simp)
  simpa using h0

omit [DecidableEq α] in
/-- What the text is around an occurrence. -/
theorem At.eq (h : At p s i) : s = s.take i ++ (p ++ s.drop (i + p.length)) := by
  obtain ⟨r, hr⟩ := h
  have hr' : r = s.drop (i + p.length) := by
    rw [← List.drop_drop, ← hr, List.drop_left]
  rw [← hr', hr, List.take_append_drop]

/-- No occurrence of `p` ends inside of `q`, or behind it, that started before it. -/
def NoOverlap (p q : List α) : Prop :=
  ∀ k, k < p.length → 0 < k → ¬ p.drop k <+: q ∧ ¬ q <+: p.drop k

instance (p q : List α) : Decidable (NoOverlap p q) :=
  inferInstanceAs (Decidable (∀ k, k < p.length → 0 < k → _ ∧ _))

omit [DecidableEq α] in
theorem NoOverlap.split (h : NoOverlap p q) (ha : At p (s ++ (q ++ t)) i) :
    i + p.length ≤ s.length ∨ s.length ≤ i := by
  by_contra hc
  push Not at hc
  have hi : s.drop i ++ (q ++ t) = (s ++ (q ++ t)).drop i := by
    rw [List.drop_append_of_le_length (by omega)]
  have hpre : p <+: s.drop i ++ (q ++ t) := by
    rw [hi]
    exact ha
  have hrest : p.drop (s.drop i).length <+: q ++ t := by
    obtain ⟨r, hr⟩ := hpre
    have hd := congrArg (List.drop (s.drop i).length) hr
    rw [List.drop_left, List.drop_append_of_le_length (by rw [List.length_drop]; omega)] at hd
    exact ⟨r, hd⟩
  have hk := h (s.drop i).length (by rw [List.length_drop]; omega) (by rw [List.length_drop]; omega)
  rcases List.prefix_or_prefix_of_prefix hrest (List.prefix_append q t) with hq | hq
  exacts [hk.1 hq, hk.2 hq]

/-! ### The first occurrence -/

theorem first_eq_some_iff : first p s = some i ↔ At p s i ∧ ∀ j < i, ¬ At p s j := by
  induction s generalizing i with
  | nil =>
    unfold first At
    simp only [List.drop_nil, List.prefix_nil]
    split
    · rename_i hp
      constructor
      · intro h
        cases h
        exact ⟨hp, by simp⟩
      · rintro ⟨-, h⟩
        cases i with
        | zero => rfl
        | succ i => exact absurd hp (h 0 (Nat.succ_pos i))
    · rename_i hp
      simp [hp]
  | cons c s ih =>
    unfold first
    split
    · rename_i hp
      constructor
      · intro h
        cases h
        exact ⟨hp, by simp⟩
      · rintro ⟨-, h⟩
        cases i with
        | zero => rfl
        | succ i => exact absurd hp (h 0 (Nat.succ_pos i))
    · rename_i hp
      rw [Option.map_eq_some_iff]
      constructor
      · rintro ⟨j, hj, rfl⟩
        obtain ⟨hat, hmin⟩ := ih.1 hj
        refine ⟨hat, fun k hk => ?_⟩
        cases k with
        | zero => exact hp
        | succ k => exact hmin k (by omega)
      · rintro ⟨hat, hmin⟩
        cases i with
        | zero => exact absurd hat hp
        | succ i => exact ⟨i, ih.2 ⟨hat, fun j hj => hmin (j + 1) (by omega)⟩, rfl⟩

theorem first_eq_none_iff : first p s = none ↔ ∀ j, ¬ At p s j := by
  induction s with
  | nil =>
    unfold first At
    simp
  | cons c s ih =>
    unfold first
    split
    · rename_i hp
      simp only [reduceCtorEq, false_iff, not_forall, not_not]
      exact ⟨0, hp⟩
    · rename_i hp
      rw [Option.map_eq_none_iff, ih]
      constructor
      · intro h j
        cases j with
        | zero => exact hp
        | succ j => exact h j
      · exact fun h j => h (j + 1)

theorem findFrom_eq_some_iff :
    findFrom p s k = some i ↔ k ≤ i ∧ At p s i ∧ ∀ j, k ≤ j → j < i → ¬ At p s j := by
  unfold findFrom
  rw [Option.map_eq_some_iff]
  constructor
  · rintro ⟨j, hj, rfl⟩
    obtain ⟨hat, hmin⟩ := first_eq_some_iff.1 hj
    rw [at_drop, Nat.add_comm] at hat
    refine ⟨Nat.le_add_left k j, hat, fun l hkl hl => ?_⟩
    have h := hmin (l - k) (by omega)
    rwa [at_drop, Nat.add_sub_cancel' hkl] at h
  · rintro ⟨hki, hat, hmin⟩
    refine ⟨i - k, first_eq_some_iff.2 ⟨?_, fun j hj => ?_⟩, Nat.sub_add_cancel hki⟩
    · rwa [at_drop, Nat.add_sub_cancel' hki]
    · rw [at_drop]
      exact hmin _ (Nat.le_add_right k j) (by omega)

theorem findFrom_eq_none_iff : findFrom p s k = none ↔ ∀ j, k ≤ j → ¬ At p s j := by
  unfold findFrom
  rw [Option.map_eq_none_iff, first_eq_none_iff]
  constructor
  · intro h j hj
    have := h (j - k)
    rwa [at_drop, Nat.add_sub_cancel' hj] at this
  · intro h j
    rw [at_drop]
    exact h _ (Nat.le_add_right k j)

/-- An occurrence bounds the first one. -/
theorem findFrom_of_at (h : At p s i) (hk : k ≤ i) : ∃ j, findFrom p s k = some j ∧ k ≤ j ∧ j ≤ i := by
  cases hf : findFrom p s k with
  | none => exact absurd h (findFrom_eq_none_iff.1 hf i hk)
  | some j =>
    obtain ⟨hkj, -, hmin⟩ := findFrom_eq_some_iff.1 hf
    refine ⟨j, rfl, hkj, ?_⟩
    by_contra hc
    exact hmin i hk (by omega) h

/-- A first occurrence that lies in the left part. -/
theorem findFrom_append_left (h : findFrom p (s ++ t) k = some i) (hi : i + p.length ≤ s.length) :
    findFrom p s k = some i := by
  obtain ⟨hki, hat, hmin⟩ := findFrom_eq_some_iff.1 h
  exact findFrom_eq_some_iff.2 ⟨hki, (at_append_left hi).1 hat, fun j hkj hj hat' => hmin j hkj hj (hat'.append t)⟩

/-- The first `c` behind `s`. -/
theorem findFrom_singleton (h : c ∉ q) (s t : List α) :
    findFrom [c] (s ++ (q ++ c :: t)) s.length = some (s.length + q.length) := by
  refine findFrom_eq_some_iff.2 ⟨Nat.le_add_right _ _, ?_, ?_⟩
  · rw [at_append_right, at_singleton, List.getElem?_append_right (le_refl _), Nat.sub_self]
    rfl
  · intro j hj hlt hat
    obtain ⟨i, rfl⟩ := Nat.exists_eq_add_of_le hj
    rw [at_append_right, at_singleton, List.getElem?_append_left (by omega)] at hat
    exact h (List.mem_of_getElem? hat)

/-! ### The last occurrence -/

theorem last_eq_none_iff : last p s = none ↔ ∀ j, ¬ At p s j := by
  induction s with
  | nil =>
    unfold last At
    simp
  | cons c s ih =>
    unfold last
    cases hl : last p s with
    | some i =>
      simp only [reduceCtorEq, false_iff, not_forall, not_not]
      have hne : ¬ ∀ j, ¬ At p s j := by
        rw [← ih, hl]
        exact Option.some_ne_none i
      push Not at hne
      obtain ⟨j, hj⟩ := hne
      exact ⟨j + 1, hj⟩
    | none =>
      have hnone := ih.1 hl
      constructor
      · intro h j
        cases j with
        | zero => exact fun hp => by simp [at_zero.1 hp] at h
        | succ j => exact hnone j
      · intro h
        exact if_neg (h 0)

theorem last_eq_some_iff (hp : p ≠ []) : last p s = some i ↔ At p s i ∧ ∀ j, i < j → ¬ At p s j := by
  induction s generalizing i with
  | nil =>
    unfold last At
    simp [hp]
  | cons c s ih =>
    unfold last
    cases hl : last p s with
    | some l =>
      obtain ⟨hat, hmax⟩ := ih.1 hl
      constructor
      · intro h
        cases h
        refine ⟨hat, fun j hj => ?_⟩
        cases j with
        | zero => omega
        | succ j => exact hmax j (by omega)
      · rintro ⟨hi, hmaxi⟩
        cases i with
        | zero => exact absurd hat (hmaxi (l + 1) (Nat.succ_pos l))
        | succ i =>
          have hle : ¬ l < i := fun hlt => hmax i hlt hi
          have hge : ¬ i < l := fun hlt => hmaxi (l + 1) (by omega) hat
          have : l = i := by omega
          rw [this]
    | none =>
      have hnone := last_eq_none_iff.1 hl
      simp only
      rw [Option.ite_none_right_eq_some]
      constructor
      · rintro ⟨h0, h⟩
        cases h
        refine ⟨h0, fun j hj => ?_⟩
        cases j with
        | zero => omega
        | succ j => exact hnone j
      · rintro ⟨hi, -⟩
        cases i with
        | zero => exact ⟨hi, rfl⟩
        | succ i => exact absurd hi (hnone i)

/-- The last `c`, with none behind it. -/
theorem last_singleton (h : c ∉ t) (s : List α) : last [c] (s ++ c :: t) = some s.length := by
  refine (last_eq_some_iff (List.cons_ne_nil _ _)).2 ⟨?_, fun j hj hat => ?_⟩
  · rw [at_singleton, List.getElem?_append_right (le_refl _), Nat.sub_self]
    rfl
  · rw [at_singleton, List.getElem?_append_right (by omega)] at hat
    obtain ⟨i, hi⟩ := Nat.exists_eq_add_of_lt hj
    rw [show j - s.length = i + 1 by omega, List.getElem?_cons_succ] at hat
    exact h (List.mem_of_getElem? hat)

theorem findFrom_singleton_eq_none (h : c ∉ s) : findFrom [c] s k = none :=
  findFrom_eq_none_iff.2 fun _ _ hat => h (List.mem_of_getElem? (at_singleton.1 hat))

omit [DecidableEq α] in
theorem at_take (hp : p ≠ []) : At p (s.take (k + p.length)) i ↔ i ≤ k ∧ At p s i := by
  have hpos := List.length_pos_of_ne_nil hp
  constructor
  · intro h
    have hle := h.le hp
    rw [List.length_take] at hle
    have happ := h.append (s.drop (k + p.length))
    rw [List.take_append_drop] at happ
    exact ⟨by omega, happ⟩
  · rintro ⟨hik, h⟩
    have hle := h.le hp
    rw [← List.take_append_drop (k + p.length) s] at h
    refine (at_append_left ?_).1 h
    rw [List.length_take]
    omega

theorem rfindTo_eq_some_iff (hp : p ≠ []) :
    rfindTo p s k = some i ↔ i ≤ k ∧ At p s i ∧ ∀ j, i < j → j ≤ k → ¬ At p s j := by
  unfold rfindTo
  rw [last_eq_some_iff hp, at_take hp, and_assoc]
  simp only [at_take hp, not_and]

end Search
