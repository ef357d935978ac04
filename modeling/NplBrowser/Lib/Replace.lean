import Mathlib.Algebra.BigOperators.Group.Finset.Basic
import Mathlib.Data.List.Basic

/-!
# Find and replace

`replaceFrom` is what replacing means: each leftmost occurrence of the pattern `p` that does not
overlap the one before is replaced, the `n`-th by `r n`.

`scan` is the matcher that counts how many elements in a row match and has no failure function:
where an element does not match, what has matched so far is given up, with this element. It cuts a
text into pieces, each of them `p` or a proper prefix of `p` and an element that does not continue
it. A text is `Whole` if nothing is left over. Of a pattern without a border the matcher
finds the occurrences that have a whole text before them; if it misses one, its output is shorter.
-/

namespace Replace

variable {α : Type*} [DecidableEq α] {p : List α} {r : Nat → List α} {a b s t w : List α} {c : α} {k n : Nat}

/-- From the occurrence after the `n`-th on. -/
def replaceFrom (p : List α) (r : Nat → List α) (n : Nat) (s : List α) : List α :=
  match s with
  | [] => []
  | c :: s =>
    if p <+: c :: s then r (n + 1) ++ replaceFrom p r (n + 1) (s.drop (p.length - 1))
    else c :: replaceFrom p r n s
termination_by s.length
decreasing_by
  all_goals simp only [List.length_cons, List.length_drop]; omega

/-- How many elements match, and how many occurrences have been found. -/
abbrev State := Nat × Nat

/-- One element: the state after it and what is written. -/
def next (p : List α) (r : Nat → List α) (q : State) (c : α) : State × List α :=
  if p[q.1]? = some c then
    if q.1 + 1 = p.length then ((0, q.2 + 1), r (q.2 + 1)) else ((q.1 + 1, q.2), [])
  else ((0, q.2), p.take q.1 ++ [c])

def scan (p : List α) (r : Nat → List α) (q : State) : List α → State × List α
  | [] => (q, [])
  | c :: s =>
    let (q', out) := next p r q c
    ((scan p r q' s).1, out ++ (scan p r q' s).2)

/-- A concatenation of pieces. -/
inductive Whole (p : List α) : List α → Prop
  | nil : Whole p []
  | found {s : List α} (h : Whole p s) : Whole p (p ++ s)
  | other {k : Nat} {c : α} {s : List α} (hk : k < p.length) (hc : p[k]? ≠ some c) (h : Whole p s) :
      Whole p (p.take k ++ c :: s)

/-- Every occurrence has a whole text before it. -/
def Aligned (p s : List α) : Prop := ∀ a b, s = a ++ (p ++ b) → Whole p a

/-- No proper suffix is a prefix, so that occurrences do not overlap. -/
def Borderless (p : List α) : Prop := ∀ i < p.length, 0 < i → ¬ p.drop i <+: p

instance : Decidable (Borderless p) :=
  inferInstanceAs (Decidable (∀ i < p.length, 0 < i → ¬ p.drop i <+: p))

/-! ### Pieces -/

omit [DecidableEq α] in
theorem Whole.append (hs : Whole p s) (ht : Whole p t) : Whole p (s ++ t) := by
  induction hs with
  | nil => exact ht
  | found _ ih =>
    rw [List.append_assoc]
    exact .found ih
  | other hk hc _ ih =>
    rw [List.append_assoc]
    exact .other hk hc ih

omit [DecidableEq α] in
theorem Whole.self (p : List α) : Whole p p := by
  have h := Whole.found (p := p) .nil
  rwa [List.append_nil] at h

/-- How a text begins. -/
theorem first_piece (p s : List α) : (∃ k < p.length, s = p.take k) ∨ p <+: s ∨
    ∃ k < p.length, ∃ c t, p[k]? ≠ some c ∧ s = p.take k ++ c :: t := by
  induction p generalizing s with
  | nil => exact .inr (.inl List.nil_prefix)
  | cons x p ih =>
    cases s with
    | nil => exact .inl ⟨0, Nat.zero_lt_succ _, rfl⟩
    | cons y s =>
      by_cases hxy : x = y
      · subst hxy
        rcases ih s with ⟨k, hk, rfl⟩ | ⟨t, rfl⟩ | ⟨k, hk, c, t, hc, rfl⟩
        · exact .inl ⟨k + 1, Nat.succ_lt_succ hk, rfl⟩
        · exact .inr (.inl ⟨t, rfl⟩)
        · exact .inr (.inr ⟨k + 1, Nat.succ_lt_succ hk, c, t, hc, rfl⟩)
      · refine .inr (.inr ⟨0, Nat.zero_lt_succ _, y, s, fun h => hxy ?_, rfl⟩)
        exact Option.some.inj h

omit [DecidableEq α] in
theorem exists_whole (hp : p ≠ []) (s : List α) :
    ∃ w, Whole p w ∧ ∃ k < p.length, s = w ++ p.take k := by
  classical
  induction hn : s.length using Nat.strong_induction_on generalizing s with
  | _ n ih =>
    subst hn
    rcases first_piece p s with ⟨k, hk, rfl⟩ | ⟨t, rfl⟩ | ⟨j, hj, c, t, hc, rfl⟩
    · exact ⟨[], .nil, k, hk, rfl⟩
    · have hpos := List.length_pos_iff.2 hp
      obtain ⟨w, hw, k, hk, ht⟩ := ih t.length (by rw [List.length_append]; omega) t rfl
      exact ⟨p ++ w, .found hw, k, hk, by rw [ht, List.append_assoc]⟩
    · obtain ⟨w, hw, k, hk, ht⟩ :=
        ih t.length (by rw [List.length_append, List.length_cons]; omega) t rfl
      exact ⟨p.take j ++ c :: w, .other hj hc hw, k, hk, by rw [ht, List.append_assoc, List.cons_append]⟩

/-! ### The matcher -/

theorem scan_append (p : List α) (r : Nat → List α) (q : State) (s t : List α) :
    scan p r q (s ++ t) =
      ((scan p r (scan p r q s).1 t).1, (scan p r q s).2 ++ (scan p r (scan p r q s).1 t).2) := by
  induction s generalizing q with
  | nil => rfl
  | cons c s ih =>
    show ((scan p r (next p r q c).1 (s ++ t)).1, (next p r q c).2 ++ (scan p r (next p r q c).1 (s ++ t)).2) = _
    rw [ih]
    simp only [scan, List.append_assoc]

theorem scan_singleton (p : List α) (r : Nat → List α) (q : State) (c : α) :
    scan p r q [c] = next p r q c := by
  simp only [scan, List.append_nil]

theorem next_matched {q : State} (h : p[q.1]? = some c) (hl : q.1 + 1 ≠ p.length) :
    next p r q c = ((q.1 + 1, q.2), []) := by
  unfold next
  rw [if_pos h, if_neg hl]

theorem next_found {q : State} (h : p[q.1]? = some c) (hl : q.1 + 1 = p.length) :
    next p r q c = ((0, q.2 + 1), r (q.2 + 1)) := by
  unfold next
  rw [if_pos h, if_pos hl]

theorem next_other {q : State} (h : p[q.1]? ≠ some c) : next p r q c = ((0, q.2), p.take q.1 ++ [c]) := by
  unfold next
  rw [if_neg h]

theorem scan_take (r : Nat → List α) (n : Nat) (hk : k < p.length) :
    scan p r (0, n) (p.take k) = ((k, n), []) := by
  induction k with
  | zero => rfl
  | succ k ih =>
    have hk' : k < p.length := by omega
    rw [← List.take_concat_get' p k hk', scan_append, ih hk', scan_singleton,
      next_matched (List.getElem?_eq_getElem hk') (by show k + 1 ≠ p.length; omega)]
    rfl

theorem scan_found (hp : p ≠ []) (r : Nat → List α) (n : Nat) :
    scan p r (0, n) p = ((0, n + 1), r (n + 1)) := by
  have hpos := List.length_pos_iff.2 hp
  have hlast : p.length - 1 < p.length := by omega
  have hp' : p = p.take (p.length - 1) ++ [p[p.length - 1]] := by
    rw [List.take_concat_get', show p.length - 1 + 1 = p.length by omega, List.take_length]
  have hscan : scan p r (0, n) (p.take (p.length - 1) ++ [p[p.length - 1]]) = ((0, n + 1), r (n + 1)) := by
    rw [scan_append, scan_take r n hlast, scan_singleton,
      next_found (List.getElem?_eq_getElem hlast) (by show p.length - 1 + 1 = p.length; omega)]
    rfl
  rwa [← hp'] at hscan

theorem scan_other (r : Nat → List α) (n : Nat) (hk : k < p.length) (hc : p[k]? ≠ some c) :
    scan p r (0, n) (p.take k ++ [c]) = ((0, n), p.take k ++ [c]) := by
  rw [scan_append, scan_take r n hk, scan_singleton, next_other hc]
  rfl

theorem scan_found_append (hp : p ≠ []) (r : Nat → List α) (n : Nat) (s : List α) :
    scan p r (0, n) (p ++ s) = ((scan p r (0, n + 1) s).1, r (n + 1) ++ (scan p r (0, n + 1) s).2) := by
  rw [scan_append, scan_found hp]

theorem scan_other_append (r : Nat → List α) (n : Nat) (hk : k < p.length) (hc : p[k]? ≠ some c)
    (s : List α) : scan p r (0, n) (p.take k ++ c :: s) =
      ((scan p r (0, n) s).1, p.take k ++ c :: (scan p r (0, n) s).2) := by
  rw [List.append_cons, scan_append, scan_other r n hk hc, List.append_assoc, List.singleton_append]

theorem Whole.scan (h : Whole p s) (hp : p ≠ []) (r : Nat → List α) (n : Nat) :
    (scan p r (0, n) s).1.1 = 0 := by
  induction h generalizing n with
  | nil => rfl
  | found _ ih =>
    rw [scan_found_append hp]
    exact ih (n + 1)
  | other hk hc _ ih =>
    rw [scan_other_append r n hk hc]
    exact ih n

/-- What is left over after a whole text. -/
theorem scan_whole_append (hw : Whole p w) (hp : p ≠ []) (r : Nat → List α) (n : Nat) (s : List α) :
    ∃ m, scan p r (0, n) (w ++ s) = ((scan p r (0, m) s).1, (scan p r (0, n) w).2 ++ (scan p r (0, m) s).2) := by
  have hst : (scan p r (0, n) w).1 = (0, (scan p r (0, n) w).1.2) := Prod.ext (hw.scan hp r n) rfl
  exact ⟨_, by rw [scan_append, hst]⟩

theorem scan_whole_take (hw : Whole p w) (hp : p ≠ []) (r : Nat → List α) (n : Nat) (hk : k < p.length) :
    (scan p r (0, n) (w ++ p.take k)).1.1 = k ∧ (scan p r (0, n) (w ++ p.take k)).2 = (scan p r (0, n) w).2 := by
  obtain ⟨m, hm⟩ := scan_whole_append hw hp r n (p.take k)
  rw [hm, scan_take r m hk]
  exact ⟨rfl, List.append_nil _⟩

theorem whole_iff (hp : p ≠ []) (r : Nat → List α) (n : Nat) :
    Whole p s ↔ (scan p r (0, n) s).1.1 = 0 := by
  refine ⟨fun h => h.scan hp r n, fun h => ?_⟩
  obtain ⟨w, hw, k, hk, rfl⟩ := exists_whole hp s
  rw [(scan_whole_take hw hp r n hk).1] at h
  subst h
  rw [List.take_zero, List.append_nil]
  exact hw

omit [DecidableEq α] in
theorem Whole.of_append (hp : p ≠ []) (hw : Whole p w) (h : Whole p (w ++ s)) : Whole p s := by
  classical
  obtain ⟨m, hm⟩ := scan_whole_append hw hp (fun _ => []) 0 s
  refine (whole_iff hp (fun _ => []) m).2 ?_
  have h := h.scan hp (fun _ => []) 0
  rwa [hm] at h

theorem scan_mono (r : Nat → List α) (q : State) (h : s <+: t) : (scan p r q s).2 <+: (scan p r q t).2 := by
  obtain ⟨u, rfl⟩ := h
  rw [scan_append]
  exact List.prefix_append _ _

/-! ### The occurrences that are found -/

theorem replaceFrom_found (hp : p ≠ []) (r : Nat → List α) (n : Nat) (s : List α) :
    replaceFrom p r n (p ++ s) = r (n + 1) ++ replaceFrom p r (n + 1) s := by
  obtain ⟨x, p', rfl⟩ := List.exists_cons_of_ne_nil hp
  have hpre : x :: p' <+: x :: (p' ++ s) := List.prefix_append (x :: p') s
  rw [List.cons_append, replaceFrom, if_pos hpre, List.length_cons, Nat.add_sub_cancel,
    List.drop_left]

theorem replaceFrom_append (h : ∀ i < w.length, ¬ p <+: (w ++ s).drop i) (r : Nat → List α) (n : Nat) :
    replaceFrom p r n (w ++ s) = w ++ replaceFrom p r n s := by
  induction w with
  | nil => rfl
  | cons c w ih =>
    have hnot : ¬ p <+: c :: (w ++ s) := h 0 (Nat.zero_lt_succ _)
    rw [List.cons_append, replaceFrom, if_neg hnot, ih fun i hi => h (i + 1) (Nat.succ_lt_succ hi),
      List.cons_append]

namespace Aligned

omit [DecidableEq α] in
theorem mono (h : Aligned p t) (hs : s <+: t) : Aligned p s := by
  obtain ⟨u, rfl⟩ := hs
  intro a b hab
  refine h a (b ++ u) ?_
  rw [hab, List.append_assoc, List.append_assoc]

omit [DecidableEq α] in
theorem self (p : List α) : Aligned p p := by
  intro a b hab
  have hlen := congrArg List.length hab
  rw [List.length_append, List.length_append] at hlen
  obtain rfl : a = [] := List.eq_nil_of_length_eq_zero (by omega)
  exact .nil

omit [DecidableEq α] in
theorem of_append (hp : p ≠ []) (hw : Whole p w) (h : Aligned p (w ++ s)) : Aligned p s := by
  intro a b hab
  refine .of_append hp hw (h (w ++ a) b ?_)
  rw [hab, List.append_assoc]

omit [DecidableEq α] in
/-- No occurrence starts in a piece that is given up. -/
theorem not_prefix_drop (hk : k < p.length) (hc : p[k]? ≠ some c)
    (h : Aligned p (p.take k ++ c :: s)) {i : Nat} (hi : i ≤ k) : ¬ p <+: (p.take k ++ c :: s).drop i := by
  classical
  have hp : p ≠ [] := List.ne_nil_of_length_pos (by omega)
  rintro ⟨b, hb⟩
  have hlen : i ≤ (p.take k).length := by rw [List.length_take]; omega
  have htake : (p.take k ++ c :: s).take i = p.take i := by
    rw [List.take_append_of_le_length hlen, List.take_take, Nat.min_eq_left hi]
  have hw := h (p.take i) b (by rw [hb, ← htake, List.take_append_drop])
  have h0 := hw.scan hp (fun _ => []) 0
  rw [scan_take _ _ (by omega)] at h0
  have h0 : i = 0 := h0
  subst h0
  rw [List.drop_zero] at hb
  have hget := congrArg (fun l => l[k]?) hb
  simp only [List.getElem?_append_left hk] at hget
  rw [List.getElem?_append_right (by rw [List.length_take]; omega), List.length_take, Nat.min_eq_left hk.le,
    Nat.sub_self] at hget
  exact hc hget

end Aligned

theorem scan_eq_replaceFrom (hp : p ≠ []) (r : Nat → List α) (n : Nat) (hs : Whole p s) (h : Aligned p s) :
    (scan p r (0, n) s).2 = replaceFrom p r n s := by
  induction hs generalizing n with
  | nil =>
    rw [replaceFrom]
    rfl
  | @found s hs ih =>
    rw [scan_found_append hp, replaceFrom_found hp,
      ih (n + 1) (.of_append hp (.self p) h)]
  | @other k c s hk hc hs ih =>
    have hpiece : Whole p (p.take k ++ [c]) := .other hk hc .nil
    have h' : Aligned p (p.take k ++ [c] ++ s) := by rwa [← List.append_cons]
    have hnot : ∀ i < (p.take k ++ [c]).length, ¬ p <+: (p.take k ++ [c] ++ s).drop i := by
      intro i hi
      rw [List.length_append, List.length_take, List.length_singleton] at hi
      rw [← List.append_cons]
      exact h.not_prefix_drop hk hc (by omega)
    rw [scan_other_append r n hk hc, ih n (.of_append hp hpiece h'), List.append_cons _ c s,
      replaceFrom_append hnot, List.append_assoc, List.singleton_append]

/-! ### The occurrences that are missed -/

def occurrences (p : List α) : List α → Nat
  | [] => 0
  | c :: s => occurrences p s + if p <+: c :: s then 1 else 0

theorem occurrences_append_le (p w s : List α) : occurrences p s ≤ occurrences p (w ++ s) := by
  induction w with
  | nil => exact Nat.le_refl _
  | cons c w ih => exact ih.trans (Nat.le_add_right _ _)

theorem occurrences_append_eq_iff :
    occurrences p (w ++ s) = occurrences p s ↔ ∀ i < w.length, ¬ p <+: (w ++ s).drop i := by
  induction w with
  | nil => exact ⟨fun _ i hi => (by cases hi), fun _ => rfl⟩
  | cons c w ih =>
    have hle := occurrences_append_le p w s
    rw [List.cons_append, occurrences]
    constructor
    · intro h i hi
      split at h
      · omega
      · cases i with
        | zero => assumption
        | succ i => exact ih.1 h i (Nat.lt_of_succ_lt_succ hi)
    · intro h
      have hnot : ¬ p <+: c :: (w ++ s) := h 0 (Nat.zero_lt_succ _)
      rw [if_neg hnot]
      exact ih.2 fun i hi => h (i + 1) (Nat.succ_lt_succ hi)

omit [DecidableEq α] in
theorem Borderless.not_prefix (hb : Borderless p) (hk : k < p.length) (h0 : 0 < k) (s : List α) :
    ¬ p <+: (p ++ s).drop k := by
  intro h
  rw [List.drop_append_of_le_length hk.le] at h
  exact hb k hk h0 (List.prefix_of_prefix_length_le (List.prefix_append _ s) h
    (by rw [List.length_drop]; omega))

theorem occurrences_found (hp : p ≠ []) (hb : Borderless p) (s : List α) :
    occurrences p (p ++ s) = occurrences p s + 1 := by
  obtain ⟨x, p', rfl⟩ := List.exists_cons_of_ne_nil hp
  have hpre : x :: p' <+: x :: (p' ++ s) := List.prefix_append (x :: p') s
  have hrest : occurrences (x :: p') (p' ++ s) = occurrences (x :: p') s :=
    occurrences_append_eq_iff.2 fun i hi =>
      hb.not_prefix (k := i + 1) (Nat.succ_lt_succ hi) (Nat.zero_lt_succ i) s
  rw [List.cons_append, occurrences, if_pos hpre, hrest]

omit [DecidableEq α] in
theorem sum_length_succ (r : Nat → List α) (n m : Nat) :
    ∑ i ∈ Finset.range (m + 1), (r (n + 1 + i)).length =
      ∑ i ∈ Finset.range m, (r (n + 1 + 1 + i)).length + (r (n + 1)).length := by
  rw [Finset.sum_range_succ']
  refine congrArg₂ _ (Finset.sum_congr rfl fun i _ => ?_) rfl
  rw [show n + 1 + (i + 1) = n + 1 + 1 + i by omega]

theorem length_replaceFrom (hp : p ≠ []) (hb : Borderless p) (r : Nat → List α) (n : Nat) (s : List α) :
    (replaceFrom p r n s).length + occurrences p s * p.length =
      s.length + ∑ i ∈ Finset.range (occurrences p s), (r (n + 1 + i)).length := by
  induction n, s using replaceFrom.induct p with
  | case1 n => rw [replaceFrom, occurrences, Finset.sum_range_zero, Nat.zero_mul]
  | case2 n c s h ih =>
    rw [replaceFrom, if_pos h]
    obtain ⟨t, ht⟩ := h
    have hdrop : s.drop (p.length - 1) = t := by
      have hpos := List.length_pos_iff.2 hp
      have hd : (p ++ t).drop p.length = t := List.drop_left
      rwa [ht, show p.length = p.length - 1 + 1 by omega, List.drop_succ_cons] at hd
    rw [hdrop] at ih ⊢
    have hlen := congrArg List.length ht
    rw [List.length_append] at hlen
    rw [← ht, occurrences_found hp hb, sum_length_succ, Nat.add_mul, ht, ← hlen, List.length_append]
    omega
  | case3 n c s h ih =>
    rw [replaceFrom, if_neg h, occurrences, if_neg h, Nat.add_zero, List.length_cons, List.length_cons]
    omega

omit [DecidableEq α] in
theorem Aligned.append (hw : Whole p w) (hi : ∀ i < w.length, p <+: (w ++ s).drop i → Whole p (w.take i))
    (h : Aligned p s) : Aligned p (w ++ s) := by
  intro a b hab
  rcases List.append_eq_append_iff.1 hab with ⟨a', rfl, hs⟩ | ⟨c', rfl, hs⟩
  · exact hw.append (h a' b hs)
  · cases c' with
    | nil =>
      rw [List.append_nil] at hw
      exact hw
    | cons c c' =>
      have hlt : a.length < (a ++ c :: c').length := by rw [List.length_append, List.length_cons]; omega
      have hpre : p <+: (a ++ c :: c' ++ s).drop a.length := by
        rw [hab, List.drop_left]
        exact List.prefix_append p b
      have hwhole := hi a.length hlt hpre
      rwa [List.take_left] at hwhole

/-- The matcher finds `f` occurrences; if there are no others, it is at the start of a piece at each
of them. -/
theorem exists_found (hp : p ≠ []) (hb : Borderless p) (hw : Whole p w) (hk : k < p.length) :
    ∃ f ≤ occurrences p (w ++ p.take k),
      (f = occurrences p (w ++ p.take k) → Aligned p (w ++ p.take k)) ∧
        ∀ r n, (scan p r (0, n) w).2.length + f * p.length =
          w.length + ∑ i ∈ Finset.range f, (r (n + 1 + i)).length := by
  induction hw with
  | nil =>
    refine ⟨0, Nat.zero_le _, fun _ a b hab => ?_, fun r n => ?_⟩
    · have hlen := congrArg List.length hab
      simp only [List.length_append, List.length_take, List.length_nil] at hlen
      omega
    · rw [Finset.sum_range_zero, Nat.zero_mul]
      rfl
  | @found s hs ih =>
    obtain ⟨f, hf, ha, hlen⟩ := ih
    rw [List.append_assoc, occurrences_found hp hb]
    refine ⟨f + 1, Nat.succ_le_succ hf, fun he => ?_, fun r n => ?_⟩
    · refine (ha (Nat.succ.inj he)).append (.self p) fun i hi hpre => ?_
      rcases Nat.eq_zero_or_pos i with rfl | h0
      · exact .nil
      · exact absurd hpre (hb.not_prefix hi h0 _)
    · have h := hlen r (n + 1)
      rw [scan_found_append hp, sum_length_succ, Nat.add_mul, List.length_append, List.length_append]
      omega
  | @other j c s hj hc hs ih =>
    obtain ⟨f, hf, ha, hlen⟩ := ih
    have hassoc : p.take j ++ c :: s ++ p.take k = p.take j ++ [c] ++ (s ++ p.take k) := by
      rw [List.append_assoc, List.cons_append, ← List.append_cons]
    have hle := occurrences_append_le p (p.take j ++ [c]) (s ++ p.take k)
    rw [hassoc]
    refine ⟨f, hf.trans hle, fun he => ?_, fun r n => ?_⟩
    · have hnone := occurrences_append_eq_iff.1 (Nat.le_antisymm (he ▸ hf) hle)
      exact (ha (Nat.le_antisymm hf (he ▸ hle))).append (.other hj hc .nil)
        fun i hi hpre => absurd hpre (hnone i hi)
    · have h := hlen r n
      rw [scan_other_append r n hj hc]
      simp only [List.length_append, List.length_cons]
      omega

theorem sum_le_sum_range {g : Nat → Nat} {m f l : Nat} (hg : ∀ i, l < g i) (hf : f ≤ m) :
    ∑ i ∈ Finset.range f, g i + (m - f) * (l + 1) ≤ ∑ i ∈ Finset.range m, g i := by
  induction m, hf using Nat.le_induction with
  | base => rw [Nat.sub_self, Nat.zero_mul, Nat.add_zero]
  | succ m hf ih =>
    have hm := hg m
    rw [Finset.sum_range_succ, Nat.succ_sub hf, Nat.succ_mul]
    omega

/-- Output that is not too short has nothing left over and missed no occurrence. -/
theorem whole_of_length_le (hp : p ≠ []) (hb : Borderless p) (hr : ∀ n, p.length < (r n).length)
    (h : (replaceFrom p r n s).length ≤ (scan p r (0, n) s).2.length) : Whole p s ∧ Aligned p s := by
  obtain ⟨w, hw, k, hk, rfl⟩ := exists_whole hp s
  obtain ⟨f, hf, ha, hlen⟩ := exists_found hp hb hw hk
  have hscan := hlen r n
  have hspec := length_replaceFrom hp hb r n (w ++ p.take k)
  have hsum := sum_le_sum_range (fun i => hr (n + 1 + i)) hf
  rw [(scan_whole_take hw hp r n hk).2] at h
  rw [List.length_append, List.length_take, Nat.min_eq_left hk.le] at hspec
  obtain ⟨d, hd⟩ := Nat.exists_eq_add_of_le hf
  rw [hd, Nat.add_sub_cancel_left] at hsum
  rw [hd, Nat.add_mul] at hspec
  rw [Nat.mul_succ] at hsum
  have hd0 : d = 0 := by omega
  have hk0 : k = 0 := by omega
  subst hd0 hk0
  refine ⟨?_, ha hd.symm⟩
  rwa [List.take_zero, List.append_nil]

end Replace
