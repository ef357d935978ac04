import Mathlib.Data.List.Basic

/-!
# Walking a container that grows under the walk

`walk items f n s it` runs `f` on the elements of `items s` from `it` on. `f` may put new elements
anywhere into the container, and the element after `a` is the one behind it in the container as `f`
left it. `n` bounds the number of steps; `none` is running out of them.
-/

namespace Walk

variable {σ α : Type*}

theorem split_of_sublist {p q l : List α} {a : α} (h : (p ++ a :: q).Sublist l) :
    ∃ p' q', l = p' ++ a :: q' ∧ p.Sublist p' ∧ q.Sublist q' := by
  obtain ⟨l₁, l₂, rfl, hp, hq⟩ := List.append_sublist_iff.1 h
  obtain ⟨m, q', rfl, ha, hq'⟩ := List.cons_sublist_iff.1 hq
  obtain ⟨u, v, rfl⟩ := List.append_of_mem ha
  refine ⟨l₁ ++ u, v ++ q', by simp, hp.trans (List.sublist_append_left _ _), ?_⟩
  exact hq'.trans (List.sublist_append_right _ _)

def total (μ : α → Nat) (l : List α) : Nat := l.foldr (fun a n => μ a + n) 0

theorem total_cons (μ : α → Nat) (a : α) (l : List α) : total μ (a :: l) = μ a + total μ l := rfl

theorem total_append (μ : α → Nat) (l l' : List α) : total μ (l ++ l') = total μ l + total μ l' := by
  induction l with
  | nil => exact (Nat.zero_add _).symm
  | cons a l ih => rw [List.cons_append, total_cons, total_cons, ih, Nat.add_assoc]

theorem total_le_of_sublist (μ : α → Nat) {l l' : List α} (h : l.Sublist l') : total μ l ≤ total μ l' := by
  induction h with
  | slnil => exact Nat.le_refl _
  | cons a _ ih => exact Nat.le_trans ih (Nat.le_add_left _ _)
  | cons_cons a _ ih => exact Nat.add_le_add_left ih _

variable [DecidableEq α]

/-- The element behind `a`. -/
def next (a : α) (l : List α) : Option α := (l.dropWhile (· ≠ a)).tail.head?

def walk (items : σ → List α) (f : σ → α → σ) : Nat → σ → Option α → Option (σ × List α)
  | _, s, none => some (s, [])
  | 0, _, some _ => none
  | n + 1, s, some a =>
    (walk items f n (f s a) (next a (items (f s a)))).map fun r => (r.1, a :: r.2)

theorem next_append {p q : List α} {a : α} (h : a ∉ p) : next a (p ++ a :: q) = q.head? := by
  unfold next
  have hp : ∀ b ∈ p, decide (b ≠ a) = true := fun b hb => decide_eq_true fun hba => h (hba ▸ hb)
  rw [List.dropWhile_append_of_pos hp, List.dropWhile_cons_of_neg (by simp), List.tail_cons]

section

variable {items : σ → List α} {f : σ → α → σ} {I : σ → Prop} {n : Nat} {s t : σ} {v : List α}
  (hI : ∀ s, ∀ a ∈ items s, I s → I (f s a)) (hnd : ∀ s, I s → (items s).Nodup)
  (hsub : ∀ s, ∀ a ∈ items s, I s → (items s).Sublist (items (f s a)))

theorem walk_succ {a : α} (h : walk items f (n + 1) s (some a) = some (t, v)) :
    ∃ v', v = a :: v' ∧ walk items f n (f s a) (next a (items (f s a))) = some (t, v') := by
  obtain ⟨⟨t', v'⟩, hw, he⟩ := Option.map_eq_some_iff.1 h
  cases he
  exact ⟨v', rfl, hw⟩

theorem walk_eq_foldl {it : Option α} (h : walk items f n s it = some (t, v)) :
    t = v.foldl f s := by
  induction n generalizing s it t v with
  | zero =>
    cases it with
    | none => cases h; rfl
    | some a => cases h
  | succ n ih =>
    cases it with
    | none => cases h; rfl
    | some a =>
      obtain ⟨v', rfl, hw'⟩ := walk_succ h
      rw [List.foldl_cons]
      exact ih hw'

include hnd hsub in
/-- Where the walk stands after the step at `a`. -/
theorem step_split {p q : List α} {a : α} (hi : I s) (hi' : I (f s a))
    (h : items s = p ++ a :: q) :
    ∃ p' q', items (f s a) = p' ++ a :: q' ∧ p.Sublist p' ∧ q.Sublist q' ∧
      next a (items (f s a)) = q'.head? := by
  obtain ⟨p', q', he, hp, hq⟩ := split_of_sublist (h ▸ hsub s a (by rw [h]; simp) hi)
  refine ⟨p', q', he, hp, hq, ?_⟩
  have hn := hnd _ hi'
  rw [he] at hn ⊢
  exact next_append fun ha => (List.nodup_append.1 hn).2.2 a ha a (.head _) rfl

include hI hnd hsub in
theorem walk_from {p q : List α} (hi : I s) (h : items s = p ++ q)
    (hw : walk items f n s q.head? = some (t, v)) : I t ∧ q.Sublist v ∧ (p ++ v).Sublist (items t) := by
  induction n generalizing s p q v with
  | zero =>
    cases q with
    | nil => cases hw; exact ⟨hi, .refl _, by rw [h]⟩
    | cons a q => cases hw
  | succ n ih =>
    cases q with
    | nil => cases hw; exact ⟨hi, .refl _, by rw [h]⟩
    | cons a q =>
      obtain ⟨v', rfl, hw'⟩ := walk_succ hw
      have hi' := hI s a (by rw [h]; simp) hi
      obtain ⟨p', q', he, hp, hq, hnext⟩ := step_split hnd hsub hi hi' h
      rw [hnext] at hw'
      obtain ⟨hit, hv, ht⟩ := ih (p := p' ++ [a]) hi' (by rw [he]; simp) hw'
      refine ⟨hit, (hq.trans hv).cons_cons a, ?_⟩
      rw [List.append_cons]
      exact ((hp.append_right [a]).append_right v').trans ht

include hI hnd hsub in
/-- The walk visits what was there when it began, in order, and nothing that is not there when it
ends. -/
theorem walk_visits (hi : I s) (hw : walk items f n s (items s).head? = some (t, v)) :
    I t ∧ (items s).Sublist v ∧ v.Sublist (items t) :=
  walk_from hI hnd hsub (p := []) hi rfl hw

include hI hnd hsub in
/-- A walk ends if a step adds less than the weight of the element it is at. -/
theorem walk_isSome {μ : α → Nat}
    (hμ : ∀ s, ∀ a ∈ items s, I s → total μ (items (f s a)) < total μ (items s) + μ a)
    {p q : List α} (hi : I s) (h : items s = p ++ q) (hn : total μ q ≤ n) :
    (walk items f n s q.head?).isSome := by
  induction n generalizing s p q with
  | zero =>
    cases q with
    | nil => rfl
    | cons a q =>
      have ha : a ∈ items s := by rw [h]; simp
      have h₁ := hμ s a ha hi
      have h₂ := total_le_of_sublist μ (hsub s a ha hi)
      rw [total_cons] at hn
      omega
  | succ n ih =>
    cases q with
    | nil => rfl
    | cons a q =>
      have ha : a ∈ items s := by rw [h]; simp
      have hi' := hI s a ha hi
      obtain ⟨p', q', he, hp, _, hnext⟩ := step_split hnd hsub hi hi' h
      have h₁ := hμ s a ha hi
      have h₂ := total_le_of_sublist μ hp
      rw [h, he, total_append, total_append, total_cons, total_cons] at h₁
      rw [total_cons] at hn
      show ((walk items f n (f s a) (next a (items (f s a)))).map _).isSome
      rw [hnext, Option.isSome_map]
      exact ih (p := p' ++ [a]) hi' (by rw [he]; simp) (by omega)

end

end Walk
