import Mathlib.Data.List.Basic

/-!
# Visiting a container that loses elements under the visitor

A visitor says of each element whether it is erased and whether the visit goes on. `visitAll` is the
visit of a list, `visitGroups` that of a list of groups, a group that is left empty being dropped.
The second is the first of the groups' elements in a row (`flat_visitGroups`), and so is the visit of
one group, its visitor passing over the others (`visitAll_only`).
-/

namespace Visit

variable {κ α β γ : Type*}

/-- The answer of a visitor. -/
structure Visited (β : Type*) where
  remove : Bool := false
  keepgoing : Bool := true
  state : β

def visitAll (v : α → β → Visited β) : List α → β → List α × β × Bool
  | [], s => ([], s, true)
  | a :: l, s =>
    let r := v a s
    let rest := if r.keepgoing then visitAll v l r.state else (l, r.state, false)
    (if r.remove then rest.1 else a :: rest.1, rest.2)

/-- The visitor passes over the element. -/
def pass (s : β) : Visited β := { state := s }

variable {v : α → β → Visited β} {p : α → Bool} {f : β → α → β} {l l' : List α} {s : β} {a : α}

theorem visitAll_cons : visitAll v (a :: l) s =
    let rest := if (v a s).keepgoing then visitAll v l (v a s).state else (l, (v a s).state, false)
    (if (v a s).remove then rest.1 else a :: rest.1, rest.2) := rfl

theorem visitAll_cons_stop (h : (v a s).keepgoing = false) :
    visitAll v (a :: l) s = (if (v a s).remove then l else a :: l, (v a s).state, false) := by
  rw [visitAll_cons, h]
  rfl

theorem visitAll_cons_keep (h : (v a s).keepgoing = true) : visitAll v (a :: l) s =
    (if (v a s).remove then (visitAll v l (v a s).state).1 else a :: (visitAll v l (v a s).state).1,
      (visitAll v l (v a s).state).2) := by
  rw [visitAll_cons, h]
  rfl

theorem visitAll_sublist : (visitAll v l s).1.Sublist l := by
  induction l generalizing s with
  | nil => exact .slnil
  | cons a l ih =>
    rw [visitAll_cons]
    have hrest : (if (v a s).keepgoing then visitAll v l (v a s).state
        else (l, (v a s).state, false)).1.Sublist l := by
      split
      · exact ih
      · exact List.Sublist.refl l
    dsimp only
    split
    · exact hrest.cons a
    · exact hrest.cons_cons a

/-- Up to where the visit is stopped. -/
theorem visitAll_append : visitAll v (l ++ l') s =
    if (visitAll v l s).2.2 then
      ((visitAll v l s).1 ++ (visitAll v l' (visitAll v l s).2.1).1, (visitAll v l' (visitAll v l s).2.1).2)
    else ((visitAll v l s).1 ++ l', (visitAll v l s).2) := by
  induction l generalizing s with
  | nil => rfl
  | cons a l ih =>
    rw [List.cons_append]
    cases hk : (v a s).keepgoing with
    | false =>
      rw [visitAll_cons_stop hk, visitAll_cons_stop hk]
      cases (v a s).remove <;> rfl
    | true =>
      rw [visitAll_cons_keep hk, visitAll_cons_keep hk, ih]
      cases (visitAll v l (v a s).state).2.2 <;> cases (v a s).remove <;> rfl

theorem visitAll_pass (h : ∀ a ∈ l, ∀ s, v a s = pass s) : visitAll v l s = (l, s, true) := by
  induction l generalizing s with
  | nil => rfl
  | cons a l ih =>
    have ha := h a (.head _) s
    rw [visitAll_cons_keep (by rw [ha]; rfl), ha]
    show (a :: (visitAll v l s).1, (visitAll v l s).2) = _
    rw [ih fun b hb => h b (.tail _ hb)]

theorem visitAll_map {w : γ → β → Visited β} (g : γ → α) (l : List γ) (h : ∀ c ∈ l, ∀ s, v (g c) s = w c s) :
    visitAll v (l.map g) s = ((visitAll w l s).1.map g, (visitAll w l s).2) := by
  induction l generalizing s with
  | nil => rfl
  | cons c l ih =>
    have hc := h c (.head _) s
    rw [List.map_cons]
    cases hk : (w c s).keepgoing with
    | false =>
      rw [visitAll_cons_stop (by rw [hc, hk]), visitAll_cons_stop hk, hc]
      cases (w c s).remove <;> rfl
    | true =>
      rw [visitAll_cons_keep (by rw [hc, hk]), visitAll_cons_keep hk, hc, ih fun b hb => h b (.tail _ hb)]
      cases (w c s).remove <;> rfl

/-! ### Visitors with a predicate -/

/-- Erases what meets `p`, and does `f` with it. -/
theorem visitAll_filter (h : ∀ a s, v a s = if p a then { remove := true, state := f s a } else pass s) :
    visitAll v l s = (l.filter fun a => !p a, (l.filter p).foldl f s, true) := by
  induction l generalizing s with
  | nil => rfl
  | cons a l ih =>
    have hk : (v a s).keepgoing = true := by
      rw [h]
      split <;> rfl
    rw [visitAll_cons_keep hk, ih, h]
    cases hp : p a <;> simp [hp, pass]

/-- Erases the first that meets `p`, does `f` with it and stops. -/
theorem visitAll_first
    (h : ∀ a s, v a s = if p a then { remove := true, keepgoing := false, state := f s a } else pass s) :
    (visitAll v l s).1 = l.eraseP p ∧ (visitAll v l s).2.1 = (l.find? p).toList.foldl f s := by
  induction l generalizing s with
  | nil => exact ⟨rfl, rfl⟩
  | cons a l ih =>
    cases hp : p a with
    | true =>
      have ha : v a s = { remove := true, keepgoing := false, state := f s a } := by rw [h, hp]; rfl
      rw [visitAll_cons_stop (by rw [ha]), ha]
      simp [hp]
    | false =>
      have ha : v a s = pass s := by rw [h, hp]; rfl
      rw [visitAll_cons_keep (by rw [ha]; rfl), ha]
      simp only [pass, Bool.false_eq_true, if_false, hp, not_false_eq_true, List.eraseP_cons_of_neg,
        List.find?_cons_of_neg]
      exact ⟨congrArg (a :: ·) ih.1, ih.2⟩

theorem visitAll_count {v : α → Nat → Visited Nat} {n : Nat}
    (h : ∀ a n, v a n = if p a then { state := n + 1 } else pass n) : (visitAll v l n).2.1 = n + l.countP p := by
  induction l generalizing n with
  | nil => rfl
  | cons a l ih =>
    have hk : (v a n).keepgoing = true := by
      rw [h]
      split <;> rfl
    rw [visitAll_cons_keep hk, h, List.countP_cons, ih]
    cases p a
    · rfl
    · exact Nat.add_right_comm n 1 _

theorem mem_eraseP_iff (h : l.Nodup) : a ∈ l.eraseP p ↔ a ∈ l ∧ l.find? p ≠ some a := by
  induction l with
  | nil => simp
  | cons b l ih =>
    rw [List.nodup_cons] at h
    cases hp : p b with
    | true =>
      rw [List.eraseP_cons_of_pos hp, List.find?_cons_of_pos hp, List.mem_cons, Ne, Option.some.injEq]
      constructor
      · intro ha
        refine ⟨.inr ha, ?_⟩
        rintro rfl
        exact h.1 ha
      · rintro ⟨rfl | ha, hne⟩
        exacts [absurd rfl hne, ha]
    | false =>
      have hneg : ¬ p b = true := by simp [hp]
      rw [List.eraseP_cons_of_neg hneg, List.find?_cons_of_neg hneg, List.mem_cons, List.mem_cons, ih h.2]
      constructor
      · rintro (rfl | ⟨ha, hne⟩)
        · refine ⟨.inl rfl, fun hfind => ?_⟩
          exact hneg (List.find?_some hfind)
        · exact ⟨.inr ha, hne⟩
      · rintro ⟨rfl | ha, hne⟩
        exacts [.inl rfl, .inr ⟨ha, hne⟩]

/-! ### Groups -/

def flat (m : List (κ × List α)) : List (κ × α) := m.flatMap fun e => e.2.map fun a => (e.1, a)

@[simp] theorem flat_nil : flat ([] : List (κ × List α)) = [] := rfl

@[simp] theorem flat_cons {e : κ × List α} {m : List (κ × List α)} :
    flat (e :: m) = (e.2.map fun a => (e.1, a)) ++ flat m := rfl

@[simp] theorem flat_append {m m' : List (κ × List α)} : flat (m ++ m') = flat m ++ flat m' :=
  List.flatMap_append

theorem mem_flat {m : List (κ × List α)} {k : κ} : (k, a) ∈ flat m ↔ ∃ l, (k, l) ∈ m ∧ a ∈ l := by
  simp [flat]

def visitGroups (v : κ → α → β → Visited β) : List (κ × List α) → β → List (κ × List α) × β × Bool
  | [], s => ([], s, true)
  | (k, l) :: m, s =>
    let r := visitAll (v k) l s
    let rest := if r.2.2 then visitGroups v m r.2.1 else (m, r.2)
    (if r.1.isEmpty then rest.1 else (k, r.1) :: rest.1, rest.2)

/-- The groups are visited like one list. -/
theorem flat_visitGroups {v : κ → α → β → Visited β} {m : List (κ × List α)} {s : β} :
    (flat (visitGroups v m s).1, (visitGroups v m s).2) = visitAll (fun e s => v e.1 e.2 s) (flat m) s := by
  induction m generalizing s with
  | nil => rfl
  | cons e m ih =>
    obtain ⟨k, l⟩ := e
    rw [flat_cons, visitAll_append,
      visitAll_map (w := v k) (fun a => (k, a)) l fun _ _ _ => rfl, visitGroups]
    dsimp only
    cases hk : (visitAll (v k) l s).2.2 with
    | false =>
      cases hr : (visitAll (v k) l s).1 <;> simp
    | true =>
      rw [← ih]
      cases hr : (visitAll (v k) l s).1 <;> simp

theorem visitGroups_sublist {v : κ → α → β → Visited β} {m : List (κ × List α)} {s : β} :
    ((visitGroups v m s).1.map Prod.fst).Sublist (m.map Prod.fst) := by
  induction m generalizing s with
  | nil => exact .slnil
  | cons e m ih =>
    obtain ⟨k, l⟩ := e
    rw [visitGroups, List.map_cons]
    dsimp only
    have hrest : ((if (visitAll (v k) l s).2.2 then visitGroups v m (visitAll (v k) l s).2.1
        else (m, (visitAll (v k) l s).2)).1.map Prod.fst).Sublist (m.map Prod.fst) := by
      split
      · exact ih
      · exact List.Sublist.refl _
    split
    · exact hrest.cons k
    · rw [List.map_cons]
      exact hrest.cons_cons k

/-- What is left of a group. -/
theorem mem_visitGroups {v : κ → α → β → Visited β} {m : List (κ × List α)} {s : β} {e : κ × List α}
    (h : e ∈ (visitGroups v m s).1) : ∃ l, (e.1, l) ∈ m ∧ e.2.Sublist l ∧ (l ≠ [] → e.2 ≠ []) := by
  induction m generalizing s with
  | nil => exact absurd h List.not_mem_nil
  | cons d m ih =>
    obtain ⟨k, l⟩ := d
    rw [visitGroups] at h
    dsimp only at h
    have hrest : e ∈ (if (visitAll (v k) l s).2.2 then visitGroups v m (visitAll (v k) l s).2.1
        else (m, (visitAll (v k) l s).2)).1 →
        ∃ l', (e.1, l') ∈ (k, l) :: m ∧ e.2.Sublist l' ∧ (l' ≠ [] → e.2 ≠ []) := by
      intro he
      split at he
      · obtain ⟨l', hl', hrel⟩ := ih he
        exact ⟨l', .tail _ hl', hrel⟩
      · exact ⟨e.2, .tail _ he, List.Sublist.refl _, id⟩
    split at h
    · exact hrest h
    · rename_i hne
      rcases List.mem_cons.1 h with rfl | h
      · exact ⟨l, .head _, visitAll_sublist, fun _ hnil => hne (List.isEmpty_iff.2 hnil)⟩
      · exact hrest h

/-- The visit of one group alone. -/
theorem visitAll_only [DecidableEq κ] {v : κ → α → β → Visited β} {m m' : List (κ × List α)} {k : κ}
    {l : List α} {s : β} (hm : k ∉ m.map Prod.fst) (hm' : k ∉ m'.map Prod.fst) :
    visitAll (fun e s => if e.1 = k then v e.1 e.2 s else pass s) (flat (m ++ (k, l) :: m')) s =
      (flat (m ++ (k, (visitAll (v k) l s).1) :: m'), (visitAll (v k) l s).2.1, (visitAll (v k) l s).2.2) := by
  have hskip : ∀ n : List (κ × List α), k ∉ n.map Prod.fst → ∀ s,
      visitAll (fun e s => if e.1 = k then v e.1 e.2 s else pass s) (flat n) s = (flat n, s, true) := by
    refine fun n hn s => visitAll_pass fun e he s => if_neg fun hek => hn ?_
    obtain ⟨l, hl, -⟩ := mem_flat.1 he
    exact List.mem_map.2 ⟨(e.1, l), hl, hek⟩
  rw [flat_append, visitAll_append, hskip m hm, flat_cons, if_pos rfl, visitAll_append,
    visitAll_map (w := v k) (fun a => (k, a)) l fun _ _ _ => if_pos rfl]
  dsimp only
  cases hk : (visitAll (v k) l s).2.2 with
  | false => simp [Prod.ext_iff, hk]
  | true => simp [hskip m' hm']

end Visit
