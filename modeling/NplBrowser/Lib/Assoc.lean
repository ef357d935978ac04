import Mathlib.Data.List.Basic

/-!
# Ordered maps as association lists

`std::map` as the list of its entries in key order. The laws of `find?` against `insert` and
`erase` hold of every list, sorted or not, so that no caller has to carry the order along.

Where the order matters, `insert` keeps it (`Ordered.insert`), and entries that come in order are only put at
the end, so that a list in order is what putting in its entries one after the other makes (`insertAll_nil`).
-/

namespace Assoc

variable {K V : Type*} [DecidableEq K]

def find? (k : K) : List (K × V) → Option V
  | [] => none
  | (k', v) :: l => if k = k' then some v else find? k l

/-- `m[k] = v`: the entry of `k` is replaced, or put in its place. -/
def insert [LT K] [DecidableLT K] (k : K) (v : V) : List (K × V) → List (K × V)
  | [] => [(k, v)]
  | (k', v') :: l =>
    if k = k' then (k, v) :: l
    else if k < k' then (k, v) :: (k', v') :: l
    else (k', v') :: insert k v l

def erase (k : K) (l : List (K × V)) : List (K × V) :=
  l.filter fun e => e.1 ≠ k

@[simp] theorem find?_nil (k : K) : find? k ([] : List (K × V)) = none := rfl

theorem find?_cons (k k' : K) (v : V) (l : List (K × V)) :
    find? k ((k', v) :: l) = if k = k' then some v else find? k l := rfl

theorem mem_of_find? {k : K} {v : V} {l : List (K × V)} (h : find? k l = some v) : (k, v) ∈ l := by
  induction l with
  | nil => cases h
  | cons e l ih =>
    obtain ⟨k', v'⟩ := e
    rw [find?_cons] at h
    split at h
    · cases h; subst_vars; simp
    · exact List.mem_cons_of_mem _ (ih h)

theorem find?_of_mem {k : K} {v : V} {l : List (K × V)} (hl : (l.map Prod.fst).Nodup) (h : (k, v) ∈ l) :
    find? k l = some v := by
  induction l with
  | nil => cases h
  | cons e l ih =>
    obtain ⟨k', v'⟩ := e
    rw [List.map_cons, List.nodup_cons] at hl
    rw [find?_cons]
    rcases List.mem_cons.1 h with heq | hmem
    · cases heq
      exact if_pos rfl
    · rw [if_neg, ih hl.2 hmem]
      rintro rfl
      exact hl.1 (List.mem_map.2 ⟨(k, v), hmem, rfl⟩)

theorem find?_ne_none_of_mem {e : K × V} {l : List (K × V)} (h : e ∈ l) : find? e.1 l ≠ none := by
  induction l with
  | nil => cases h
  | cons e' l ih =>
    obtain ⟨k', v'⟩ := e'
    rw [find?_cons]
    split
    · simp
    · rcases List.mem_cons.1 h with rfl | h
      · exact absurd rfl ‹_›
      · exact ih h

section insert
variable [LT K] [DecidableLT K]

@[simp] theorem find?_insert_self (k : K) (v : V) (l : List (K × V)) :
    find? k (insert k v l) = some v := by
  induction l with
  | nil => simp [insert, find?]
  | cons e l ih =>
    obtain ⟨k', v'⟩ := e
    unfold insert
    split
    · simp [find?]
    · split
      · simp [find?]
      · rw [find?_cons, if_neg ‹_›, ih]

theorem find?_insert_ne {k k' : K} (h : k' ≠ k) (v : V) (l : List (K × V)) :
    find? k' (insert k v l) = find? k' l := by
  induction l with
  | nil => simp [insert, find?, h]
  | cons e l ih =>
    obtain ⟨k₁, v₁⟩ := e
    unfold insert
    split
    · subst_vars; simp [find?, h]
    · split
      · rw [find?_cons, if_neg h]
      · rw [find?_cons, find?_cons, ih]

theorem mem_insert {k : K} {v : V} {l : List (K × V)} {e : K × V} (h : e ∈ insert k v l) :
    e = (k, v) ∨ e ∈ l := by
  induction l with
  | nil => exact .inl (by simpa [insert] using h)
  | cons e' l ih =>
    obtain ⟨k₁, v₁⟩ := e'
    unfold insert at h
    split at h
    · rcases List.mem_cons.1 h with rfl | h
      exacts [.inl rfl, .inr (by simp [h])]
    · split at h
      · rcases List.mem_cons.1 h with rfl | h
        exacts [.inl rfl, .inr h]
      · rcases List.mem_cons.1 h with rfl | h
        · exact .inr (by simp)
        · exact (ih h).imp_right fun h => by simp [h]

@[simp] theorem insert_insert (k : K) (v w : V) (l : List (K × V)) :
    insert k w (insert k v l) = insert k w l := by
  induction l with
  | nil => simp [insert]
  | cons e l ih =>
    obtain ⟨k₁, v₁⟩ := e
    by_cases h₁ : k = k₁
    · simp [insert, h₁]
    by_cases h₂ : k < k₁
    · simp [insert, h₁, h₂]
    · simp [insert, h₁, h₂, ih]

/-- The entries of `es`, put in one after the other. -/
def insertAll (es m : List (K × V)) : List (K × V) := es.foldl (fun m e => insert e.1 e.2 m) m

theorem find?_insertAll_of_notMem {k : K} {es : List (K × V)} (h : k ∉ es.map Prod.fst)
    (m : List (K × V)) : find? k (insertAll es m) = find? k m := by
  induction es generalizing m with
  | nil => rfl
  | cons e es ih =>
    rw [List.map_cons, List.mem_cons, not_or] at h
    show find? k (insertAll es _) = _
    rw [ih h.2, find?_insert_ne h.1]

theorem find?_insertAll {k : K} {v : V} {es : List (K × V)} (hk : (es.map Prod.fst).Nodup)
    (h : (k, v) ∈ es) (m : List (K × V)) : find? k (insertAll es m) = some v := by
  induction es generalizing m with
  | nil => cases h
  | cons e es ih =>
    rw [List.map_cons, List.nodup_cons] at hk
    show find? k (insertAll es _) = _
    rcases List.mem_cons.1 h with rfl | h
    · rw [find?_insertAll_of_notMem hk.1, find?_insert_self]
    · exact ih hk.2 h _

theorem mem_insertAll {es m : List (K × V)} {e : K × V} (h : e ∈ insertAll es m) :
    e ∈ es ∨ e ∈ m := by
  induction es generalizing m with
  | nil => exact .inr h
  | cons e' es ih =>
    rcases ih h with h | h
    · exact .inl (.tail _ h)
    · rcases mem_insert h with rfl | h
      exacts [.inl (.head _), .inr h]

theorem perm_insert {k : K} {l : List (K × V)} (hk : k ∉ l.map Prod.fst) (v : V) :
    (insert k v l).Perm ((k, v) :: l) := by
  induction l with
  | nil => rfl
  | cons e l ih =>
    obtain ⟨k', v'⟩ := e
    rw [List.map_cons, List.mem_cons, not_or] at hk
    unfold insert
    rw [if_neg hk.1]
    split
    · rfl
    · exact ((ih hk.2).cons _).trans (.swap _ _ _)

/-- Distinct keys: the order is all that changes. -/
theorem perm_insertAll {es m : List (K × V)} (hk : (es.map Prod.fst).Nodup)
    (hm : ∀ k ∈ es.map Prod.fst, k ∉ m.map Prod.fst) : (insertAll es m).Perm (es ++ m) := by
  induction es generalizing m with
  | nil => rfl
  | cons e es ih =>
    rw [List.map_cons, List.nodup_cons] at hk
    have he : e.1 ∉ m.map Prod.fst := hm _ (by simp)
    have hins := perm_insert he e.2
    refine (ih hk.2 ?_).trans ((hins.append_left es).trans List.perm_middle)
    intro k hmem hc
    rcases List.mem_cons.1 ((hins.map Prod.fst).subset hc) with rfl | hc
    · exact hk.1 hmem
    · exact hm k (.tail _ hmem) hc

end insert

@[simp] theorem find?_erase_self (k : K) (l : List (K × V)) : find? k (erase k l) = none := by
  by_contra h
  obtain ⟨v, hv⟩ := Option.ne_none_iff_exists'.1 h
  simpa [erase] using mem_of_find? hv

theorem find?_erase_ne {k k' : K} (h : k' ≠ k) (l : List (K × V)) :
    find? k' (erase k l) = find? k' l := by
  induction l with
  | nil => rfl
  | cons e l ih =>
    obtain ⟨k₁, v₁⟩ := e
    by_cases hk : k₁ = k
    · subst hk
      rw [find?_cons, if_neg h, ← ih]
      simp [erase]
    · rw [find?_cons, ← ih]
      simp [erase, hk, find?_cons]

theorem erase_insert [LT K] [DecidableLT K] (k : K) (v : V) (l : List (K × V)) :
    erase k (insert k v l) = erase k l := by
  induction l with
  | nil => simp [insert, erase]
  | cons e l ih =>
    obtain ⟨k₁, v₁⟩ := e
    by_cases h₁ : k = k₁
    · simp [insert, erase, h₁]
    by_cases h₂ : k < k₁
    · simp [insert, erase, h₁, h₂]
    · simp only [insert, if_neg h₁, if_neg h₂]
      simp only [erase, List.filter_cons] at ih ⊢
      rw [ih]

theorem mem_erase {k : K} {l : List (K × V)} {e : K × V} (h : e ∈ erase k l) : e ∈ l :=
  (List.mem_filter.1 h).1

/-- Nothing can be looked up in an empty map, and only there. -/
theorem eq_nil_iff_find? {l : List (K × V)} : l = [] ↔ ∀ k, find? k l = none := by
  constructor
  · rintro rfl k; rfl
  · intro h
    cases l with
    | nil => rfl
    | cons e l => exact absurd (h e.1) (find?_ne_none_of_mem (by simp))

/-! ### The order of the keys -/

section order

variable {K V : Type*} [LT K]

def Ordered (l : List (K × V)) : Prop := l.Pairwise fun a b => a.1 < b.1

theorem ordered_nil : Ordered ([] : List (K × V)) := List.Pairwise.nil

theorem ordered_cons {e : K × V} {l : List (K × V)} : Ordered (e :: l) ↔ (∀ a ∈ l, e.1 < a.1) ∧ Ordered l :=
  List.pairwise_cons

variable [DecidableEq K] [DecidableLT K]

section
variable [Trans (fun a b : K => a < b) (fun a b : K => a < b) (fun a b : K => a < b)]
  [Std.Trichotomous fun a b : K => a < b]

theorem Ordered.insert {l : List (K × V)} (h : Ordered l) (k : K) (v : V) : Ordered (insert k v l) := by
  induction l with
  | nil => exact List.pairwise_singleton _ _
  | cons e l ih =>
    obtain ⟨k', v'⟩ := e
    obtain ⟨hlt, hl⟩ := ordered_cons.1 h
    unfold Assoc.insert
    split_ifs with heq hless
    · subst heq
      exact ordered_cons.2 ⟨hlt, hl⟩
    · refine ordered_cons.2 ⟨fun a ha => ?_, h⟩
      rcases List.mem_cons.1 ha with rfl | ha
      · exact hless
      · exact Trans.trans hless (hlt a ha)
    · refine ordered_cons.2 ⟨fun a ha => ?_, ih hl⟩
      rcases mem_insert ha with rfl | ha
      · by_contra hnot
        exact heq (Std.Trichotomous.trichotomous k k' hless hnot)
      · exact hlt a ha

theorem Ordered.insertAll {es m : List (K × V)} (h : Ordered m) : Ordered (insertAll es m) := by
  induction es generalizing m with
  | nil => exact h
  | cons e es ih => exact ih (h.insert e.1 e.2)

end

section
variable [Std.Asymm fun a b : K => a < b]

/-- A greater key goes to the end. -/
theorem insert_eq_append {k : K} {v : V} {l : List (K × V)} (h : ∀ e ∈ l, e.1 < k) : insert k v l = l ++ [(k, v)] := by
  induction l with
  | nil => rfl
  | cons e l ih =>
    obtain ⟨k', v'⟩ := e
    rw [List.forall_mem_cons] at h
    have hnot : ¬ k < k' := Std.Asymm.asymm _ _ h.1
    have hne : k ≠ k' := by
      rintro rfl
      exact hnot h.1
    rw [insert, if_neg hne, if_neg hnot, ih h.2]
    rfl

theorem insertAll_eq_append {es m : List (K × V)} (h : Ordered (m ++ es)) : insertAll es m = m ++ es := by
  induction es generalizing m with
  | nil => exact (List.append_nil m).symm
  | cons e es ih =>
    have hlt : ∀ a ∈ m, a.1 < e.1 := fun a ha => (List.pairwise_append.1 h).2.2 a ha e (by simp)
    have hassoc : m ++ e :: es = m ++ [e] ++ es := by rw [List.append_assoc]; rfl
    rw [hassoc] at h ⊢
    rw [← ih h, ← insert_eq_append hlt]
    rfl

theorem insertAll_nil {l : List (K × V)} (h : Ordered l) : insertAll l [] = l := insertAll_eq_append h

end

end order

end Assoc
