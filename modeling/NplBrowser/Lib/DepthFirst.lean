import Mathlib.Data.Set.Card
import Mathlib.Logic.Relation
import NplBrowser.Lib.Run

/-!
# Depth-first traversal

`visit succ n done a` puts behind `done` the elements at or below `a` that are not in it, each behind
those below it. `n` bounds the depth of the recursion; `none` is running out of it. Where no cycle is
below `a` and `done` has with an element all that is below it, the traversal ends and misses nothing:
a relation that only finitely many elements stand in is well-founded below every element that no cycle
can be reached from (`Acyclic.Below.acc`).
-/

namespace Acyclic

open Relation

variable {α : Type*} {r : α → α → Prop}

/-- No cycle leads to `b`. -/
def Below (r : α → α → Prop) (b : α) : Prop := ∀ a, ReflTransGen r a b → ¬ TransGen r a a

theorem Below.of_rel {a b : α} (h : Below r b) (hab : r a b) : Below r a :=
  fun c hc => h c (hc.tail hab)

theorem Below.ne {a b c : α} (h : Below r b) (hab : r a b) (hca : ReflTransGen r c a) : c ≠ b := by
  rintro rfl
  exact h c .refl (.tail' hca hab)

theorem Below.acc (hfin : {a | ∃ b, r a b}.Finite) {b : α} (h : Below r b) : Acc r b := by
  -- the elements below shrink, and `a` itself is not below `a`
  induction hcard : {a | TransGen r a b}.ncard using Nat.strong_induction_on generalizing b with
  | _ m ih =>
    subst hcard
    refine .intro b fun a hab => ih _ (Set.ncard_lt_ncard ?_ ?_) (h.of_rel hab) rfl
    · refine ⟨fun c hc => hc.tail hab, fun hsub => ?_⟩
      exact h a (.single hab) (hsub (.single hab))
    · refine hfin.subset fun c hc => ?_
      obtain ⟨d, hd, -⟩ := TransGen.head'_iff.1 hc
      exact ⟨d, hd⟩

end Acyclic

namespace DepthFirst

open Relation

variable {α : Type*} (succ : α → List α)

/-- `b` is one step below `a`. -/
def Under (b a : α) : Prop := b ∈ succ a

/-- What is below an element of `done` is in `done`. -/
def Closed (done : List α) : Prop := ∀ a ∈ done, ∀ b ∈ succ a, b ∈ done

variable {succ}

theorem Closed.mem {done : List α} (h : Closed succ done) {a b : α} (hba : ReflTransGen (Under succ) b a)
    (ha : a ∈ done) : b ∈ done := by
  induction hba using ReflTransGen.head_induction_on with
  | refl => exact ha
  | head hbc _ ih => exact h _ ih _ hbc

/-- `done'` is `done` and behind it, once each, the elements of `S` that are not in it. -/
def Extends (done : List α) (S : α → Prop) (done' : List α) : Prop :=
  ∃ new, done' = done ++ new ∧ new.Nodup ∧ ∀ b, b ∈ new ↔ S b ∧ b ∉ done

namespace Extends

variable {done done' done'' : List α} {S T : α → Prop}

theorem of_mem (h : ∀ b, S b → b ∈ done) : Extends done S done :=
  ⟨[], (List.append_nil _).symm, .nil, fun b => by simpa using h b⟩

theorem mem_iff (h : Extends done S done') {b : α} : b ∈ done' ↔ b ∈ done ∨ S b := by
  obtain ⟨new, rfl, -, hmem⟩ := h
  rw [List.mem_append, hmem]
  tauto

theorem trans (h : Extends done S done') (h' : Extends done' T done'') :
    Extends done (fun b => S b ∨ T b) done'' := by
  obtain ⟨new, rfl, hnd, hmem⟩ := h
  obtain ⟨new', rfl, hnd', hmem'⟩ := h'
  refine ⟨new ++ new', List.append_assoc .., List.nodup_append.2 ⟨hnd, hnd', ?_⟩, fun b => ?_⟩
  · rintro b hb c hc rfl
    exact ((hmem' b).1 hc).2 (List.mem_append_right _ hb)
  · rw [List.mem_append, hmem', List.mem_append, hmem]
    tauto

theorem congr (h : Extends done S done') (hST : ∀ b, S b ↔ T b) : Extends done T done' :=
  funext (fun b => propext (hST b)) ▸ h

/-- One more element at the end. -/
theorem snoc (h : Extends done S done') {a : α} (hdone : a ∉ done) (ha : ¬ S a) :
    Extends done (fun b => S b ∨ b = a) (done' ++ [a]) := by
  refine h.trans ⟨[a], rfl, List.nodup_singleton a, fun b => ?_⟩
  rw [List.mem_singleton, h.mem_iff]
  constructor
  · rintro rfl
    exact ⟨rfl, fun hb => hb.elim hdone ha⟩
  · exact And.left

end Extends

/-- The elements at or below one of `l`. -/
def Among (succ : α → List α) (l : List α) (b : α) : Prop := ∃ a ∈ l, ReflTransGen (Under succ) b a

theorem among_cons {a b : α} {l : List α} :
    Among succ (a :: l) b ↔ ReflTransGen (Under succ) b a ∨ Among succ l b := by
  simp [Among]

/-- What is at or below `a` is below one of its successors, or `a`. -/
theorem among_succ {a b : α} : Among succ (succ a) b ∨ b = a ↔ ReflTransGen (Under succ) b a := by
  rw [ReflTransGen.cases_tail_iff]
  constructor
  · rintro (⟨c, hc, hbc⟩ | rfl)
    · exact .inr ⟨c, hbc, hc⟩
    · exact .inl rfl
  · rintro (rfl | ⟨c, hbc, hc⟩)
    · exact .inr rfl
    · exact .inl ⟨c, hc, hbc⟩

/-! ## The traversal -/

variable [DecidableEq α]

/-- An element that has been visited is not visited again. -/
def skip (visit : List α → α → Option (List α)) (done : List α) (b : α) : Option (List α) :=
  if b ∈ done then some done else visit done b

def visit (succ : α → List α) : Nat → List α → α → Option (List α)
  | 0, _, _ => none
  | n + 1, done, a => (Lts.exec (skip (visit succ n)) done (succ a)).map (· ++ [a])

theorem skip_mono {v v' : List α → α → Option (List α)}
    (h : ∀ done a t, v done a = some t → v' done a = some t) {done t : List α} {b : α}
    (hs : skip v done b = some t) : skip v' done b = some t := by
  unfold skip at hs ⊢
  split at hs <;> rename_i hb
  · rwa [if_pos hb]
  · rw [if_neg hb]
    exact h _ _ _ hs

theorem visit_succ {n : Nat} {done t : List α} {a : α} (h : visit succ n done a = some t) :
    visit succ (n + 1) done a = some t := by
  induction n generalizing done a t with
  | zero => cases h
  | succ n ih =>
    obtain ⟨done', hloop, rfl⟩ := Option.map_eq_some_iff.1 h
    exact Option.map_eq_some_iff.2 ⟨done', Lts.exec_mono (fun s b t => skip_mono fun _ _ _ => ih) hloop, rfl⟩

theorem visit_mono {n m : Nat} (hnm : n ≤ m) {done t : List α} {a : α} (h : visit succ n done a = some t) :
    visit succ m done a = some t := by
  induction hnm with
  | refl => exact h
  | step _ ih => exact visit_succ ih

/-- What a visit with the bound `n` does, whatever has been visited before. -/
def Ends (succ : α → List α) (n : Nat) (a : α) : Prop :=
  ∀ done, Closed succ done → a ∉ done → ∃ done', visit succ n done a = some done' ∧
    Extends done (ReflTransGen (Under succ) · a) done' ∧ Closed succ done'

theorem Ends.mono {n m : Nat} {a : α} (h : Ends succ n a) (hnm : n ≤ m) : Ends succ m a := by
  intro done hclosed ha
  obtain ⟨done', hvisit, hrest⟩ := h done hclosed ha
  exact ⟨done', visit_mono hnm hvisit, hrest⟩

/-- One bound for finitely many elements. -/
theorem exists_ends {l : List α} (h : ∀ a ∈ l, ∃ n, Ends succ n a) : ∃ n, ∀ a ∈ l, Ends succ n a := by
  induction l with
  | nil => exact ⟨0, nofun⟩
  | cons a l ih =>
    obtain ⟨n, hn⟩ := h a (.head _)
    obtain ⟨m, hm⟩ := ih fun b hb => h b (.tail _ hb)
    refine ⟨max n m, fun b hb => ?_⟩
    rcases List.mem_cons.1 hb with rfl | hb
    · exact hn.mono (Nat.le_max_left ..)
    · exact (hm b hb).mono (Nat.le_max_right ..)

theorem exec_skip {n : Nat} {l done : List α} (h : ∀ a ∈ l, Ends succ n a) (hclosed : Closed succ done) :
    ∃ done', Lts.exec (skip (visit succ n)) done l = some done' ∧ Extends done (Among succ l) done' ∧
      Closed succ done' := by
  induction l generalizing done with
  | nil => exact ⟨done, rfl, .of_mem (fun b ⟨_, ha, _⟩ => nomatch ha), hclosed⟩
  | cons a l ih =>
    obtain ⟨done₁, hskip, hext, hclosed₁⟩ : ∃ done₁, skip (visit succ n) done a = some done₁ ∧
        Extends done (ReflTransGen (Under succ) · a) done₁ ∧ Closed succ done₁ := by
      unfold skip
      split <;> rename_i ha
      · exact ⟨done, rfl, .of_mem (fun b hb => hclosed.mem hb ha), hclosed⟩
      · exact h a (.head _) done hclosed ha
    obtain ⟨done', hloop, hext', hclosed'⟩ := ih (fun b hb => h b (.tail _ hb)) hclosed₁
    refine ⟨done', ?_, (hext.trans hext').congr fun b => among_cons.symm, hclosed'⟩
    rw [Lts.exec_cons hskip, hloop]

/-- By induction on what is below `a`. -/
theorem ends_of_acyclic (hfin : {b | ∃ a, Under succ b a}.Finite) {a : α}
    (ha : Acyclic.Below (Under succ) a) : ∃ n, Ends succ n a := by
  induction ha.acc hfin with
  | intro a _ ih =>
    obtain ⟨n, hn⟩ := exists_ends (l := succ a) fun b hb => ih b hb (ha.of_rel hb)
    refine ⟨n + 1, fun done hclosed hdone => ?_⟩
    obtain ⟨done', hloop, hext, hclosed'⟩ := exec_skip hn hclosed
    have hnot : ¬ Among succ (succ a) a := fun ⟨b, hb, hab⟩ => ha.ne hb hab rfl
    refine ⟨done' ++ [a], Option.map_eq_some_iff.2 ⟨done', hloop, rfl⟩,
      (hext.snoc hdone hnot).congr fun b => among_succ, fun b hb c hc => ?_⟩
    rw [List.mem_append, List.mem_singleton] at hb
    refine List.mem_append_left _ ?_
    rcases hb with hb | rfl
    · exact hclosed' b hb c hc
    · exact hext.mem_iff.2 (.inr ⟨c, hc, .refl⟩)

end DepthFirst
