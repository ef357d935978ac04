import Mathlib.Data.List.Basic

/-!
# Runs of a labelled transition system

A system is a partial step function `step : σ → α → Option σ` (`none`: the label is not enabled).
`Run step C s as s'` is a run whose every step meets `C`, a condition on the state before the step
and the label. `Run.inv` is the one induction over runs: an invariant kept by every step that meets
`C` holds in every state such a run reaches.
-/

namespace Lts

variable {σ α : Type*} {step : σ → α → Option σ} {C C' : σ → α → Prop}

/-- The labels `as` lead from `s` to `s'`, every step meeting `C`. -/
inductive Run (step : σ → α → Option σ) (C : σ → α → Prop) : σ → List α → σ → Prop
  | nil (s : σ) : Run step C s [] s
  | cons {s s' t : σ} {a : α} {as : List α} (hC : C s a) (hs : step s a = some s')
      (h : Run step C s' as t) : Run step C s (a :: as) t

/-- No condition on the steps. -/
def Any : σ → α → Prop := fun _ _ => True

namespace Run

theorem inv {I : σ → Prop} (hstep : ∀ s a s', I s → C s a → step s a = some s' → I s')
    {s t : σ} {as : List α} (h : Run step C s as t) (h₀ : I s) : I t := by
  induction h with
  | nil => exact h₀
  | cons hC hs _ ih => exact ih (hstep _ _ _ h₀ hC hs)

/-- An invariant of the state and of the labels that led to it. -/
theorem hist {I : List α → σ → Prop}
    (hstep : ∀ as s a s', I as s → C s a → step s a = some s' → I (as ++ [a]) s')
    {s t : σ} {as p : List α} (h : Run step C s as t) (h₀ : I p s) : I (p ++ as) t := by
  induction h generalizing p with
  | nil => rwa [List.append_nil]
  | cons hC hs _ ih =>
    rw [List.append_cons]
    exact ih (hstep _ _ _ _ h₀ hC hs)

theorem append {s t u : σ} {as bs : List α} (h₁ : Run step C s as t) (h₂ : Run step C t bs u) :
    Run step C s (as ++ bs) u := by
  induction h₁ with
  | nil => exact h₂
  | cons hC hs _ ih => exact .cons hC hs (ih h₂)

theorem of_append_single {s t : σ} {as : List α} {a : α} (h : Run step C s (as ++ [a]) t) :
    ∃ m, Run step C s as m ∧ C m a ∧ step m a = some t := by
  induction as generalizing s with
  | nil =>
    obtain _ | ⟨hC, hs, hn⟩ := h
    cases hn
    exact ⟨s, .nil s, hC, hs⟩
  | cons b as ih =>
    obtain _ | ⟨hC, hs, hn⟩ := h
    obtain ⟨m, hm, hlast⟩ := ih hn
    exact ⟨m, .cons hC hs hm, hlast⟩

theorem any {s t : σ} {as : List α} (h : Run step C s as t) : Run step Any s as t := by
  induction h with
  | nil => exact .nil _
  | cons _ hs _ ih => exact .cons trivial hs ih

theorem single {s t : σ} {a : α} (hC : C s a) (hs : step s a = some t) : Run step C s [a] t :=
  .cons hC hs (.nil _)

end Run

/-- The state after the labels `as`, if they are all enabled. -/
def exec (step : σ → α → Option σ) : σ → List α → Option σ
  | s, [] => some s
  | s, a :: as => (step s a).bind fun s' => exec step s' as

theorem exec_cons {s s' : σ} {a : α} {as : List α} (h : step s a = some s') :
    exec step s (a :: as) = exec step s' as := by
  rw [exec, h, Option.bind_some]

theorem exec_single {s t : σ} {a : α} (h : step s a = some t) : exec step s [a] = some t := by
  rw [exec_cons h]
  rfl

theorem exec_append {s t u : σ} {as bs : List α} (h₁ : exec step s as = some t) (h₂ : exec step t bs = some u) :
    exec step s (as ++ bs) = some u := by
  induction as generalizing s with
  | nil =>
    cases h₁
    exact h₂
  | cons a as ih =>
    obtain ⟨s', hs, ht⟩ := Option.bind_eq_some_iff.1 h₁
    rw [List.cons_append, exec_cons hs]
    exact ih ht

/-- A run seen through `f`. -/
theorem exec_map {τ : Type*} {step' : τ → α → Option τ} (f : σ → τ)
    (hstep : ∀ s a t, step s a = some t → step' (f s) a = some (f t))
    {s t : σ} {as : List α} (h : exec step s as = some t) : exec step' (f s) as = some (f t) := by
  induction as generalizing s with
  | nil =>
    cases h
    rfl
  | cons a as ih =>
    obtain ⟨s', hs, ht⟩ := Option.bind_eq_some_iff.1 h
    rw [exec_cons (hstep _ _ _ hs)]
    exact ih ht

theorem exec_mono {step' : σ → α → Option σ} (hstep : ∀ s a t, step s a = some t → step' s a = some t)
    {s t : σ} {as : List α} (h : exec step s as = some t) : exec step' s as = some t :=
  exec_map id hstep h

/-- An executable run of labels whose condition holds anyway. -/
theorem run_of_exec_of {s t : σ} {as : List α} (hC : ∀ a ∈ as, ∀ s, C s a)
    (h : exec step s as = some t) : Run step C s as t := by
  induction as generalizing s with
  | nil => cases h; exact .nil _
  | cons a as ih =>
    obtain ⟨s', hs, ht⟩ := Option.bind_eq_some_iff.1 h
    exact .cons (hC a (.head _) s) hs (ih (fun b hb => hC b (.tail _ hb)) ht)

/-- Every one of the labels `as` meets `C` in the state it is taken in. -/
def Meets (step : σ → α → Option σ) (C : σ → α → Prop) : σ → List α → Prop
  | _, [] => True
  | s, a :: as => C s a ∧ ∀ s', step s a = some s' → Meets step C s' as

theorem meets_of_forall {s : σ} {as : List α} (h : ∀ a ∈ as, ∀ s, C s a) : Meets step C s as := by
  induction as generalizing s with
  | nil => trivial
  | cons a as ih => exact ⟨h a (.head _) s, fun s' _ => ih fun b hb => h b (.tail _ hb)⟩

theorem Meets.of_append {s : σ} {as bs : List α} (h : Meets step C s (as ++ bs)) : Meets step C s as := by
  induction as generalizing s with
  | nil => trivial
  | cons a as ih => exact ⟨h.1, fun s' hs => ih (h.2 s' hs)⟩

/-- Two conditions that an invariant of the runs that meet the first makes one. -/
theorem meets_congr {I : σ → Prop} (hstep : ∀ s a s', I s → C s a → step s a = some s' → I s')
    (hiff : ∀ s a, I s → (C' s a ↔ C s a)) {s : σ} {as : List α} (h₀ : I s) :
    Meets step C' s as ↔ Meets step C s as := by
  induction as generalizing s with
  | nil => exact Iff.rfl
  | cons a as ih =>
    rw [Meets, Meets, hiff s a h₀]
    exact and_congr_right fun hC => forall₂_congr fun s' hs => ih (hstep s a s' h₀ hC hs)

theorem run_of_meets {s t : σ} {as : List α} (hm : Meets step C s as)
    (h : exec step s as = some t) : Run step C s as t := by
  induction as generalizing s with
  | nil => cases h; exact .nil _
  | cons a as ih =>
    obtain ⟨s', hs, ht⟩ := Option.bind_eq_some_iff.1 h
    exact .cons hm.1 hs (ih (hm.2 s' hs) ht)

theorem run_of_exec {s t : σ} {as : List α} (h : exec step s as = some t) : Run step Any s as t :=
  run_of_exec_of (fun _ _ _ => trivial) h

/-- The step function with the condition checked as well. -/
def checked (step : σ → α → Option σ) (C : σ → α → Prop) [∀ s a, Decidable (C s a)] (s : σ) (a : α) :
    Option σ := if C s a then step s a else none

theorem run_of_checked [∀ s a, Decidable (C s a)] {s t : σ} {as : List α}
    (h : exec (checked step C) s as = some t) : Run step C s as t := by
  induction as generalizing s with
  | nil => cases h; exact .nil _
  | cons a as ih =>
    obtain ⟨s', hs, ht⟩ := Option.bind_eq_some_iff.1 h
    unfold checked at hs
    split at hs
    · exact .cons ‹_› hs (ih ht)
    · cases hs

end Lts
