import Mathlib.Data.List.Forall2
import NplBrowser.Lib.Run

/-!
# Objects behind pointers

A component hands out objects, each called through a pointer of its own; a call changes its object,
gives an answer and may hand out another object. `perform` is one call, `step` a call through the
pointer `i`, and the log keeps the answers. Objects that share nothing are compared one by one:
where every call on related objects gives the same answer just when it meets a condition, a run of
one component has the log of the other just when all its calls meet it (`log_eq_iff`).
-/

namespace Objects

variable {E F C A : Type*}

structure State (E C A : Type*) where
  objects : List E
  log : List (Nat × C × A) := []

/-- What a call leaves of its object, its answer and the object it hands out. -/
structure Outcome (E A : Type*) where
  self : E
  answer : A
  new : Option E := none

/-- Through the pointer `c.1`. -/
def step (perform : E → C → Outcome E A) (s : State E C A) (c : Nat × C) : Option (State E C A) :=
  (s.objects[c.1]?).map fun e =>
    { objects := s.objects.set c.1 (perform e c.2).self ++ (perform e c.2).new.toList
      log := s.log ++ [(c.1, c.2, (perform e c.2).answer)] }

/-- The object called meets `ok`. -/
def Fits (ok : E → C → Prop) (s : State E C A) (c : Nat × C) : Prop :=
  ∀ e, s.objects[c.1]? = some e → ok e c.2

variable {p : E → C → Outcome E A} {q : F → C → Outcome F A} {ok : E → C → Prop}
  {s s' : State E C A} {t t' : State F C A} {c : Nat × C} {cs : List (Nat × C)}

theorem step_eq_some_iff : step p s c = some s' ↔ ∃ e, s.objects[c.1]? = some e ∧ s' =
    { objects := s.objects.set c.1 (p e c.2).self ++ (p e c.2).new.toList
      log := s.log ++ [(c.1, c.2, (p e c.2).answer)] } := by
  unfold step
  rw [Option.map_eq_some_iff]
  simp only [eq_comm]

theorem log_step (h : step p s c = some s') : ∃ a, s'.log = s.log ++ [(c.1, c.2, a)] := by
  obtain ⟨e, -, rfl⟩ := step_eq_some_iff.1 h
  exact ⟨_, rfl⟩

theorem log_exec (h : Lts.exec (step p) s cs = some s') :
    ∃ l, s'.log = s.log ++ l ∧ l.length = cs.length := by
  induction cs generalizing s with
  | nil =>
    cases h
    exact ⟨[], by simp⟩
  | cons c cs ih =>
    obtain ⟨m, hm, hs⟩ := Option.bind_eq_some_iff.1 h
    obtain ⟨a, ha⟩ := log_step hm
    obtain ⟨l, hl, hlen⟩ := ih hs
    exact ⟨(c.1, c.2, a) :: l, by simp [hl, ha], by simp [hlen]⟩

/-- Logs that agree in the end agreed before the calls as well. -/
theorem log_eq_of_exec (hs : Lts.exec (step p) s cs = some s') (ht : Lts.exec (step q) t cs = some t')
    (hlog : s'.log = t'.log) : s.log = t.log := by
  obtain ⟨l, hl, hlen⟩ := log_exec hs
  obtain ⟨m, hm, hlen'⟩ := log_exec ht
  rw [hl, hm] at hlog
  exact (List.append_inj' hlog (hlen.trans hlen'.symm)).1

/-! ### Two components -/

/-- What a call does to two related objects: alike where it meets the condition, with another answer
where it does not. -/
structure Related (p : E → C → Outcome E A) (q : F → C → Outcome F A) (ok : E → C → Prop)
    (R : E → F → Prop) : Prop where
  self : ∀ e f c, R e f → ok e c → R (p e c).self (q f c).self
  new : ∀ e f c, R e f → ok e c → List.Forall₂ R (p e c).new.toList (q f c).new.toList
  answer : ∀ e f c, R e f → ((p e c).answer = (q f c).answer ↔ ok e c)
  /-- The second component never hands out less. -/
  more : ∀ e f c, (p e c).new.toList.length ≤ (q f c).new.toList.length

section
variable {R : E → F → Prop}

theorem forall₂_set {l : List E} {m : List F} (h : List.Forall₂ R l m) {e : E} {f : F} (hef : R e f)
    (i : Nat) : List.Forall₂ R (l.set i e) (m.set i f) := by
  induction h generalizing i with
  | nil => exact .nil
  | cons h ht ih =>
    cases i with
    | zero => exact .cons hef ht
    | succ i => exact .cons h (ih i)

theorem rel_of_getElem? {l : List E} {m : List F} (h : List.Forall₂ R l m) {i : Nat} {e : E} {f : F}
    (he : l[i]? = some e) (hf : m[i]? = some f) : R e f := by
  induction h generalizing i with
  | nil => simp at he
  | cons h _ ih =>
    cases i with
    | zero =>
      simp only [List.getElem?_cons_zero, Option.some.injEq] at he hf
      rwa [← he, ← hf]
    | succ i => exact ih he hf

variable (hr : Related p q ok R)
include hr

/-- A call that is enabled in the first component is enabled in the second. -/
theorem Related.step (hlen : s.objects.length ≤ t.objects.length) (hs : Objects.step p s c = some s') :
    ∃ t', Objects.step q t c = some t' ∧ s'.objects.length ≤ t'.objects.length := by
  obtain ⟨e, he, rfl⟩ := step_eq_some_iff.1 hs
  obtain ⟨hi, -⟩ := List.getElem?_eq_some_iff.1 he
  have hi' : c.1 < t.objects.length := by omega
  refine ⟨_, step_eq_some_iff.2 ⟨_, List.getElem?_eq_getElem hi', rfl⟩, ?_⟩
  have hmore := hr.more e t.objects[c.1] c.2
  simp only [List.length_append, List.length_set]
  omega

theorem Related.exec (hlen : s.objects.length ≤ t.objects.length)
    (hs : Lts.exec (Objects.step p) s cs = some s') : ∃ t', Lts.exec (Objects.step q) t cs = some t' := by
  induction cs generalizing s t with
  | nil => exact ⟨t, rfl⟩
  | cons c cs ih =>
    obtain ⟨m, hm, hs⟩ := Option.bind_eq_some_iff.1 hs
    obtain ⟨n, hn, hlen'⟩ := hr.step hlen hm
    rw [Lts.exec_cons hn]
    exact ih hlen' hs

theorem Related.objects (h : List.Forall₂ R s.objects t.objects) (hok : Fits ok s c)
    (hs : Objects.step p s c = some s') (ht : Objects.step q t c = some t') :
    List.Forall₂ R s'.objects t'.objects := by
  obtain ⟨e, he, rfl⟩ := step_eq_some_iff.1 hs
  obtain ⟨f, hf, rfl⟩ := step_eq_some_iff.1 ht
  have hef := rel_of_getElem? h he hf
  exact List.rel_append (forall₂_set h (hr.self e f c.2 hef (hok e he)) c.1) (hr.new e f c.2 hef (hok e he))

theorem Related.log_step_iff (h : List.Forall₂ R s.objects t.objects) (hlog : s.log = t.log)
    (hs : Objects.step p s c = some s') (ht : Objects.step q t c = some t') :
    s'.log = t'.log ↔ Fits ok s c := by
  obtain ⟨e, he, rfl⟩ := step_eq_some_iff.1 hs
  obtain ⟨f, hf, rfl⟩ := step_eq_some_iff.1 ht
  have hef := rel_of_getElem? h he hf
  have hanswer : s.log ++ [(c.1, c.2, (p e c.2).answer)] = t.log ++ [(c.1, c.2, (q f c.2).answer)] ↔
      (p e c.2).answer = (q f c.2).answer := by simp [hlog]
  rw [hanswer, hr.answer e f c.2 hef]
  constructor
  · intro hok e' he'
    rw [he, Option.some.injEq] at he'
    rwa [← he']
  · exact fun hok => hok e he

/-- Two runs of the same calls have the same answers just when every call meets the condition, and then
their objects are related in the end. -/
theorem Related.log_eq_iff (h : List.Forall₂ R s.objects t.objects) (hlog : s.log = t.log)
    (hs : Lts.exec (Objects.step p) s cs = some s') (ht : Lts.exec (Objects.step q) t cs = some t') :
    (s'.log = t'.log ↔ Lts.Meets (Objects.step p) (Fits ok) s cs) ∧
      (s'.log = t'.log → List.Forall₂ R s'.objects t'.objects) := by
  induction cs generalizing s t with
  | nil =>
    cases hs
    cases ht
    exact ⟨iff_of_true hlog trivial, fun _ => h⟩
  | cons c cs ih =>
    obtain ⟨m, hm, hs⟩ := Option.bind_eq_some_iff.1 hs
    obtain ⟨n, hn, ht⟩ := Option.bind_eq_some_iff.1 ht
    by_cases hok : Fits ok s c
    · obtain ⟨hiff, hobj⟩ := ih (hr.objects h hok hm hn) ((hr.log_step_iff h hlog hm hn).2 hok) hs ht
      refine ⟨hiff.trans ⟨fun hmeets => ⟨hok, fun m' hm' => ?_⟩, fun hmeets => hmeets.2 m hm⟩, hobj⟩
      rw [hm, Option.some.injEq] at hm'
      rwa [← hm']
    · have hne : s'.log ≠ t'.log := fun heq => hok ((hr.log_step_iff h hlog hm hn).1 (log_eq_of_exec hs ht heq))
      exact ⟨iff_of_false hne fun hmeets => hok hmeets.1, fun heq => absurd heq hne⟩

end

end Objects
