import NplBrowser.Lib.Run

/-!
# Programs over one shared cell, rewritten by truncating and storing

A `Prog V R` reads a cell of type `V` and rewrites it; a rewrite is not atomic, it first clears the
cell (a file truncated when it is opened for output) and stores the new value in a later step.
`Prog.exec` runs a program alone. `Prog.Sound` is the correctness of a program against an abstract
state: `abs v a` says that the cell value `v` stands for `a`, and `post a r a'` what a whole call
may do to `a`. Every rewrite but the last leaves the abstract state alone; the last one, or the
return of a program that does not rewrite, commits the call.

Any number of processes interleave their steps over one cell (`step`). A process is in its section
from the read that decided on a rewrite to the store. `Guard` keeps sections apart: no process
clears or stores while another one is in its section. A read is free, also of a cell that another
process has cleared; what such a read may do is to end a call that changes nothing. `Inv.run`: a guarded
run does to the abstract state what the completed calls, taken in the order of their completion, do
one after the other, and the cell stands for that state whenever it is not cleared.
-/

namespace Cell

/-- Programs over a cell of type `V` that return an `R`. -/
inductive Prog (V R : Type*)
  | ret (r : R)
  | read (k : V → Prog V R)
  | rewrite (v : V) (p : Prog V R)

namespace Prog

variable {V R S A : Type*}

def bind (p : Prog V R) (f : R → Prog V S) : Prog V S :=
  match p with
  | .ret r => f r
  | .read k => .read fun v => (k v).bind f
  | .rewrite v p => .rewrite v (p.bind f)

@[simp] theorem bind_ret (r : R) (f : R → Prog V S) : (ret r).bind f = f r := rfl
@[simp] theorem bind_read (k : V → Prog V R) (f : R → Prog V S) :
    (read k).bind f = read fun v => (k v).bind f := rfl
@[simp] theorem bind_rewrite (v : V) (p : Prog V R) (f : R → Prog V S) :
    (rewrite v p).bind f = rewrite v (p.bind f) := rfl

/-- Running alone: the cell afterwards and the result. -/
def exec : Prog V R → V → V × R
  | .ret r, v => (v, r)
  | .read k, v => (k v).exec v
  | .rewrite v p, _ => p.exec v

@[simp] theorem exec_ret (r : R) (v : V) : (ret r : Prog V R).exec v = (v, r) := rfl
@[simp] theorem exec_read (k : V → Prog V R) (v : V) : (read k).exec v = (k v).exec v := rfl
@[simp] theorem exec_rewrite (v w : V) (p : Prog V R) : (rewrite v p).exec w = p.exec v := rfl

/-- `p` is a correct rest of a call when the abstract state is `a`. -/
def Sound (abs : V → A → Prop) (post : A → R → A → Prop) : Prog V R → A → Prop
  | .ret r, a => post a r a
  | .read k, _ => ∀ v a, abs v a → (k v).Sound abs post a
  | .rewrite v p, a =>
    (abs v a ∧ p.Sound abs post a) ∨ ∃ r a', p = .ret r ∧ post a r a' ∧ abs v a'

variable {abs : V → A → Prop} {post : A → R → A → Prop}

/-- A sound program that runs alone keeps its promise. -/
theorem Sound.exec {p : Prog V R} {v : V} {a : A} (h : p.Sound abs post a) (hv : abs v a) :
    ∃ a', post a (p.exec v).2 a' ∧ abs (p.exec v).1 a' := by
  induction p generalizing v with
  | ret r => exact ⟨a, h, hv⟩
  | read k ih => exact ih v (h v a hv) hv
  | rewrite w p ih =>
    rcases h with ⟨hw, hp⟩ | ⟨r, a', rfl, hr, hw⟩
    · exact ih hp hw
    · exact ⟨a', hr, hw⟩

theorem Sound.mono {post' : A → R → A → Prop} (hpost : ∀ a r a', post a r a' → post' a r a')
    {p : Prog V R} {a : A} (h : p.Sound abs post a) : p.Sound abs post' a := by
  induction p generalizing a with
  | ret r => exact hpost _ _ _ h
  | read k ih => exact fun v a hv => ih v (h v a hv)
  | rewrite w p ih =>
    rcases h with ⟨hw, hp⟩ | ⟨r, a', rfl, hr, hw⟩
    · exact .inl ⟨hw, ih hp⟩
    · exact .inr ⟨r, a', rfl, hpost _ _ _ hr, hw⟩

/-- The result of a sound program is changed by `f`. -/
theorem Sound.map {post' : A → S → A → Prop} {f : R → S} {p : Prog V R} {a : A}
    (h : p.Sound abs post a) (hf : ∀ a r a', post a r a' → post' a (f r) a') :
    (p.bind fun r => ret (f r)).Sound abs post' a := by
  induction p generalizing a with
  | ret r => exact hf _ _ _ h
  | read k ih => exact fun v a hv => ih v (h v a hv)
  | rewrite w p ih =>
    rcases h with ⟨hw, hp⟩ | ⟨r, a', rfl, hr, hw⟩
    · exact .inl ⟨hw, ih hp⟩
    · exact .inr ⟨f r, a', rfl, hf _ _ _ hr, hw⟩

theorem sound_read_iff {k : V → Prog V R} {a : A} (b : A) :
    (read k).Sound abs post a ↔ (read k).Sound abs post b := Iff.rfl

end Prog

/-! ### Interleaving -/

/-- A process: its local state, the calls it has still to make and the rest of the call it is in;
`opened` says that it has cleared the cell for the rewrite `cur` starts with. -/
structure Proc (C V L O : Type*) where
  loc : L
  todo : List C
  cur : Option (C × Prog V (L × O)) := none
  opened : Bool := false

/-- The cell, the processes and the completed calls with their results, in order of completion. -/
structure Sys (ι C V L O : Type*) where
  cell : V
  procs : ι → Proc C V L O
  log : List (ι × C × O) := []

inductive Act (ι : Type*)
  | start (i : ι)
  | go (i : ι)

namespace Proc
variable {C V L O : Type*}

/-- The process has read the cell and is going to rewrite it. -/
def inSection (p : Proc C V L O) : Bool :=
  match p.cur with
  | some (_, .rewrite _ _) => true
  | _ => false

/-- No call is in progress and none is left. -/
def Idle (p : Proc C V L O) : Prop := p.cur = none ∧ p.todo = []

end Proc

section
variable {ι C V L O A : Type*} [DecidableEq ι]

def Sys.setProc (s : Sys ι C V L O) (i : ι) (q : Proc C V L O) : Sys ι C V L O :=
  { s with procs := Function.update s.procs i q }

@[simp] theorem Sys.setProc_self (s : Sys ι C V L O) (i : ι) (q : Proc C V L O) :
    (s.setProc i q).procs i = q := Function.update_self ..

theorem Sys.setProc_ne (s : Sys ι C V L O) {i j : ι} (q : Proc C V L O) (h : j ≠ i) :
    (s.setProc i q).procs j = s.procs j := Function.update_of_ne h ..

@[simp] theorem Sys.setProc_cell (s : Sys ι C V L O) (i : ι) (q : Proc C V L O) :
    (s.setProc i q).cell = s.cell := rfl

@[simp] theorem Sys.setProc_log (s : Sys ι C V L O) (i : ι) (q : Proc C V L O) :
    (s.setProc i q).log = s.log := rfl

/-- Process `i` (now `q`) goes on with the rest `p` of its call `c`; the call completes at once when
`p` returns. -/
def resume (s : Sys ι C V L O) (i : ι) (q : Proc C V L O) (c : C) :
    Prog V (L × O) → Sys ι C V L O
  | .ret (l, o) =>
    { s.setProc i { q with loc := l, cur := none, opened := false } with log := s.log ++ [(i, c, o)] }
  | p => s.setProc i { q with cur := some (c, p), opened := false }

/-- One step: a process starts its next call, or takes the next cell step of the call it is in. -/
def step (cleared : V) (prog : ι → L → C → Prog V (L × O)) (s : Sys ι C V L O) :
    Act ι → Option (Sys ι C V L O)
  | .start i =>
    match (s.procs i).cur, (s.procs i).todo with
    | none, c :: cs => some (resume s i { s.procs i with todo := cs } c (prog i (s.procs i).loc c))
    | _, _ => none
  | .go i =>
    match (s.procs i).cur with
    | some (c, .read k) => some (resume s i (s.procs i) c (k s.cell))
    | some (c, .rewrite v p) =>
      if (s.procs i).opened then some (resume { s with cell := v } i (s.procs i) c p)
      else some ({ s with cell := cleared }.setProc i { s.procs i with opened := true })
    | _ => none

/-- Sections do not overlap. -/
def Guard (s : Sys ι C V L O) : Act ι → Prop
  | .start _ => True
  | .go i =>
    match (s.procs i).cur with
    | some (_, .rewrite _ _) => ∀ j, j ≠ i → (s.procs j).inSection = false
    | _ => True

/-- Nobody has the cell cleared. -/
def Sys.Closed (s : Sys ι C V L O) : Prop := ∀ i, (s.procs i).opened = false

/-- Another process has it cleared. -/
def Blocked (procs : ι → Proc C V L O) (i : ι) : Prop := ∃ j, j ≠ i ∧ (procs j).opened = true

omit [DecidableEq ι] in
theorem guard_of_apart {s : Sys ι C V L O} {i : ι} (h : ∀ j, j ≠ i → (s.procs j).inSection = false) :
    Guard s (.go i) := by
  simp only [Guard]
  split
  · exact h
  · trivial

/-- The calls of `log` take the abstract state from `a` to `b` one after the other. -/
def Replay (post : ι → C → A → O → A → Prop) : A → List (ι × C × O) → A → Prop
  | a, [], b => a = b
  | a, (i, c, o) :: log, b => ∃ a', post i c a o a' ∧ Replay post a' log b

omit [DecidableEq ι] in
theorem Replay.snoc {post : ι → C → A → O → A → Prop} {a b b' : A} {log : List (ι × C × O)} {i : ι}
    {c : C} {o : O} (h : Replay post a log b) (hp : post i c b o b') :
    Replay post a (log ++ [(i, c, o)]) b' := by
  induction log generalizing a with
  | nil => cases h; exact ⟨b', hp, rfl⟩
  | cons e log ih =>
    obtain ⟨a', h₁, h₂⟩ := h
    exact ⟨a', h₁, ih h₂⟩

/-- A process whose call in progress is on its course. -/
structure Proc.Ok (course : C → Prog V (L × O) → Prop) (locOk : L → Prop) (callOk : C → Prop)
    (q : Proc C V L O) : Prop where
  cur : ∀ c p, q.cur = some (c, p) → course c p
  busy : ∀ c r, q.cur ≠ some (c, .ret r)
  sect : q.opened = true → q.inSection = true
  loc : locOk q.loc
  todo : ∀ c ∈ q.todo, callOk c

omit [DecidableEq ι] in
theorem Proc.Ok.closed {course : C → Prog V (L × O) → Prop} {locOk : L → Prop} {callOk : C → Prop}
    {q : Proc C V L O} (h : q.Ok course locOk callOk) (hq : q.inSection = false) : q.opened = false := by
  by_contra hne
  rw [h.sect (by simpa using hne)] at hq
  cases hq

/-- What the processes, a call of each of them and the two abstract states are to satisfy. -/
structure Spec (ι C V L O A : Type*) where
  abs : V → A → Prop
  post : ι → C → A → O → A → Prop
  locOk : ι → L → Prop
  callOk : ι → C → Prop

namespace Spec

/-- The rest `p` of a call `c` of process `i` is correct from the abstract state `a`. -/
def Course (P : Spec ι C V L O A) (i : ι) (c : C) (p : Prog V (L × O)) (a : A) : Prop :=
  p.Sound P.abs (fun a r a' => P.locOk i r.1 ∧ P.post i c a r.2 a') a

/-- What a guarded run keeps: `a` is the abstract state after the completed calls behind `old`, the cell
stands for it unless it is cleared, and every call in progress is on course from it, but for the calls that
have read a cleared cell: these will not get to their own store. -/
structure Inv (P : Spec ι C V L O A) (cleared : V) (old : List (ι × C × O)) (a₀ : A) (s : Sys ι C V L O) (a : A) :
    Prop where
  replay : ∃ new, s.log = old ++ new ∧ Replay P.post a₀ new a
  cell : s.Closed → P.abs s.cell a
  cleared : ∀ i, (s.procs i).opened = true → s.cell = cleared
  procs : ∀ i, (s.procs i).Ok (fun c p => P.Course i c p a ∨ (s.procs i).inSection = true ∧ Blocked s.procs i)
    (P.locOk i) (P.callOk i)

variable {P : Spec ι C V L O A} {cleared : V} {old : List (ι × C × O)} {a₀ a b : A} {s s' : Sys ι C V L O} {i : ι}
  {q : Proc C V L O} {c : C} {p : Prog V (L × O)} {v : V}

namespace Inv

/-- Process `i` becomes `q`. The other calls stay on course if the abstract state stays what it is and
nobody gets unblocked, or if none of them is in its section. -/
theorem update (h : P.Inv cleared old a₀ s a) {log : List (ι × C × O)}
    (hlog : ∃ new, log = old ++ new ∧ Replay P.post a₀ new b)
    (hq : q.Ok (fun c p => P.Course i c p b ∨ q.inSection = true ∧ Blocked s.procs i) (P.locOk i) (P.callOk i))
    (hkeep : a = b ∧ ((s.procs i).opened = true → q.opened = true) ∨ ∀ j, j ≠ i → (s.procs j).inSection = false)
    (hcell : q.opened = false → ¬ Blocked s.procs i → P.abs v b)
    (hcleared : q.opened = true ∨ Blocked s.procs i → v = cleared) :
    P.Inv cleared old a₀ { s.setProc i q with cell := v, log } b := by
  have hne : ∀ {j}, j ≠ i → (s.setProc i q).procs j = s.procs j := fun hj => s.setProc_ne q hj
  refine ⟨hlog, fun hclosed => hcell ?_ ?_, fun j hj => hcleared ?_, fun j => ?_⟩
  · simpa using hclosed i
  · rintro ⟨j, hj, hopened⟩
    have := hclosed j
    rw [show ({ s.setProc i q with cell := v, log } : Sys ι C V L O).procs j = s.procs j from hne hj] at this
    rw [hopened] at this
    cases this
  · by_cases hij : j = i
    · subst hij
      exact .inl (by simpa using hj)
    · exact .inr ⟨j, hij, by rwa [← hne hij]⟩
  · show ((s.setProc i q).procs j).Ok _ _ _
    by_cases hij : j = i
    · subst hij
      rw [Sys.setProc_self]
      refine { hq with cur := fun d p hd => (hq.cur d p hd).imp_right fun hs => ⟨by simpa using hs.1, ?_⟩ }
      obtain ⟨k, hk, hopened⟩ := hs.2
      exact ⟨k, hk, (congrArg Proc.opened (hne hk)).trans hopened⟩
    · have hj := h.procs j
      rw [hne hij]
      refine { hj with cur := fun d p hd => ?_ }
      rcases hkeep with ⟨rfl, hopened⟩ | hsec
      · refine (hj.cur d p hd).imp_right fun hs => ⟨hs.1, ?_⟩
        obtain ⟨k, hk, hko⟩ := hs.2
        refine ⟨k, hk, ?_⟩
        by_cases hki : k = i
        · subst hki
          simpa using hopened hko
        · exact (congrArg Proc.opened (hne hki)).trans hko
      · -- a call that is going to read does not depend on the abstract state
        cases p with
        | ret r => exact absurd hd (hj.busy d r)
        | rewrite w p =>
          have := hsec j hij
          simp [Proc.inSection, hd] at this
        | read k =>
          rcases hj.cur d _ hd with hcourse | hs
          · exact .inl ((Prog.sound_read_iff a).1 hcourse)
          · have := hs.1
            rw [hsec j hij] at this
            cases this

omit [DecidableEq ι] in
theorem snoc (h : P.Inv cleared old a₀ s a) {o : O} (hpost : P.post i c a o b) :
    ∃ new, s.log ++ [(i, c, o)] = old ++ new ∧ Replay P.post a₀ new b := by
  obtain ⟨new, hlog, hreplay⟩ := h.replay
  exact ⟨new ++ [(i, c, o)], by rw [hlog, List.append_assoc], hreplay.snoc hpost⟩

/-- A call that goes on to `p`, the abstract state staying what it is. -/
theorem resume (h : P.Inv cleared old a₀ s a) (hq : P.locOk i q.loc) (htodo : ∀ c ∈ q.todo, P.callOk i c)
    (hp : P.Course i c p a ∨ (∃ w p', p = .rewrite w p') ∧ Blocked s.procs i)
    (hkeep : (s.procs i).opened = false ∨ ∀ j, j ≠ i → (s.procs j).inSection = false)
    (hcell : ¬ Blocked s.procs i → P.abs v a) (hcleared : Blocked s.procs i → v = cleared) :
    P.Inv cleared old a₀ (Cell.resume { s with cell := v } i q c p) a := by
  have hkeep : a = a ∧ ((s.procs i).opened = true → false = true) ∨ ∀ j, j ≠ i → (s.procs j).inSection = false :=
    hkeep.imp_left fun hi => ⟨rfl, fun ho => by rw [hi] at ho; exact ho⟩
  -- a call that has not returned
  have go : (∀ r, p ≠ .ret r) → P.Inv cleared old a₀
      { s.setProc i { q with cur := some (c, p), opened := false } with cell := v, log := s.log } a := by
    intro hret
    refine h.update h.replay ⟨fun d p' hd => ?_, fun d r hd => ?_, by simp, hq, htodo⟩ hkeep (fun _ => hcell)
      fun hor => hcleared (hor.resolve_left (by simp))
    · obtain ⟨rfl, rfl⟩ := Prod.mk.inj (Option.some.inj hd)
      refine hp.imp_right fun ⟨⟨w, p', hw⟩, hblocked⟩ => ⟨?_, hblocked⟩
      rw [hw]
      rfl
    · exact hret r (Prod.mk.inj (Option.some.inj hd)).2
  cases p with
  | ret r =>
    obtain ⟨hl, hpost⟩ := hp.resolve_right fun hw => by obtain ⟨⟨w, p', hw⟩, -⟩ := hw; cases hw
    refine h.update (h.snoc hpost) ⟨fun d p' hd => ?_, fun d r hd => ?_, by simp, hl, htodo⟩ hkeep (fun _ => hcell)
      fun hor => hcleared (hor.resolve_left (by simp))
    · cases hd
    · cases hd
  | read k => exact go (by simp)
  | rewrite w p => exact go (by simp)

/-- The store that completes a call. -/
theorem commit (h : P.Inv cleared old a₀ s a) {l : L} {o : O} (hl : P.locOk i l)
    (hsec : ∀ j, j ≠ i → (s.procs j).inSection = false) (hpost : P.post i c a o b) (hv : P.abs v b) :
    P.Inv cleared old a₀ (Cell.resume { s with cell := v } i (s.procs i) c (.ret (l, o))) b := by
  refine h.update (h.snoc hpost) ⟨fun d p' hd => ?_, fun d r hd => ?_, by simp, hl, (h.procs i).todo⟩ (.inr hsec)
    (fun _ _ => hv) fun hor => ?_
  · cases hd
  · cases hd
  · obtain ⟨j, hj, hopened⟩ := hor.resolve_left (by simp)
    rw [(h.procs j).closed (hsec j hj)] at hopened
    cases hopened

omit [DecidableEq ι] in
theorem not_blocked (h : P.Inv cleared old a₀ s a) (hsec : ∀ j, j ≠ i → (s.procs j).inSection = false) :
    ¬ Blocked s.procs i := by
  rintro ⟨j, hj, hopened⟩
  rw [(h.procs j).closed (hsec j hj)] at hopened
  cases hopened

/-- Clearing the cell. -/
theorem clear (h : P.Inv cleared old a₀ s a) (hi : (s.procs i).inSection = true)
    (hsec : ∀ j, j ≠ i → (s.procs j).inSection = false) :
    P.Inv cleared old a₀ ({ s with cell := cleared }.setProc i { s.procs i with opened := true }) a := by
  have hok := h.procs i
  exact h.update h.replay ⟨hok.cur, hok.busy, fun _ => hi, hok.loc, hok.todo⟩ (.inr hsec) (by simp) fun _ => rfl

/-- The cell is what the run has made of it, or cleared. -/
theorem cell_of_read (h : P.Inv cleared old a₀ s a) (hi : (s.procs i).inSection = false) :
    ¬ Blocked s.procs i → P.abs s.cell a := by
  intro hblocked
  refine h.cell fun j => ?_
  by_cases hij : j = i
  · subst hij
    exact (h.procs j).closed hi
  · by_contra hopened
    exact hblocked ⟨j, hij, by simpa using hopened⟩

omit [DecidableEq ι] in
theorem cleared_of_blocked (h : P.Inv cleared old a₀ s a) : Blocked s.procs i → s.cell = cleared :=
  fun ⟨j, _, hopened⟩ => h.cleared j hopened

end Inv

/-- The calls are correct, each begins with a read, and one that has changed nothing where the cell is cleared
may have done so anywhere. -/
structure Programs (P : Spec ι C V L O A) (cleared : V) (prog : ι → L → C → Prog V (L × O)) : Prop where
  reads : ∀ i l c, ∃ k, prog i l c = .read k
  course : ∀ i l c a, P.locOk i l → P.callOk i c → P.Course i c (prog i l c) a
  blank : ∃ b, P.abs cleared b ∧ ∀ i c o a, P.post i c b o b → P.post i c a o a

variable {prog : ι → L → C → Prog V (L × O)}

omit [DecidableEq ι] in
/-- What a call goes on to that has read a cleared cell. -/
theorem Programs.course_cleared (hprog : P.Programs cleared prog) {k : V → Prog V (L × O)}
    (h : P.Course i c (.read k) a) :
    P.Course i c (k cleared) a ∨ ∃ w p', k cleared = .rewrite w p' := by
  obtain ⟨b, hb, hpost⟩ := hprog.blank
  have hk : P.Course i c (k cleared) b := h cleared b hb
  cases hkc : k cleared with
  | ret r =>
    rw [hkc] at hk
    exact .inl ⟨hk.1, hpost i c r.2 a hk.2⟩
  | read k' =>
    rw [hkc] at hk
    exact .inl ((Prog.sound_read_iff a).1 hk)
  | rewrite w p' => exact .inr ⟨w, p', rfl⟩

theorem Inv.step (hprog : P.Programs cleared prog) {e : Act ι} (h : P.Inv cleared old a₀ s a) (hg : Guard s e)
    (hs : Cell.step cleared prog s e = some s') : ∃ a', P.Inv cleared old a₀ s' a' := by
  cases e with
  | start i =>
    simp only [Cell.step] at hs
    split at hs
    · rename_i c cs hcur htodo
      cases hs
      have hsec : (s.procs i).inSection = false := by simp [Proc.inSection, hcur]
      have htodo' := (h.procs i).todo
      rw [htodo, List.forall_mem_cons] at htodo'
      exact ⟨a, h.resume (v := s.cell) (q := { s.procs i with todo := cs }) (h.procs i).loc htodo'.2
        (.inl (hprog.course i _ c a (h.procs i).loc htodo'.1)) (.inl ((h.procs i).closed hsec)) (h.cell_of_read hsec)
        h.cleared_of_blocked⟩
    · cases hs
  | go i =>
    simp only [Cell.step] at hs
    simp only [Guard] at hg
    split at hs
    · rename_i c k hcur
      cases hs
      have hsec : (s.procs i).inSection = false := by simp [Proc.inSection, hcur]
      have hcourse : P.Course i c (.read k) a :=
        ((h.procs i).cur c _ hcur).resolve_right fun hs => by rw [hsec] at hs; cases hs.1
      refine ⟨a, h.resume (v := s.cell) (h.procs i).loc (h.procs i).todo ?_ (.inl ((h.procs i).closed hsec))
        (h.cell_of_read hsec) h.cleared_of_blocked⟩
      by_cases hblocked : Blocked s.procs i
      · rw [h.cleared_of_blocked hblocked]
        exact (hprog.course_cleared hcourse).imp_right fun hw => ⟨hw, hblocked⟩
      · exact .inl (hcourse s.cell a (h.cell_of_read hsec hblocked))
    · rename_i c v p hcur
      rw [hcur] at hg
      have hcourse : P.Course i c (.rewrite v p) a :=
        ((h.procs i).cur c _ hcur).resolve_right fun hs => h.not_blocked hg hs.2
      split at hs
      · -- the store: a rewrite in the middle of the call, or the one that commits it
        cases hs
        rcases hcourse with ⟨hv, hp⟩ | ⟨⟨l, o⟩, b, rfl, ⟨hl, hpost⟩, hv⟩
        · exact ⟨a, h.resume (h.procs i).loc (h.procs i).todo (.inl hp) (.inr hg) (fun _ => hv)
            fun hblocked => absurd hblocked (h.not_blocked hg)⟩
        · exact ⟨b, h.commit hl hg hpost hv⟩
      · cases hs
        exact ⟨a, h.clear (by simp [Proc.inSection, hcur]) hg⟩
    · cases hs

theorem Inv.run (hprog : P.Programs cleared prog) {as : List (Act ι)} (h : ∃ a, P.Inv cleared old a₀ s a)
    (hrun : Lts.Run (Cell.step cleared prog) Guard s as s') : ∃ a, P.Inv cleared old a₀ s' a :=
  hrun.inv (I := fun s => ∃ a, P.Inv cleared old a₀ s a) (fun _ _ _ ⟨_, h⟩ hg hs => h.step hprog hg hs) h

omit [DecidableEq ι] in
theorem Inv.init {v₀ : V} {procs : ι → Proc C V L O} (hv : P.abs v₀ a₀) (hidle : ∀ i, (procs i).cur = none)
    (hopened : ∀ i, (procs i).opened = false) (hloc : ∀ i, P.locOk i (procs i).loc)
    (htodo : ∀ i, ∀ c ∈ (procs i).todo, P.callOk i c) : P.Inv cleared [] a₀ { cell := v₀, procs } a₀ where
  replay := ⟨[], rfl, rfl⟩
  cell _ := hv
  cleared i hi := by simp [hopened i] at hi
  procs i := ⟨fun c p hi => by simp [hidle i] at hi, fun c r hi => by simp [hidle i] at hi,
    fun hi => by simp [hopened i] at hi, hloc i, htodo i⟩

omit [DecidableEq ι] in
/-- From here on. -/
theorem Inv.restart (h : P.Inv cleared old a₀ s a) : P.Inv cleared s.log a s a :=
  { h with replay := ⟨[], by simp, rfl⟩ }

omit [DecidableEq ι] in
theorem Inv.closed_of_idle (h : P.Inv cleared old a₀ s a) (hidle : ∀ i, (s.procs i).Idle) : s.Closed :=
  fun i => (h.procs i).closed (by simp [Proc.inSection, (hidle i).1])

end Spec

end

end Cell
