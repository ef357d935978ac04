import NplBrowser.ConfigUse

/-!
# One config file, several processes

Every process has its own `CefClientConfig` on the same file, and no call takes a lock: `ReadRoot`
reads the whole file in one step, `WriteRoot` truncates it in one step and writes it in the next. In
between another process may read, truncate or write. Runs in which it does lose entries
(`sharedFile_counterexample`). In the runs in which no process truncates or writes the file between
another one's read and the store that follows from it (`Cell.Guard`) the calls take effect one after
the other in the order of their completion: the flags in the file are those of the last calls, and no
call touches an entry that it does not name (`sharedFile_flags`). A process may read while the file is
truncated: a `ReadJsonValue` returns its default then, an `EraseJsonValue` throws, and neither writes.
-/

namespace NplBrowser

variable {ι : Type*} [DecidableEq ι]

abbrev SharedSys (ι : Type*) :=
  Cell.Sys ι Call File CefClientConfig (Except JsonError (Option Bool))

/-- A file that has just been opened for output. -/
def truncated : File := some (.broken none nofun)

/-- No file yet; each process has its pid and the calls it is going to make. -/
def sharedFile (filename : Bytes) (pid : ι → Bytes) (todo : ι → List Call) : SharedSys ι where
  cell := none
  procs i := { loc := { mFileName := filename, mPid := pid i }, todo := todo i }

def sharedStep : SharedSys ι → Cell.Act ι → Option (SharedSys ι) :=
  Cell.step truncated fun _ c call => call.run c

/-- `WriteJsonValue`, `ReadJsonValue` and `EraseJsonValue`, of keys the file can take. -/
def Call.Shared : Call → Prop
  | .write key _ => utf8 key = true
  | .read _ _ | .erase _ => True
  | .clear => False

/-- The completed call is `call` by a process of the pid `p`, and it returned. -/
def Did (pid : ι → Bytes) (p : Bytes) (call : Call) (e : ι × Call × Except JsonError (Option Bool)) :
    Prop :=
  pid e.1 = p ∧ e.2.1 = call ∧ e.2.2 = .ok none

/-- Some process of the pid has given the flag the value and none has completed one of the calls in
`undo` since. -/
def LastSet (pid : ι → Bytes) (p key : Bytes) (v : Bool) (undo : List Call)
    (log : List (ι × Call × Except JsonError (Option Bool))) : Prop :=
  ∃ l₁ e l₂, log = l₁ ++ e :: l₂ ∧ Did pid p (.write key v) e ∧
    ∀ e' ∈ l₂, ∀ call ∈ undo, ¬ Did pid p call e'

/-- The completed call is one that gives this flag a value or takes it away. -/
def Touches (pid : ι → Bytes) (p key : Bytes) (e : ι × Call × Except JsonError (Option Bool)) : Prop :=
  Did pid p (.erase key) e ∨ ∃ v, Did pid p (.write key v) e

omit [DecidableEq ι] in
theorem lastSet_cons {pid : ι → Bytes} {p key : Bytes} {v : Bool} {undo : List Call}
    {e : ι × Call × Except JsonError (Option Bool)}
    {log : List (ι × Call × Except JsonError (Option Bool))} :
    LastSet pid p key v undo (e :: log) ↔
      (Did pid p (.write key v) e ∧ ∀ e' ∈ log, ∀ call ∈ undo, ¬ Did pid p call e') ∨
        LastSet pid p key v undo log := by
  constructor
  · rintro ⟨l₁, e', l₂, hlog, hset, hundo⟩
    cases l₁ with
    | nil => cases hlog; exact .inl ⟨hset, hundo⟩
    | cons d l₁ => cases hlog; exact .inr ⟨l₁, e', l₂, rfl, hset, hundo⟩
  · rintro (⟨hset, hundo⟩ | ⟨l₁, e', l₂, rfl, hset, hundo⟩)
    · exact ⟨[], e, log, rfl, hset, hundo⟩
    · exact ⟨e :: l₁, e', l₂, rfl, hset, hundo⟩

/-- What a completed call of process `i` has done to the store. What it returns is left open for a
read, and an erase may throw without having changed anything: both may have found the file
truncated. -/
def SharedPost (pid : ι → Bytes) (i : ι) (call : Call) (a : Store)
    (r : Except JsonError (Option Bool)) (a' : Store) : Prop :=
  match call with
  | .write key v => r = .ok none ∧ a' = a.write (pid i) key v
  | .read _ _ => (∃ b, r = .ok (some b)) ∧ a' = a
  | .erase key => r = .ok none ∧ (a (pid i)).isSome = true ∧ a' = a.erase (pid i) key ∨
      (∃ e, r = .error e) ∧ a' = a
  | .clear => False

omit [DecidableEq ι] in
/-- What one completed call does to a flag. -/
theorem value_post {pid : ι → Bytes} {i : ι} {call : Call} {a a' : Store}
    {r : Except JsonError (Option Bool)} (h : SharedPost pid i call a r a') (p key : Bytes) (v : Bool) :
    a'.value p key = some v ↔ Did pid p (.write key v) (i, call, r) ∨
      (a.value p key = some v ∧ ¬ Did pid p (.erase key) (i, call, r) ∧
        ¬ Did pid p (.write key !v) (i, call, r)) := by
  cases call with
  | write k w =>
    obtain ⟨rfl, rfl⟩ := h
    rw [Store.value_write]
    by_cases hx : p = pid i ∧ key = k
    · obtain ⟨rfl, rfl⟩ := hx
      cases w <;> cases v <;> simp [Did]
    · rw [if_neg hx]
      have hno : ∀ w', ¬ Did pid p (.write key w') (i, .write k w, .ok none) := by
        rintro w' ⟨hp, hw, -⟩
        cases hw; exact hx ⟨hp.symm, rfl⟩
      have hne : ¬ Did pid p (.erase key) (i, .write k w, .ok none) := by
        rintro ⟨-, hw, -⟩; cases hw
      simp [hno, hne]
  | read k w =>
    obtain ⟨⟨b, rfl⟩, rfl⟩ := h
    simp [Did]
  | erase k =>
    rcases h with ⟨rfl, -, rfl⟩ | ⟨⟨e, rfl⟩, rfl⟩
    · rw [Store.value_erase]
      by_cases hx : p = pid i ∧ key = k
      · obtain ⟨rfl, rfl⟩ := hx
        simp [Did]
      · rw [if_neg hx]
        have hne : ¬ Did pid p (.erase key) (i, .erase k, .ok none) := by
          rintro ⟨hp, hw, -⟩
          cases hw; exact hx ⟨hp.symm, rfl⟩
        have hno : ∀ w, ¬ Did pid p (.write key w) (i, .erase k, .ok none) := by
          rintro w ⟨-, hw, -⟩; cases hw
        simp [hno, hne]
    · simp [Did]
  | clear => cases h

omit [DecidableEq ι] in
/-- The flags after calls that took effect one after the other. -/
theorem value_replay {pid : ι → Bytes} {p key : Bytes} {v : Bool} {a b : Store}
    {log : List (ι × Call × Except JsonError (Option Bool))}
    (h : Cell.Replay (SharedPost pid) a log b) :
    b.value p key = some v ↔ (a.value p key = some v ∧
        ∀ e ∈ log, ∀ call ∈ [.erase key, .write key !v], ¬ Did pid p call e) ∨
      LastSet pid p key v [.erase key, .write key !v] log := by
  induction log generalizing a with
  | nil =>
    cases h
    simp [LastSet]
  | cons e log ih =>
    obtain ⟨i, call, r⟩ := e
    obtain ⟨a', hstep, hrest⟩ := h
    rw [ih hrest, lastSet_cons, value_post hstep]
    simp only [List.forall_mem_cons, List.not_mem_nil, false_implies, implies_true, and_true]
    tauto

omit [DecidableEq ι] in
/-- A flag that no call has touched. -/
theorem value_untouched {pid : ι → Bytes} {p key : Bytes} {a b : Store}
    {log : List (ι × Call × Except JsonError (Option Bool))}
    (h : Cell.Replay (SharedPost pid) a log b) (hlog : ∀ e ∈ log, ¬ Touches pid p key e) :
    b.value p key = a.value p key := by
  refine Option.ext fun v => (value_replay h).trans ?_
  constructor
  · rintro (⟨ha, -⟩ | ⟨l₁, e, l₂, rfl, hset, -⟩)
    · exact ha
    · exact absurd (.inr ⟨v, hset⟩) (hlog e (by simp))
  · intro ha
    refine .inl ⟨ha, fun e he call hcall hdid => hlog e he ?_⟩
    simp only [List.mem_cons, List.not_mem_nil, or_false] at hcall
    rcases hcall with rfl | rfl
    · exact .inl hdid
    · exact .inr ⟨_, hdid⟩

omit [DecidableEq ι] in
theorem Call.reads (call : Call) (c : CefClientConfig) : ∃ k, call.run c = .read k := by
  cases call <;> exact ⟨_, rfl⟩

omit [DecidableEq ι] in
theorem sharedPost_of_spec {pid : ι → Bytes} {i : ι} {call : Call} (hcall : call.Shared) {a a' : Store}
    {r : Except JsonError (Option Bool)} (h : (r, a') = call.spec (pid i) a) : SharedPost pid i call a r a' := by
  cases call with
  | write k v => exact Prod.mk.inj h
  | read k v =>
    obtain ⟨rfl, rfl⟩ := Prod.mk.inj h
    exact ⟨⟨_, rfl⟩, rfl⟩
  | erase k =>
    simp only [Call.spec] at h
    split at h
    · obtain ⟨rfl, rfl⟩ := Prod.mk.inj h
      exact .inl ⟨rfl, ‹_›, rfl⟩
    · obtain ⟨rfl, rfl⟩ := Prod.mk.inj h
      exact .inr ⟨⟨_, rfl⟩, rfl⟩
  | clear => cases hcall

/-- The calls of the processes that share the file. -/
def sharedSpec (pid : ι → Bytes) : Cell.Spec ι Call File CefClientConfig (Except JsonError (Option Bool)) Store where
  abs := FileSays
  post := SharedPost pid
  locOk i c := c.mPid = pid i ∧ c.mRoot.isMap = true
  callOk _ call := call.Shared

omit [DecidableEq ι] in
theorem sharedSpec_programs {pid : ι → Bytes} (hpid : ∀ i, utf8 (pid i) = true) :
    (sharedSpec pid).Programs truncated fun _ c call => call.run c where
  reads _ c call := call.reads c
  course i c call a hc hcall := by
    have hw : call.Writable c.mPid := by
      rw [hc.1]
      cases call with
      | write key v => exact ⟨hpid i, hcall⟩
      | _ => trivial
    refine (Call.sound hc.2 hw a).mono fun a r a' h => ⟨⟨?_, h.1.2.2⟩, sharedPost_of_spec hcall ?_⟩
    · rw [h.1.2.1, hc.1]
    · rw [h.2, hc.1]
  blank := by
    refine ⟨.empty, ⟨rfl, rfl⟩, fun i call r a h => ?_⟩
    cases call with
    | write key v =>
      -- a write would show in the store
      have hvalue : Store.empty.value (pid i) key = (Store.empty.write (pid i) key v).value (pid i) key :=
        congrArg (fun b : Store => b.value (pid i) key) h.2
      rw [Store.value_write, if_pos ⟨rfl, rfl⟩] at hvalue
      cases hvalue
    | read key v => exact ⟨h.1, rfl⟩
    | erase key =>
      rcases h with ⟨-, hsome, -⟩ | ⟨he, -⟩
      · cases hsome
      · exact .inr ⟨he, rfl⟩
    | clear => cases h

omit [DecidableEq ι] in
theorem sharedFile_inv (filename : Bytes) {pid : ι → Bytes} {todo : ι → List Call}
    (hcalls : ∀ i, ∀ call ∈ todo i, call.Shared) :
    (sharedSpec pid).Inv truncated [] .empty (sharedFile filename pid todo) .empty :=
  .init ⟨trivial, rfl⟩ (fun _ => rfl) (fun _ => rfl) (fun _ => ⟨rfl, rfl⟩) hcalls

/-- As long as no process truncates or writes the file between another one's read and the store that
follows from it: once all calls have finished, and whenever nobody has the file truncated, each flag is
what the last completed call about it has made of it; and between two such moments no flag changes but
by completed calls of its own pid and key. -/
theorem sharedFile_flags {filename : Bytes} {pid : ι → Bytes} (hpid : ∀ i, utf8 (pid i) = true)
    {todo : ι → List Call} (hcalls : ∀ i, ∀ call ∈ todo i, call.Shared) {as bs : List (Cell.Act ι)}
    {m s : SharedSys ι} (hm : Lts.Run sharedStep Cell.Guard (sharedFile filename pid todo) as m)
    (hs : Lts.Run sharedStep Cell.Guard m bs s) :
    ((∀ i, (s.procs i).Idle) → s.Closed) ∧
    (s.Closed → ∀ p key v, s.cell.store.value p key = some v ↔
      LastSet pid p key v [.erase key, .write key !v] s.log) ∧
    (m.Closed → s.Closed → ∀ p key, (∀ e ∈ s.log.drop m.log.length, ¬ Touches pid p key e) →
      s.cell.store.value p key = m.cell.store.value p key) := by
  have hprog := sharedSpec_programs hpid
  obtain ⟨a, ha⟩ := Cell.Spec.Inv.run hprog ⟨_, sharedFile_inv filename hcalls⟩ hm
  obtain ⟨b, hb⟩ := Cell.Spec.Inv.run hprog ⟨a, ha⟩ hs
  obtain ⟨b', hb'⟩ := Cell.Spec.Inv.run hprog ⟨a, ha.restart⟩ hs
  refine ⟨hb.closed_of_idle, fun hclosed p key v => ?_, fun hmclosed hclosed p key hlog => ?_⟩
  · obtain ⟨new, hnew, hreplay⟩ := hb.replay
    rw [(hb.cell hclosed).2, value_replay hreplay, hnew, List.nil_append]
    simp [Store.value, Store.config, Store.empty]
  · obtain ⟨new, hnew, hreplay⟩ := hb'.replay
    rw [hnew, List.drop_left] at hlog
    rw [(hb'.cell hclosed).2, (ha.cell hmclosed).2]
    exact value_untouched hreplay hlog

/-- The pids of two processes, and what they call. -/
def twoPids (b : Bool) : Bytes := if b then lit "2" else lit "1"

def twoTodo (b : Bool) : List Call :=
  if b then [.write (lit "b") true, .erase (lit "b")] else [.write (lit "a") true, .read (lit "a") false]

/-- One process writes its flag; it reads, in vain, while the other one has the file truncated; and the
other one takes its own flag away again. -/
theorem sharedFile_flags_two : ∃ m s as bs,
    Lts.Run sharedStep Cell.Guard (sharedFile (lit "c.json") twoPids twoTodo) as m ∧
    Lts.Run sharedStep Cell.Guard m bs s ∧ (∀ i, (s.procs i).Idle) ∧
    s.log.drop m.log.length = [(false, .read (lit "a") false, .ok (some false)), (true, .write (lit "b") true, .ok none),
      (true, .erase (lit "b"), .ok none)] ∧
    s.cell.store.value (lit "1") (lit "a") = some true ∧
    s.cell.store.value (lit "1") (lit "a") = m.cell.store.value (lit "1") (lit "a") ∧
    ∀ v, s.cell.store.value (lit "2") (lit "b") ≠ some v := by
  have hgo : ∀ {s : SharedSys Bool} {i : Bool}, (s.procs !i).inSection = false → Cell.Guard s (.go i) :=
    fun {s i} h => Cell.guard_of_apart fun j hj => by
      cases i <;> cases j <;> first | exact absurd rfl hj | exact h
  have hstart : ∀ {s : SharedSys Bool} {i : Bool}, Cell.Guard s (.start i) := trivial
  obtain ⟨m, as, hm, s, bs, hs, hdone, hmclosed, hlog, hdrop⟩ : ∃ m as,
      Lts.Run sharedStep Cell.Guard (sharedFile (lit "c.json") twoPids twoTodo) as m ∧ ∃ s bs,
      Lts.Run sharedStep Cell.Guard m bs s ∧ (∀ i, (s.procs i).Idle) ∧ m.Closed ∧
      s.log = [(false, .write (lit "a") true, .ok none), (false, .read (lit "a") false, .ok (some false)),
        (true, .write (lit "b") true, .ok none), (true, .erase (lit "b"), .ok none)] ∧ m.log.length = 1 := by
    refine ⟨_, [.start false, .go false, .go false, .go false, .go false, .go false],
      .cons hstart rfl (.cons (hgo rfl) rfl (.cons (hgo rfl) rfl (.cons (hgo rfl) rfl (.cons (hgo rfl) rfl
        (.cons (hgo rfl) rfl (.nil _)))))), _,
      [.start true, .go true, .go true, .start false, .go false, .go true, .start true, .go true, .go true, .go true,
        .go true],
      .cons hstart rfl (.cons (hgo rfl) rfl (.cons (hgo rfl) rfl (.cons hstart rfl (.cons trivial rfl
        (.cons (hgo rfl) rfl (.cons hstart rfl (.cons (hgo rfl) rfl (.cons (hgo rfl) rfl (.cons (hgo rfl) rfl
          (.cons (hgo rfl) rfl (.nil _))))))))))), ?_, ?_, rfl, rfl⟩
    · intro i; cases i <;> exact ⟨rfl, rfl⟩
    · intro i; cases i <;> rfl
  have hpids : ∀ b, utf8 (twoPids b) = true := by decide
  have hne : lit "2" ≠ lit "1" := by decide
  have hcalls : ∀ b, ∀ call ∈ twoTodo b, call.Shared := by
    rintro (_ | _)
    · exact List.forall_mem_cons.2 ⟨rfl, List.forall_mem_cons.2 ⟨trivial, by simp⟩⟩
    · exact List.forall_mem_cons.2 ⟨rfl, List.forall_mem_cons.2 ⟨trivial, by simp⟩⟩
  obtain ⟨hclosed, hflags, hkept⟩ := sharedFile_flags hpids hcalls hm hs
  have hflags := hflags (hclosed hdone)
  have hnew : s.log.drop m.log.length = [(false, .read (lit "a") false, .ok (some false)),
      (true, .write (lit "b") true, .ok none), (true, .erase (lit "b"), .ok none)] := by
    rw [hlog, hdrop]
    rfl
  refine ⟨m, s, as, bs, hm, hs, hdone, hnew, ?_, ?_, fun v hv => ?_⟩
  · rw [hflags, hlog]
    exact ⟨[], _, _, rfl, ⟨rfl, rfl, rfl⟩, by simp [Did, twoPids, hne]⟩
  · refine hkept hmclosed (hclosed hdone) _ _ ?_
    rw [hnew]
    simp [Touches, Did, twoPids, hne]
  · rw [hflags, hlog] at hv
    simp only [lastSet_cons] at hv
    rcases hv with ⟨hset, -⟩ | ⟨hset, -⟩ | ⟨-, hundo⟩ | ⟨hset, -⟩ | ⟨l₁, _, _, hnil, -⟩
    · exact absurd hset.1.symm hne
    · exact absurd hset.1.symm hne
    · -- the erase comes after the write of this flag
      exact hundo _ (List.mem_singleton_self _) (.erase (lit "b")) (by simp) ⟨rfl, rfl, rfl⟩
    · cases hset.2.1
    · cases l₁ <;> cases hnil

/-- Without the guard both processes read before either writes, and the second store takes the first
one's entry away. A flag set is not true after it was written false either, and a key or a pid that is
not UTF-8 never gets into the file. -/
theorem sharedFile_counterexample :
    (∃ as s, Lts.Run sharedStep Lts.Any (sharedFile (lit "c.json")
        (fun b : Bool => if b then lit "2" else lit "1") fun _ => [.write (lit "a") true]) as s ∧
      (∀ i, (s.procs i).Idle) ∧ s.cell.store.value (lit "1") (lit "a") ≠ some true ∧
      LastSet (fun b : Bool => if b then lit "2" else lit "1") (lit "1") (lit "a") true
        [.erase (lit "a")] s.log) ∧
    (∃ as s, Lts.Run sharedStep Lts.Any (sharedFile (lit "c.json") (fun _ : Unit => lit "1")
        fun _ => [.write (lit "a") true, .write (lit "a") false]) as s ∧
      (∀ i, (s.procs i).Idle) ∧ s.cell.store.value (lit "1") (lit "a") ≠ some true ∧
      LastSet (fun _ : Unit => lit "1") (lit "1") (lit "a") true [.erase (lit "a")] s.log) ∧
    (∃ as s, Lts.Run sharedStep Lts.Any (sharedFile (lit "c.json") (fun _ : Unit => lit "1")
        fun _ => [.write [0xff] true]) as s ∧
      (∀ i, (s.procs i).Idle) ∧ s.cell.store.value (lit "1") [0xff] ≠ some true ∧
      LastSet (fun _ : Unit => lit "1") (lit "1") [0xff] true [.erase [0xff]] s.log) ∧
    ∃ as s, Lts.Run sharedStep Lts.Any (sharedFile (lit "c.json") (fun _ : Unit => [0xff])
        fun _ => [.write (lit "a") true]) as s ∧
      (∀ i, (s.procs i).Idle) ∧ s.cell.store.value [0xff] (lit "a") ≠ some true ∧
      LastSet (fun _ : Unit => [0xff]) [0xff] (lit "a") true [.erase (lit "a")] s.log := by
  refine ⟨⟨[.start false, .start true, .go false, .go true, .go false, .go false, .go false,
    .go false, .go true, .go true, .go true, .go true], _, Lts.run_of_exec rfl, ?_, ?_, ?_⟩,
    ⟨[.start (), .go (), .go (), .go (), .go (), .go (), .start (), .go (), .go (), .go ()], _,
      Lts.run_of_exec rfl, ?_, ?_, ?_⟩,
    ⟨[.start (), .go (), .go (), .go (), .go (), .go ()], _, Lts.run_of_exec rfl, ?_, ?_, ?_⟩,
    ⟨[.start (), .go (), .go (), .go (), .go (), .go ()], _, Lts.run_of_exec rfl, ?_, ?_, ?_⟩⟩
  · intro i; cases i <;> exact ⟨rfl, rfl⟩
  · intro h; cases h
  · exact ⟨[], _, _, rfl, ⟨rfl, rfl, rfl⟩, by simp [Did]⟩
  · intro i; exact ⟨rfl, rfl⟩
  · intro h; cases h
  · exact ⟨[], _, _, rfl, ⟨rfl, rfl, rfl⟩, by simp [Did]⟩
  · intro i; exact ⟨rfl, rfl⟩
  · intro h; cases h
  · exact ⟨[], _, _, rfl, ⟨rfl, rfl, rfl⟩, by simp [Did]⟩
  · intro i; exact ⟨rfl, rfl⟩
  · intro h; cases h
  · exact ⟨[], _, _, rfl, ⟨rfl, rfl, rfl⟩, by simp [Did]⟩

end NplBrowser
