import NplBrowser.ServerInv

/-!
# Runs of the test server

Queries and completions keep the invariant, as long as no stop comes while a start has not completed.
-/

namespace NplBrowser

namespace ServerTest

/-! ### Queries -/

section asked
variable {s s' : Handler} {e : Entry} {n q : Nat}

/-- The one entry of a query that has just been taken. -/
theorem Inv.about_new (hi : Inv s) (he : e.query = s.queries) :
    about (s.log ++ [e]) s.queries = [e] := by
  rw [← he, about_append_self, he, hi.fresh _ (Nat.le_refl _), List.nil_append]

theorem Inv.lt_queries (hi : Inv s) (hq : about s.log q ≠ []) : q < s.queries :=
  Nat.lt_of_not_le fun hle => hq (hi.fresh q hle)

theorem about_old (he : e.query = s.queries) (hq : q ≠ s.queries) :
    about (s.log ++ [e]) q = about s.log q := about_append_of_ne (by rw [he]; exact Ne.symm hq)

theorem Inv.about_accept {op : Op} (hi : Inv s) (he : e.query = s.queries)
    (hq : about s.log q = [.accept q op]) : about (s.log ++ [e]) q = [.accept q op] := by
  have hlt := hi.lt_queries (by rw [hq]; simp)
  rw [about_old he (Nat.ne_of_lt hlt), hq]

/-- A query's first entry is its answer or its acceptance. -/
theorem Inv.asked (hi : Inv s) (hlog : s'.log = s.log ++ [e]) (hq : s'.queries = s.queries + 1)
    (he : (∃ r, e = .reply s.queries none r) ∨ ∃ op, e = .accept s.queries op)
    (hstarted : s.started ≤ s'.started)
    (hown : ∀ op r, op.server < s.started → (s.servers op.server).Own op r →
      (s'.servers op.server).Own op r)
    (hnull : s'.nullDeref = false) (hlive : s'.alive = true → Live s') : Inv s' := by
  have heq : e.query = s.queries := by
    rcases he with ⟨r, rfl⟩ | ⟨op, rfl⟩ <;> rfl
  refine ⟨fun q hlt => ?_, fun q hle => ?_, hnull, hlive⟩
  · by_cases hqn : q = s.queries
    · subst hqn
      have habout := hi.about_new heq
      rw [← hlog] at habout
      rcases he with ⟨r, rfl⟩ | ⟨op, rfl⟩
      exacts [.atOnce r habout, .waiting op habout]
    · have habout := about_old heq hqn
      rw [← hlog] at habout
      rcases hi.answered q (by omega) with ⟨r, h⟩ | ⟨op, h⟩ | ⟨op, r, h, hop, ho⟩
      · exact .atOnce r (habout.trans h)
      · exact .waiting op (habout.trans h)
      · exact .completed op r (habout.trans h) (by omega) (hown op r hop ho)
  · rw [hlog, about_old heq (by omega)]
    exact hi.fresh q (by omega)

theorem Inv.reply (hi : Inv s) (r : Reply) :
    Inv ({ s with queries := s.queries + 1 }.reply s.queries r) := by
  refine hi.asked rfl rfl (.inl ⟨r, rfl⟩) (Nat.le_refl _) (fun _ _ _ ho => ho) hi.nullDeref ?_
  intro ha
  have hl := hi.live ha
  refine ⟨hl.wf, hl.queue, hl.held, hl.stage, ?_, ?_, ?_⟩
  · exact fun m c hm hc => hi.about_accept rfl (hl.slot m c hm hc)
  · intro q op hq
    refine hl.waiting q op ?_
    by_cases hqn : q = s.queries
    · subst hqn
      have hnew := (hi.about_new (e := .reply s.queries none r) rfl).symm.trans hq
      cases hnew
    · exact (about_old rfl hqn).symm.trans hq
  · intro m
    refine Iff.trans (active_append fun q => ?_) (Iff.trans ?_ (hl.active m))
    · simp
    · simp

theorem Live.reports_new (hl : Live s) : s.reports s.started = [] := by
  unfold Handler.reports
  rw [List.filter_eq_nil_iff.2]
  · rfl
  · intro e he
    have hlt := hl.queue e he
    exact fun h => Nat.ne_of_lt hlt (of_decide_eq_true h)

section accepted
variable {w : ServerHandler}

/-- The query that is taken is the one that the server waits for, and the other slots are as they were. -/
theorem Inv.slot_accepted (hi : Inv s) (hl : Live s) (op : Op)
    (hw : w.completeCallback = some (op, s.queries)) {m : Nat} {c : Op × Nat} (hm : m ≠ op.server → m < s.started)
    (hc : (Function.update s.servers op.server w m).completeCallback = some c) :
    about (s.log ++ [.accept s.queries op]) c.2 = [.accept c.2 c.1] := by
  rcases eq_or_ne m op.server with rfl | hne
  · rw [Function.update_self, hw] at hc
    rw [← Option.some.inj hc]
    exact hi.about_new rfl
  · rw [Function.update_of_ne hne] at hc
    exact hi.about_accept rfl (hl.slot m c (hm hne) hc)

/-- And so are those that are still waited for, if the slot was empty. -/
theorem Inv.waiting_accepted (hi : Inv s) (hl : Live s) (op : Op)
    (hw : w.completeCallback = some (op, s.queries))
    (hfree : op.server < s.started → (s.servers op.server).completeCallback = none) {op' : Op}
    (hq : about (s.log ++ [.accept s.queries op]) q = [.accept q op']) :
    (op'.server < s.started ∨ op' = op) ∧
      (Function.update s.servers op.server w op'.server).completeCallback = some (op', q) := by
  rcases eq_or_ne q s.queries with rfl | hqn
  · have hop := (hi.about_new (e := .accept s.queries op) rfl).symm.trans hq
    simp only [List.cons.injEq, Entry.accept.injEq, true_and, and_true] at hop
    subst hop
    exact ⟨.inr rfl, by rw [Function.update_self, hw]⟩
  · obtain ⟨hlt, hslot⟩ := hl.waiting q op' ((about_old rfl hqn).symm.trans hq)
    have hne : op'.server ≠ op.server := by
      intro heq
      rw [heq] at hlt hslot
      rw [hfree hlt] at hslot
      cases hslot
    exact ⟨.inl hlt, by rw [Function.update_of_ne hne, hslot]⟩

end accepted

/-- A start that is accepted. -/
theorem Inv.start (hi : Inv s) (hn : s.handler = none) (port : Int) :
    Inv { { s with queries := s.queries + 1 }.startServer port s.queries with
      handler := some s.started
      log := s.log ++ [.accept s.queries (.start s.started)] } := by
  have hnew : ∀ m, m < s.started → Function.update s.servers s.started
      { port, completeCallback := some (.start s.started, s.queries) } m = s.servers m :=
    fun m hm => Function.update_of_ne (Nat.ne_of_lt hm) _ _
  refine hi.asked rfl rfl (.inr ⟨_, rfl⟩) (Nat.le_succ _) ?_ hi.nullDeref ?_
  · intro op r hop ho
    show (Function.update s.servers s.started _ op.server).Own op r
    rwa [hnew _ hop]
  intro ha
  have hl := hi.live ha
  refine ⟨?_, ?_, ?_, ?_, ?_, ?_, ?_⟩
  · intro m hm
    show (Function.update s.servers s.started _ m).Wf
    rcases Nat.lt_succ_iff_lt_or_eq.1 hm with hm | rfl
    · rw [hnew m hm]
      exact hl.wf m hm
    · rw [Function.update_self]
      exact ⟨by simp, by simp⟩
  · intro e he
    exact Nat.lt_succ_of_lt (hl.queue e he)
  · intro m hm
    rw [← Option.some.inj hm]
    exact Nat.lt_succ_self _
  · intro m hm
    show (Function.update s.servers s.started _ m).Stage m (some s.started = some m) (s.reports m)
    rcases Nat.lt_succ_iff_lt_or_eq.1 hm with hm | rfl
    · rw [hnew m hm]
      refine (hl.stage m hm).congr ?_
      rw [hn, Option.some_inj]
      exact ⟨fun h => by simp at h, fun h => absurd h.symm (Nat.ne_of_lt hm)⟩
    · rw [Function.update_self]
      exact .starting s.queries rfl rfl hl.reports_new rfl
  · intro m c hm hc
    exact hi.slot_accepted hl (.start s.started) rfl
      (fun hne => Nat.lt_of_le_of_ne (Nat.lt_succ_iff.1 hm) hne) hc
  · intro q op hq
    obtain ⟨hop, hslot⟩ := hi.waiting_accepted (w := { port, completeCallback := _ }) hl
      (.start s.started) rfl (fun hlt => absurd hlt (Nat.lt_irrefl _)) hq
    refine ⟨?_, hslot⟩
    show op.server < s.started + 1
    rcases hop with hlt | rfl
    exacts [Nat.lt_succ_of_lt hlt, Nat.lt_succ_self _]
  · intro m
    show Active (s.log ++ [.accept s.queries (.start s.started)]) m ↔ some s.started = some m
    by_cases hm : m = s.started
    · subst hm
      exact ⟨fun _ => rfl, fun _ => active_append_start _ _ _⟩
    · have hinactive : ¬ Active s.log m := by
        rw [hl.active m, hn]
        simp
      rw [active_append (by simp [Ne.symm hm])]
      exact ⟨fun h => absurd h.1 hinactive, fun h => absurd (Option.some.inj h).symm hm⟩

theorem Live.running (hl : Live s) (hn : s.handler = some n)
    (hready : (s.servers n).completeCallback = none) : (s.servers n).thread = .serving ∧
      (s.servers n).isRunning = true ∧ s.reports n = [] ∧ (s.servers n).server = true := by
  have hlt := hl.held n hn
  rcases hl.stage n hlt with ⟨q, hslot, -, -, -⟩ | ⟨-, -, hr, ht, hrun, -⟩ | ⟨q, hslot, -, -, -, -, -⟩ |
    ⟨-, hheld⟩
  · rw [hready] at hslot
    cases hslot
  · exact ⟨ht, hrun, hr, (hl.wf n hlt).server.2 (.inr ht)⟩
  · rw [hready] at hslot
    cases hslot
  · exact absurd hn hheld

/-- A stop that is accepted. -/
theorem Inv.stop (hi : Inv s) (ha : s.alive = true) (hn : s.handler = some n)
    (hready : (s.servers n).completeCallback = none) :
    Inv { { s with queries := s.queries + 1 }.stopServer n (some (.stop n, s.queries)) with
      handler := none
      log := s.log ++ [.accept s.queries (.stop n)] } := by
  have hl := hi.live ha
  obtain ⟨ht, hrun, hr, hserver⟩ := hl.running hn hready
  have hlt := hl.held n hn
  rw [Handler.stopServer, if_pos hserver]
  refine hi.asked rfl rfl (.inr ⟨_, rfl⟩) (Nat.le_refl _) ?_ hi.nullDeref fun _ => ?_
  · exact fun op r _ ho => update_of (P := fun h => h.Own op r) ho fun h => h.shutdown _
  refine ⟨?_, hl.queue, ?_, ?_, ?_, ?_, ?_⟩
  · intro m hm
    exact update_of (hl.wf m hm) fun h => ⟨h.server, fun _ _ => rfl⟩
  · intro m hm
    cases hm
  · intro m hm
    show (Function.update s.servers n _ m).Stage m (none = some m) (s.reports m)
    by_cases hmn : m = n
    · subst hmn
      rw [Function.update_self, hr]
      refine .stopping s.queries rfl (by simp) ?_ ⟨by simp [ht], by simp [ht]⟩ hrun rfl
      simp [ServerHandler.posted, ht]
    · rw [Function.update_of_ne hmn]
      refine (hl.stage m hm).congr ?_
      rw [hn, Option.some_inj]
      exact ⟨fun h => absurd h.symm hmn, fun h => by simp at h⟩
  · exact fun m c hm hc => hi.slot_accepted hl (.stop n) rfl (fun _ => hm) hc
  · intro q op hq
    obtain ⟨hop, hslot⟩ := hi.waiting_accepted
      (w := { s.servers n with completeCallback := _, shutdown := true }) hl (.stop n) rfl (fun _ => hready) hq
    refine ⟨?_, hslot⟩
    rcases hop with hop | rfl
    exacts [hop, hlt]
  · intro m
    show Active (s.log ++ [.accept s.queries (.stop n)]) m ↔ none = some m
    rw [active_append (by simp)]
    exact ⟨fun h => absurd rfl (h.2.2 s.queries n), fun h => by simp at h⟩

theorem Inv.destroy (hi : Inv s)
    (hready : ∀ n, s.handler = some n → (s.servers n).server = true) : Inv s.destroy := by
  unfold Handler.destroy
  split
  · rename_i n hn
    rw [Handler.stopServer, if_pos (hready n hn)]
    refine ⟨fun q hq => (hi.answered q hq).mono rfl (Nat.le_refl _) fun op r ho => ?_, hi.fresh,
      hi.nullDeref, fun ha => by cases ha⟩
    exact update_of (P := fun h => h.Own op r) ho fun h => h.shutdown _
  · exact ⟨fun q hq => (hi.answered q hq).mono rfl (Nat.le_refl _) fun _ _ ho => ho, hi.fresh,
      hi.nullDeref, fun ha => by cases ha⟩

/-! ### Completions -/

theorem Live.slot_server {c : Op × Nat} (hl : Live s) (hn : n < s.started)
    (hc : (s.servers n).completeCallback = some c) : c.1.server = n := by
  rcases hl.stage n hn with ⟨q, hslot, -, -, -⟩ | ⟨hslot, -, -, -, -, -⟩ | ⟨q, hslot, -, -, -, -, -⟩ |
    ⟨hslot, -⟩
  all_goals rw [hc] at hslot
  · rw [Option.some.inj hslot, Op.server]
  · cases hslot
  · rw [Option.some.inj hslot, Op.server]
  · cases hslot

/-- The state after server `n`'s callback `c` has been run with the reply `r`. -/
def Handler.completed (s : Handler) (n : Nat) (l : List (Nat × Bool)) (handler : Option Nat)
    (c : Op × Nat) (r : Reply) : Handler :=
  { s.setServer n { s.servers n with completeCallback := none } with
    uiQueue := l
    handler
    log := s.log ++ [.reply c.2 (some c.1) r] }

theorem Inv.complete {b : Bool} {l : List (Nat × Bool)} {c : Op × Nat} {r : Reply}
    {handler : Option Nat} (hi : Inv s) (ha : s.alive = true) (hq : s.uiQueue = (n, b) :: l)
    (hslot : (s.servers n).completeCallback = some c)
    (hown : (s.servers n).Own c.1 r)
    (hheld : ∀ m, handler = some m → s.handler = some m)
    (hother : ∀ m, m ≠ n → s.handler = some m → handler = some m)
    (hstage : ({ s.servers n with completeCallback := none } : ServerHandler).Stage n
      (handler = some n) ({ s with uiQueue := l }.reports n))
    (hactive : ∀ m, Active (s.log ++ [.reply c.2 (some c.1) r]) m ↔ handler = some m) :
    Inv (s.completed n l handler c r) := by
  have hl := hi.live ha
  have hn : n < s.started := hl.queue (n, b) (by rw [hq]; exact .head _)
  have habout := hl.slot n c hn hslot
  have hcn := hl.slot_server hn hslot
  have hother' : ∀ q, q ≠ c.2 → about (s.log ++ [.reply c.2 (some c.1) r]) q = about s.log q :=
    fun q hqc => about_append_of_ne (Ne.symm hqc)
  have hself : about (s.log ++ [.reply c.2 (some c.1) r]) c.2 =
      [.accept c.2 c.1, .reply c.2 (some c.1) r] := by
    refine (about_append_self (e := .reply c.2 (some c.1) r)).trans ?_
    rw [Entry.query, habout]
    rfl
  have hold : ∀ m, m ≠ n →
      Function.update s.servers n { s.servers n with completeCallback := none } m = s.servers m :=
    fun m hm => Function.update_of_ne hm _ _
  have hownd : ∀ op r, (s.servers op.server).Own op r →
      (Function.update s.servers n { s.servers n with completeCallback := none } op.server).Own op r :=
    fun op r ho => update_of (P := fun h => h.Own op r) ho id
  refine ⟨fun q hlt => ?_, fun q hle => ?_, hi.nullDeref, fun _ => ⟨?_, ?_, ?_, ?_, ?_, ?_, hactive⟩⟩
  · by_cases hqc : q = c.2
    · subst hqc
      refine .completed c.1 r hself (hcn ▸ hn) (hownd _ _ ?_)
      rwa [hcn]
    · rcases hi.answered q hlt with ⟨r, h⟩ | ⟨op, h⟩ | ⟨op, r, h, hop, ho⟩
      · exact .atOnce r ((hother' q hqc).trans h)
      · exact .waiting op ((hother' q hqc).trans h)
      · exact .completed op r ((hother' q hqc).trans h) hop (hownd op r ho)
  · have hqc : q ≠ c.2 := by
      rintro rfl
      have hempty := hi.fresh _ hle
      rw [habout] at hempty
      cases hempty
    exact (hother' q hqc).trans (hi.fresh q hle)
  · intro m hm
    exact update_of (hl.wf m hm) fun h => ⟨h.server, h.shutdown⟩
  · intro e he
    exact hl.queue e (by rw [hq]; exact .tail _ he)
  · exact fun m hm => hl.held m (hheld m hm)
  · intro m hm
    show (Function.update s.servers n _ m).Stage m (handler = some m) ({ s with uiQueue := l }.reports m)
    by_cases hmn : m = n
    · subst hmn
      rw [Function.update_self]
      exact hstage
    · rw [hold m hmn]
      have hstage := (hl.stage m hm).congr ⟨hother m hmn, hheld m⟩
      rwa [reports_cons hq m, if_neg (Ne.symm hmn), List.nil_append] at hstage
  · intro m c' hm hc
    have hc : (Function.update s.servers n _ m).completeCallback = some c' := hc
    by_cases hmn : m = n
    · subst hmn
      rw [Function.update_self] at hc
      cases hc
    · rw [hold m hmn] at hc
      have hc' := hl.slot m c' hm hc
      -- two servers wait for different queries
      have hqc : c'.2 ≠ c.2 := by
        intro heq
        rw [heq, habout] at hc'
        simp only [List.cons.injEq, Entry.accept.injEq, true_and, and_true] at hc'
        rw [← hl.slot_server hm hc, ← hc', hcn] at hmn
        exact hmn rfl
      exact (hother' _ hqc).trans hc'
  · intro q op hqop
    show op.server < s.started ∧ (Function.update s.servers n _ op.server).completeCallback = _
    have hqc : q ≠ c.2 := by
      rintro rfl
      have hlen := congrArg List.length (hself.symm.trans hqop)
      simp at hlen
    obtain ⟨hop, hs⟩ := hl.waiting q op ((hother' q hqc).symm.trans hqop)
    have hne : op.server ≠ n := by
      intro heq
      rw [heq, hslot] at hs
      exact hqc (by rw [Option.some.inj hs])
    exact ⟨hop, by rw [hold _ hne, hs]⟩

/-- A completion that finds the slot empty. -/
theorem Inv.ignored {b : Bool} {l : List (Nat × Bool)} (hi : Inv s) (hq : s.uiQueue = (n, b) :: l)
    (hslot : (s.servers n).completeCallback = none) : Inv { s with uiQueue := l } := by
  refine ⟨fun q hlt => (hi.answered q hlt).mono rfl (Nat.le_refl _) fun _ _ ho => ho, hi.fresh,
    hi.nullDeref, fun ha => ?_⟩
  have hl := hi.live ha
  refine ⟨hl.wf, fun e he => hl.queue e (by rw [hq]; exact .tail _ he), hl.held, fun m hm => ?_,
    hl.slot, hl.waiting, hl.active⟩
  have hstage := hl.stage m hm
  rw [reports_cons hq m] at hstage
  by_cases hmn : n = m
  · subst hmn
    rcases hstage with ⟨q, hs, -, -, -⟩ | ⟨-, -, hr, -, -, -⟩ | ⟨q, hs, -, -, -, -, -⟩ | ⟨hs, hheld⟩
    · rw [hslot] at hs
      cases hs
    · simp at hr
    · rw [hslot] at hs
      cases hs
    · exact .done hs hheld
  · rwa [if_neg hmn, List.nil_append] at hstage

/-- A destroyed handler's callbacks are weak: only the slot is emptied. -/
theorem Inv.abandoned {l : List (Nat × Bool)} (hi : Inv s) (ha : s.alive ≠ true) :
    Inv ({ s with uiQueue := l }.setServer n { s.servers n with completeCallback := none }) := by
  refine ⟨fun q hlt => (hi.answered q hlt).mono rfl (Nat.le_refl _) fun op r ho => ?_, hi.fresh,
    hi.nullDeref, fun halive => absurd halive ha⟩
  exact update_of (P := fun h => h.Own op r) ho id

theorem startResponse_ne : Handler.startResponse true ≠ Handler.startResponse false := by
  intro h
  have hlen := congrArg (fun r => match r with
    | .success d => d.length
    | .failure _ _ => 0) h
  revert hlen
  decide

/-- The start's own completion finds its callback: the server runs, or it has failed. -/
theorem Inv.startComplete {b : Bool} {l : List (Nat × Bool)} {q : Nat} (hi : Inv s)
    (ha : s.alive = true) (hq : s.uiQueue = (n, b) :: l)
    (hslot : (s.servers n).completeCallback = some (.start n, q)) (hn : s.handler = some n)
    (hr : s.reports n = (s.servers n).posted) (hs : (s.servers n).shutdown = false) :
    Inv (s.completed n l (if b then s.handler else none) (.start n, q) (Handler.startResponse b)) := by
  have hl := hi.live ha
  have hwf := hl.wf n (hl.held n hn)
  rw [reports_cons hq n, if_pos rfl, List.singleton_append] at hr
  obtain ⟨rfl, ht, hrest⟩ : (s.servers n).isRunning = b ∧
      ((s.servers n).thread ≠ .creating ∧ (s.servers n).thread ≠ .created) ∧
      ((s.servers n).thread = .serving → { s with uiQueue := l }.reports n = []) := by
    unfold ServerHandler.posted at hr
    split at hr <;> simp_all
  have hinactive : ∀ m, m ≠ n → ¬ Active s.log m := by
    intro m hm hm'
    rw [hl.active m, hn] at hm'
    exact hm (Option.some.inj hm').symm
  cases hrun : (s.servers n).isRunning with
  | true =>
    -- shut down by nobody, the server still runs
    have hserving : (s.servers n).thread = .serving := by
      cases hthread : (s.servers n).thread with
      | creating => exact absurd hthread ht.1
      | created => exact absurd hthread ht.2
      | serving => rfl
      | destroyed => exact absurd (hwf.shutdown (.inl hthread) hrun) (by simp [hs])
      | finished => exact absurd (hwf.shutdown (.inr hthread) hrun) (by simp [hs])
    refine hi.complete ha hq hslot ⟨by rw [hrun], ht⟩ (fun m hm => hm) (fun m _ hm => hm)
      (.running rfl hn (hrest hserving) hserving hrun hs) fun m => ?_
    rw [active_append (by simp), hl.active m]
    simp [startResponse_ne]
  | false =>
    refine hi.complete ha hq hslot ⟨by rw [hrun], ht⟩ (fun m hm => by cases hm) ?_
      (.done rfl (by simp)) fun m => ?_
    · intro m hm hm'
      rw [hn] at hm'
      exact absurd (Option.some.inj hm').symm hm
    · rw [active_append (by simp)]
      refine ⟨fun h => ?_, fun h => by simp at h⟩
      by_cases hm : m = n
      · subst hm
        exact absurd rfl (h.2.1 q)
      · exact absurd h.1 (hinactive m hm)

/-- The stop's own completion, the only one left by then, finds its callback. -/
theorem Inv.stopComplete {b : Bool} {l : List (Nat × Bool)} {q : Nat} (hi : Inv s)
    (ha : s.alive = true) (hq : s.uiQueue = (n, b) :: l)
    (hslot : (s.servers n).completeCallback = some (.stop n, q)) (hn : s.handler ≠ some n)
    (hr : s.reports n = (s.servers n).posted.tail) (hs : (s.servers n).shutdown = true) :
    Inv (s.completed n l s.handler (.stop n, q) (Handler.stopResponse b)) := by
  have hl := hi.live ha
  rw [reports_cons hq n, if_pos rfl, List.singleton_append] at hr
  obtain ⟨rfl, ht⟩ : b = true ∧ (s.servers n).thread = .finished := by
    unfold ServerHandler.posted at hr
    split at hr <;> simp_all
  refine hi.complete ha hq hslot ⟨rfl, ht, hs⟩ (fun m hm => hm) (fun m _ hm => hm) (.done rfl hn)
    fun m => ?_
  rw [active_append (by simp), hl.active m]
  simp

theorem Inv.runTask {b : Bool} {l : List (Nat × Bool)} (hi : Inv s) (hq : s.uiQueue = (n, b) :: l) :
    Inv ({ s with uiQueue := l }.runCompleteCallback n b) := by
  unfold Handler.runCompleteCallback
  split
  · rename_i c hslot
    have hslot : (s.servers n).completeCallback = some c := hslot
    unfold Handler.runCallback
    split
    · rename_i ha
      have hl := hi.live ha
      have hn : n < s.started := hl.queue (n, b) (by rw [hq]; exact .head _)
      rcases hl.stage n hn with ⟨q, hs, hheld, hr, hsd⟩ | ⟨hs, -, -, -, -, -⟩ |
        ⟨q, hs, hheld, hr, -, -, hsd⟩ | ⟨hs, -⟩
      · obtain rfl := Option.some.inj (hslot.symm.trans hs)
        have h := hi.startComplete ha hq hslot hheld hr hsd
        cases b
        exacts [h, h]
      · rw [hslot] at hs
        cases hs
      · obtain rfl := Option.some.inj (hslot.symm.trans hs)
        exact hi.stopComplete ha hq hslot hheld hr hsd
      · rw [hslot] at hs
        cases hs
    · exact hi.abandoned ‹_›
  · exact hi.ignored hq ‹_›

end asked

/-! ### Runs -/

/-- The query asks for a stop. -/
def Stops (url : Bytes) (requestDict : Option CefDictionaryValue) : Prop :=
  kTestUrl.isPrefixOf url = true ∧ ∃ d, requestDict = some d ∧
    Handler.verifyKey d kActionKey .string = none ∧ (d.get kActionKey).getString = lit "stop"

/-- A stop is asked for when the start it is about has been completed, and a handler with a server
is destroyed when `server_` is set. -/
def Ready (s : Handler) : Event → Prop
  | .onQuery url requestDict => Stops url requestDict → ∀ n, s.handler = some n →
      (s.servers n).completeCallback = none
  | .destroy => ∀ n, s.handler = some n → (s.servers n).server = true
  | _ => True

section run
variable {s s' : Handler} {e : Event} {as : List Event}

theorem Inv.handleStartAction (hi : Inv s) (d : CefDictionaryValue) :
    Inv ({ s with queries := s.queries + 1 }.handleStartAction d s.queries) := by
  unfold Handler.handleStartAction
  split
  · exact hi.reply _
  · split
    · exact hi.reply _
    · dsimp only
      split
      · exact hi.reply _
      · exact hi.start ‹_› _

theorem Inv.handleStopAction (hi : Inv s) (ha : s.alive = true)
    (hready : ∀ n, s.handler = some n → (s.servers n).completeCallback = none) :
    Inv ({ s with queries := s.queries + 1 }.handleStopAction s.queries) := by
  unfold Handler.handleStopAction
  split
  · exact hi.reply _
  · rename_i n hn
    exact hi.stop ha hn (hready n hn)

theorem Inv.onQuery {url : Bytes} {requestDict : Option CefDictionaryValue} (hi : Inv s)
    (ha : s.alive = true) (hready : Ready s (.onQuery url requestDict)) :
    Inv (s.onQuery url requestDict) := by
  unfold Handler.onQuery
  split
  · rename_i hurl
    unfold Handler.handleRequest
    split
    · exact hi.reply _
    · rename_i d
      split
      · exact hi.reply _
      · rename_i hkey
        dsimp only
        split
        · unfold Handler.handleQueryAction
          split <;> exact hi.reply _
        · split
          · exact hi.handleStartAction d
          · split
            · rename_i haction
              exact hi.handleStopAction ha (hready ⟨hurl, d, rfl, hkey, haction⟩)
            · exact hi.reply _
  · exact hi

theorem Inv.step (hi : Inv s) (hready : Ready s e) (hs : ServerTest.step s e = some s') : Inv s' := by
  cases e with
  | onQuery url requestDict =>
    dsimp only [ServerTest.step] at hs
    split at hs
    · cases hs
      exact hi.onQuery ‹_› hready
    · cases hs
  | destroy =>
    dsimp only [ServerTest.step] at hs
    split at hs
    · cases hs
      exact hi.destroy hready
    · cases hs
  | runTask =>
    dsimp only [ServerTest.step] at hs
    split at hs
    · cases hs
    · cases hs
      exact hi.runTask ‹_›
  | onServerCreated n isRunning =>
    dsimp only [ServerTest.step, serverStep] at hs
    split at hs <;> cases hs
    rename_i h
    rw [← advanced_nil]
    exact hi.advance h.1 (ServerHandler.advance_created h.2 isRunning)
  | postCreated n =>
    dsimp only [ServerTest.step, serverStep] at hs
    split at hs <;> cases hs
    rename_i h
    exact hi.advance h.1 (ServerHandler.advance_postCreated h.2)
  | onServerDestroyed n =>
    dsimp only [ServerTest.step, serverStep] at hs
    split at hs
    · cases hs
    · split at hs <;> cases hs
      rename_i hdown h
      rw [← advanced_nil]
      refine hi.advance h.1 (ServerHandler.advance_destroyed h.2 ?_)
      simpa using hdown
  | postDestroyed n =>
    dsimp only [ServerTest.step, serverStep] at hs
    split at hs <;> cases hs
    rename_i h
    exact hi.advance h.1 (ServerHandler.advance_postDestroyed h.2)

theorem inv_start : Inv {} := by
  refine ⟨fun q hq => absurd hq (Nat.not_lt_zero q), fun _ _ => rfl, rfl, fun _ => ⟨?_, ?_, ?_, ?_, ?_, ?_, ?_⟩⟩
  · exact fun n hn => by cases hn
  · exact fun e he => by cases he
  · exact fun n hn => by cases hn
  · exact fun n hn => by cases hn
  · exact fun n c hn => by cases hn
  · exact fun q op hq => by cases hq
  · intro n
    constructor
    · rintro ⟨before, after, q, hlog, -, -⟩
      simp at hlog
    · intro h
      cases h

/-- Nothing is left to run: no completion is queued, and every server's thread has ended or serves
without having been shut down. -/
def Handler.Quiet (s : Handler) : Prop :=
  s.uiQueue = [] ∧ ∀ n, n < s.started → (s.servers n).thread = .finished ∨
    ((s.servers n).thread = .serving ∧ (s.servers n).isRunning = true ∧
      (s.servers n).shutdown = false)

theorem Live.answered_of_quiet (hl : Live s) (hq : s.Quiet) (q : Nat) (op : Op) :
    about s.log q ≠ [.accept q op] := by
  intro hwaiting
  obtain ⟨hn, hslot⟩ := hl.waiting q op hwaiting
  have hreports : s.reports op.server = [] := by
    unfold Handler.reports
    rw [hq.1]
    rfl
  have hquiet := hq.2 op.server hn
  rcases hl.stage op.server hn with ⟨q', -, -, hr, -⟩ | ⟨hs, -, -, -, -, -⟩ |
    ⟨q', -, -, hr, ht, hrun, hsd⟩ | ⟨hs, -⟩
  · rw [hreports] at hr
    unfold ServerHandler.posted at hr
    rcases hquiet with ht | ⟨ht, -, -⟩ <;> simp [ht] at hr
  · rw [hs] at hslot
    cases hslot
  · rw [hreports] at hr
    unfold ServerHandler.posted at hr
    rcases hquiet with ht | ⟨-, -, hsd'⟩
    · simp [ht] at hr
    · rw [hsd] at hsd'
      cases hsd'
  · rw [hs] at hslot
    cases hslot

/-- What the handler owes its pages: no null server is called; a query is answered at once, waits,
or has been completed once, with the outcome of its own operation; `handler_` is the server whose
accepted start has neither failed nor been followed by an accepted stop; and once nothing is left to
run, no accepted request waits. -/
structure Protocol (s : Handler) : Prop where
  nullDeref : s.nullDeref = false
  answered : ∀ q, q < s.queries → Answered s q
  handler : s.alive = true → ∀ n, s.handler = some n ↔ Active s.log n
  completed : s.alive = true → s.Quiet → ∀ q op, about s.log q ≠ [.accept q op]

theorem server_protocol (hr : Lts.Run ServerTest.step Ready {} as s) : Protocol s := by
  have hi : Inv s := hr.inv (I := Inv) (fun _ _ _ hi hready hs => hi.step hready hs) inv_start
  exact ⟨hi.nullDeref, hi.answered, fun ha n => ((hi.live ha).active n).symm,
    fun ha hq => (hi.live ha).answered_of_quiet hq⟩

end run

def startDict (port : Int) : CefDictionaryValue :=
  [(kActionKey, .string (lit "start")), (kPortKey, .int port)]

def stopDict : CefDictionaryValue := [(kActionKey, .string (lit "stop"))]

/-- A server is started and, once that has been reported, stopped. -/
theorem server_protocol_start_stop : ∃ s, Lts.Run step Ready {}
    [.onQuery kTestUrl (startDict 8099), .onServerCreated 0 true, .postCreated 0, .runTask,
      .onQuery kTestUrl stopDict, .onServerDestroyed 0, .postDestroyed 0, .runTask] s ∧
    s.queries = 2 ∧ Protocol s := by
  obtain ⟨s₁, s₂, s, h₁, hslot, h₂, h₃, hq⟩ : ∃ s₁ s₂ s, Lts.exec step {}
      [.onQuery kTestUrl (startDict 8099), .onServerCreated 0 true, .postCreated 0, .runTask] = some s₁ ∧
      (∀ n, s₁.handler = some n → (s₁.servers n).completeCallback = none) ∧
      step s₁ (.onQuery kTestUrl stopDict) = some s₂ ∧
      Lts.exec step s₂ [.onServerDestroyed 0, .postDestroyed 0, .runTask] = some s ∧
      s.queries = 2 := by
    refine ⟨_, _, _, rfl, fun n hn => ?_, rfl, rfl, rfl⟩
    obtain rfl : 0 = n := Option.some.inj hn
    rfl
  have hstart : ¬ Stops kTestUrl (startDict 8099) := by
    rintro ⟨-, d, hd, -, haction⟩
    cases hd
    revert haction
    decide
  have hr₁ : Lts.Run step Ready {} _ s₁ := Lts.run_of_exec_of (by
    intro e he s
    simp only [List.mem_cons, List.not_mem_nil, or_false] at he
    rcases he with rfl | rfl | rfl | rfl
    exacts [fun h => absurd h hstart, trivial, trivial, trivial]) h₁
  have hr₃ : Lts.Run step Ready s₂ _ s := Lts.run_of_exec_of (by
    intro e he s
    simp only [List.mem_cons, List.not_mem_nil, or_false] at he
    rcases he with rfl | rfl | rfl
    all_goals trivial) h₃
  have hready : Ready s₁ (.onQuery kTestUrl stopDict) := fun _ => hslot
  have hr := hr₁.append (.cons hready h₂ hr₃)
  exact ⟨s, hr, hq, server_protocol hr⟩

/-- A stop that is asked for before the server's thread has set `server_`. -/
theorem stop_before_created :
    ¬ ∀ as s, Lts.Run step Lts.Any {} as s → Protocol s := by
  intro h
  obtain ⟨s, hs, hnull⟩ : ∃ s, Lts.exec step {}
      [.onQuery kTestUrl (startDict 8099), .onQuery kTestUrl stopDict] = some s ∧
      s.nullDeref = true := ⟨_, rfl, rfl⟩
  have hsafe := (h _ _ (Lts.run_of_exec hs)).nullDeref
  rw [hnull] at hsafe
  cases hsafe

end ServerTest

end NplBrowser
