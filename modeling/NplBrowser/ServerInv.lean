import NplBrowser.ServerTest

/-!
# Where a test server stands

The stages of a server, from its start to the end of its thread, and the history of a query. The invariant
ties the one callback in a server's slot to the completions that are still in the queue.
-/

namespace NplBrowser

namespace ServerTest

/-! ### Servers -/

namespace ServerHandler
variable {n : Nat} {h h' : ServerHandler} {held : Prop} {reports l : List Bool} {op : Op} {r : Reply}

/-- The completions the server's thread has posted. -/
def posted (h : ServerHandler) : List Bool :=
  match h.thread with
  | .creating | .created => []
  | .serving | .destroyed => [h.isRunning]
  | .finished => [h.isRunning, true]

structure Wf (h : ServerHandler) : Prop where
  server : h.server = true ↔ h.thread = .created ∨ h.thread = .serving
  shutdown : h.thread = .destroyed ∨ h.thread = .finished → h.isRunning = true → h.shutdown = true

/-- Where server `n` stands for a handler that lives; `held` if it is the one in `handler_`,
`reports` the completions still in the UI thread's queue. -/
inductive Stage (n : Nat) (h : ServerHandler) (held : Prop) (reports : List Bool) : Prop
  | starting (q : Nat) (hslot : h.completeCallback = some (.start n, q)) (hheld : held)
      (hr : reports = h.posted) (hs : h.shutdown = false)
  | running (hslot : h.completeCallback = none) (hheld : held) (hr : reports = [])
      (ht : h.thread = .serving) (hrun : h.isRunning = true) (hs : h.shutdown = false)
  | stopping (q : Nat) (hslot : h.completeCallback = some (.stop n, q)) (hheld : ¬ held)
      (hr : reports = h.posted.tail) (ht : h.thread ≠ .creating ∧ h.thread ≠ .created)
      (hrun : h.isRunning = true) (hs : h.shutdown = true)
  | done (hslot : h.completeCallback = none) (hheld : ¬ held)

theorem Stage.congr {held' : Prop} (h' : Stage n h held reports) (hiff : held ↔ held') :
    Stage n h held' reports := propext hiff ▸ h'

/-- The outcome of an operation on a server. -/
def Own (h : ServerHandler) (op : Op) (r : Reply) : Prop :=
  match op with
  | .start _ => r = Handler.startResponse h.isRunning ∧ h.thread ≠ .creating ∧ h.thread ≠ .created
  | .stop _ => r = Handler.stopResponse true ∧ h.thread = .finished ∧ h.shutdown = true

/-- A step of the server's thread, with what it posts. -/
structure Advance (h h' : ServerHandler) (l : List Bool) : Prop where
  slot : h'.completeCallback = h.completeCallback
  shutdown : h'.shutdown = h.shutdown
  posted : h'.posted = h.posted ++ l
  started : h.thread ≠ .creating ∧ h.thread ≠ .created →
    h'.isRunning = h.isRunning ∧ h'.thread ≠ .creating ∧ h'.thread ≠ .created ∧ h.posted ≠ []
  finished : h.thread = .finished → h'.thread = .finished
  running : h.thread = .serving → h.isRunning = true → h.shutdown = true
  wf : h.Wf → h'.Wf

theorem Own.advance (hown : h.Own op r) (ha : h.Advance h' l) : h'.Own op r := by
  unfold Own at hown ⊢
  split
  · obtain ⟨hr, hthread⟩ := hown
    obtain ⟨hrun, hcreating, hcreated, -⟩ := ha.started hthread
    exact ⟨hrun ▸ hr, hcreating, hcreated⟩
  · obtain ⟨hr, hthread, hshutdown⟩ := hown
    exact ⟨hr, ha.finished hthread, ha.shutdown.trans hshutdown⟩

theorem Own.shutdown (hown : h.Own op r) (c : Option (Op × Nat)) :
    { h with completeCallback := c, shutdown := true }.Own op r := by
  unfold Own at hown ⊢
  split
  · exact hown
  · exact ⟨hown.1, hown.2.1, rfl⟩

theorem Stage.advance (hstage : Stage n h held reports) (ha : h.Advance h' l) :
    Stage n h' held (reports ++ l) := by
  rcases hstage with ⟨q, hslot, hheld, hr, hs⟩ | ⟨hslot, hheld, hr, ht, hrun, hs⟩ |
    ⟨q, hslot, hheld, hr, ht, hrun, hs⟩ | ⟨hslot, hheld⟩
  · exact .starting q (ha.slot.trans hslot) hheld (by rw [hr, ha.posted]) (ha.shutdown.trans hs)
  · -- a server that runs goes on until it is shut down
    rw [ha.running ht hrun] at hs
    cases hs
  · obtain ⟨hrun', hcreating, hcreated, hposted⟩ := ha.started ht
    refine .stopping q (ha.slot.trans hslot) hheld ?_ ⟨hcreating, hcreated⟩ (hrun'.trans hrun)
      (ha.shutdown.trans hs)
    rw [hr, ha.posted, List.tail_append_of_ne_nil hposted]
  · exact .done (ha.slot.trans hslot) hheld

theorem advance_created (ht : h.thread = .creating) (isRunning : Bool) :
    h.Advance { h with server := true, isRunning, thread := .created } [] := by
  refine ⟨rfl, rfl, ?_, ?_, ?_, ?_, ?_⟩
  · simp [posted, ht]
  · simp [ht]
  · simp [ht]
  · simp [ht]
  · exact fun _ => ⟨by simp, by simp⟩

theorem advance_postCreated (ht : h.thread = .created) :
    h.Advance { h with thread := .serving } [h.isRunning] := by
  refine ⟨rfl, rfl, ?_, ?_, ?_, ?_, ?_⟩
  · simp [posted, ht]
  · simp [ht]
  · simp [ht]
  · simp [ht]
  · exact fun hw => ⟨by simpa [ht] using hw.server, by simp⟩

theorem advance_destroyed (ht : h.thread = .serving) (hs : h.isRunning = true → h.shutdown = true) :
    h.Advance { h with server := false, thread := .destroyed } [] := by
  refine ⟨rfl, rfl, ?_, ?_, ?_, ?_, ?_⟩
  · simp [posted, ht]
  · simp [posted, ht]
  · simp [ht]
  · exact fun _ => hs
  · exact fun _ => ⟨by simp, fun _ => hs⟩

theorem advance_postDestroyed (ht : h.thread = .destroyed) :
    h.Advance { h with thread := .finished } [true] := by
  refine ⟨rfl, rfl, ?_, ?_, ?_, ?_, ?_⟩
  · simp [posted, ht]
  · simp [posted, ht]
  · simp [ht]
  · simp [ht]
  · exact fun hw => ⟨by simpa [ht] using hw.server, fun _ => hw.shutdown (.inl ht)⟩

end ServerHandler

/-! ### The log -/

/-- The history of query `q`. -/
def about (log : List Entry) (q : Nat) : List Entry := log.filter fun e => decide (e.query = q)

/-- The start of server `n` was accepted; it has not failed, and no stop has been accepted since. -/
def Active (log : List Entry) (n : Nat) : Prop :=
  ∃ before after q, log = before ++ .accept q (.start n) :: after ∧
    (∀ q', .reply q' (some (.start n)) (Handler.startResponse false) ∉ after) ∧
    ∀ q' m, .accept q' (.stop m) ∉ after

/-- What can be said of a query at any time. -/
inductive Answered (s : Handler) (q : Nat) : Prop
  | atOnce (r : Reply) (h : about s.log q = [.reply q none r])
  | waiting (op : Op) (h : about s.log q = [.accept q op])
  | completed (op : Op) (r : Reply) (h : about s.log q = [.accept q op, .reply q (some op) r])
      (hop : op.server < s.started) (hown : (s.servers op.server).Own op r)

theorem Answered.mono {s s' : Handler} {q : Nat} (hq : Answered s q) (hlog : s'.log = s.log)
    (hstarted : s.started ≤ s'.started)
    (hown : ∀ op r, (s.servers op.server).Own op r → (s'.servers op.server).Own op r) :
    Answered s' q := by
  rcases hq with ⟨r, h⟩ | ⟨op, h⟩ | ⟨op, r, h, hop, ho⟩
  · exact .atOnce r (hlog ▸ h)
  · exact .waiting op (hlog ▸ h)
  · exact .completed op r (hlog ▸ h) (by omega) (hown op r ho)

theorem about_append (log l : List Entry) (q : Nat) :
    about (log ++ l) q = about log q ++ about l q := List.filter_append ..

theorem about_append_of_ne {log : List Entry} {e : Entry} {q : Nat} (h : e.query ≠ q) :
    about (log ++ [e]) q = about log q := by
  rw [about_append]
  simp [about, h]

theorem about_append_self {log : List Entry} {e : Entry} :
    about (log ++ [e]) e.query = about log e.query ++ [e] := by
  rw [about_append]
  simp [about]

theorem active_append_start (log : List Entry) (q n : Nat) :
    Active (log ++ [.accept q (.start n)]) n :=
  ⟨log, [], q, rfl, by simp, by simp⟩

/-- What becomes of an earlier start by one more entry. -/
theorem active_append {log : List Entry} {e : Entry} {n : Nat} (he : ∀ q, e ≠ .accept q (.start n)) :
    Active (log ++ [e]) n ↔ Active log n ∧
      (∀ q, e ≠ .reply q (some (.start n)) (Handler.startResponse false)) ∧
      ∀ q m, e ≠ .accept q (.stop m) := by
  constructor
  · rintro ⟨before, after, q, hlog, hfail, hstop⟩
    rcases List.eq_nil_or_concat after with rfl | ⟨after, e', rfl⟩
    · have := (List.append_inj' hlog rfl).2
      exact absurd (List.singleton_inj.1 this) (he q)
    · rw [List.concat_eq_append] at hlog hfail hstop
      rw [← List.cons_append, ← List.append_assoc] at hlog
      obtain ⟨rfl, hlast⟩ := List.append_inj' hlog rfl
      obtain rfl := List.singleton_inj.1 hlast
      refine ⟨⟨before, after, q, rfl, fun q' h => ?_, fun q' m h => ?_⟩, fun q' h => ?_,
        fun q' m h => ?_⟩
      · exact hfail q' (List.mem_append_left _ h)
      · exact hstop q' m (List.mem_append_left _ h)
      · exact hfail q' (by simp [h])
      · exact hstop q' m (by simp [h])
  · rintro ⟨⟨before, after, q, rfl, hfail, hstop⟩, hfail', hstop'⟩
    refine ⟨before, after ++ [e], q, by simp, fun q' h => ?_, fun q' m h => ?_⟩
    · rcases List.mem_append.1 h with h | h
      exacts [hfail q' h, hfail' q' (List.mem_singleton.1 h).symm]
    · rcases List.mem_append.1 h with h | h
      exacts [hstop q' m h, hstop' q' m (List.mem_singleton.1 h).symm]

/-! ### The invariant -/

/-- The completions of server `n` in the UI thread's queue. -/
def Handler.reports (s : Handler) (n : Nat) : List Bool :=
  (s.uiQueue.filter fun e => decide (e.1 = n)).map Prod.snd

structure Live (s : Handler) : Prop where
  wf : ∀ n, n < s.started → (s.servers n).Wf
  queue : ∀ e ∈ s.uiQueue, e.1 < s.started
  held : ∀ n, s.handler = some n → n < s.started
  stage : ∀ n, n < s.started →
    (s.servers n).Stage n (s.handler = some n) (s.reports n)
  slot : ∀ n c, n < s.started → (s.servers n).completeCallback = some c →
    about s.log c.2 = [.accept c.2 c.1]
  waiting : ∀ q op, about s.log q = [.accept q op] →
    op.server < s.started ∧ (s.servers op.server).completeCallback = some (op, q)
  active : ∀ n, Active s.log n ↔ s.handler = some n

structure Inv (s : Handler) : Prop where
  answered : ∀ q, q < s.queries → Answered s q
  fresh : ∀ q, s.queries ≤ q → about s.log q = []
  nullDeref : s.nullDeref = false
  live : s.alive = true → Live s

theorem reports_append (s : Handler) (n m : Nat) (l : List Bool) :
    { s with uiQueue := s.uiQueue ++ l.map (n, ·) }.reports m =
      s.reports m ++ if n = m then l else [] := by
  unfold Handler.reports
  rw [List.filter_append, List.map_append]
  congr 1
  split
  · rw [List.filter_eq_self.2, List.map_map]
    · exact List.map_id _
    · rintro e he
      obtain ⟨b, -, rfl⟩ := List.mem_map.1 he
      exact decide_eq_true ‹_›
  · rw [List.filter_eq_nil_iff.2]
    · rfl
    · rintro e he
      obtain ⟨b, -, rfl⟩ := List.mem_map.1 he
      exact fun h => ‹n ≠ m› (of_decide_eq_true h)

theorem reports_cons {s : Handler} {n : Nat} {b : Bool} {q : List (Nat × Bool)}
    (hq : s.uiQueue = (n, b) :: q) (m : Nat) :
    s.reports m = (if n = m then [b] else []) ++ { s with uiQueue := q }.reports m := by
  unfold Handler.reports
  rw [hq, List.filter_cons]
  split <;> split <;> simp_all

/-- What holds of a server and is kept where server `n` changes. -/
theorem update_of {P : ServerHandler → Prop} {servers : Nat → ServerHandler} {n m : Nat}
    {h' : ServerHandler} (h : P (servers m)) (hn : P (servers n) → P h') :
    P (Function.update servers n h' m) := by
  by_cases hm : m = n
  · subst hm
    rw [Function.update_self]
    exact hn h
  · rwa [Function.update_of_ne hm]

section advance
variable {s : Handler} {n : Nat} {h' : ServerHandler} {l : List Bool}

/-- The state after a step of server `n`'s thread. -/
def Handler.advanced (s : Handler) (n : Nat) (h' : ServerHandler) (l : List Bool) : Handler :=
  { s.setServer n h' with uiQueue := s.uiQueue ++ l.map (n, ·) }

theorem advanced_nil : s.advanced n h' [] = s.setServer n h' := by
  rw [Handler.advanced, List.map_nil, List.append_nil]
  rfl

theorem advanced_servers (ha : (s.servers n).Advance h' l) (m : Nat) :
    (∃ l', (s.servers m).Advance ((s.advanced n h' l).servers m) l') ∨
      (s.advanced n h' l).servers m = s.servers m := by
  by_cases hm : m = n
  · subst hm
    refine .inl ⟨l, ?_⟩
    show (s.servers m).Advance (Function.update s.servers m h' m) l
    rwa [Function.update_self]
  · exact .inr (Function.update_of_ne hm _ _)

theorem Answered.advance {q : Nat} (hq : Answered s q) (ha : (s.servers n).Advance h' l) :
    Answered (s.advanced n h' l) q := by
  refine hq.mono rfl (Nat.le_refl _) fun op r hown => ?_
  rcases advanced_servers ha op.server with ⟨l', hadvance⟩ | heq
  · exact hown.advance hadvance
  · rwa [heq]

theorem Live.advance (hl : Live s) (hn : n < s.started) (ha : (s.servers n).Advance h' l) :
    Live (s.advanced n h' l) := by
  have hslot : ∀ m, ((s.advanced n h' l).servers m).completeCallback =
      (s.servers m).completeCallback := by
    intro m
    rcases advanced_servers ha m with ⟨l', hadvance⟩ | heq
    exacts [hadvance.slot, by rw [heq]]
  refine ⟨?_, ?_, hl.held, ?_, ?_, ?_, hl.active⟩
  · intro m hm
    rcases advanced_servers ha m with ⟨l', hadvance⟩ | heq
    · exact hadvance.wf (hl.wf m hm)
    · rw [heq]
      exact hl.wf m hm
  · intro e he
    rcases List.mem_append.1 he with he | he
    · exact hl.queue e he
    · obtain ⟨b, -, rfl⟩ := List.mem_map.1 he
      exact hn
  · intro m hm
    have hreports : (s.advanced n h' l).reports m = s.reports m ++ if n = m then l else [] :=
      reports_append s n m l
    rw [hreports]
    by_cases hmn : n = m
    · subst hmn
      show ServerHandler.Stage n (Function.update s.servers n h' n) _ _
      rw [Function.update_self, if_pos rfl]
      exact (hl.stage n hm).advance ha
    · show ServerHandler.Stage m (Function.update s.servers n h' m) _ _
      rw [Function.update_of_ne (Ne.symm hmn), if_neg hmn, List.append_nil]
      exact hl.stage m hm
  · intro m c hm hc
    rw [hslot] at hc
    exact hl.slot m c hm hc
  · intro q op hq
    rw [hslot]
    exact hl.waiting q op hq

theorem Inv.advance (hi : Inv s) (hn : n < s.started) (ha : (s.servers n).Advance h' l) :
    Inv (s.advanced n h' l) :=
  ⟨fun q hq => (hi.answered q hq).advance ha, hi.fresh, hi.nullDeref,
    fun halive => (hi.live halive).advance hn ha⟩

end advance

end ServerTest

end NplBrowser
