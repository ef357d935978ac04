import NplBrowser.CefMessageRouterServer

/-!
# A query is offered

A message of the renderer process, and a task, are steps of the server too: while a query is offered, the
handlers that are asked may execute callbacks and call the router, and what they do comes before what
becomes of the query itself.
-/

namespace NplBrowser

open Visit Counter

namespace CefMessageRouter

namespace BrowserSide

variable {config : Config} {s s' : BrowserSide} {b browserId : Int32} {id i : RequestId} {q queryId : Int64}
  {info : QueryInfo} {c : CallbackImpl} {n : Nat} {es : List (Int32 × Int64 × QueryInfo)} {notify : Bool}

variable {persistent : Bool} {o : Option Int64} {a a' a'' : Request.State Reply} {s'' : BrowserSide}

/-! ### Offering a query -/

/-- No query is received, and none taken up. -/
structure Calls (s s' : BrowserSide) : Prop where
  received : ∀ q b query, s'.Received q b query ↔ s.Received q b query
  queries : ∀ e ∈ s'.queries, e ∈ s.queries

theorem Calls.refl (s : BrowserSide) : Calls s s := ⟨fun _ _ _ => Iff.rfl, fun _ he => he⟩

theorem Calls.trans (h : Calls s s') (h' : Calls s' s'') : Calls s s'' :=
  ⟨fun q b query => (h'.received q b query).trans (h.received q b query), fun e he => h.queries e (h'.queries e he)⟩

theorem calls_reply (s : BrowserSide) (q : Int64) (r : Reply) : Calls s (s.reply q r) := by
  by_cases ha : s.Attached q
  · obtain ⟨c, hc, hrouter⟩ := ha
    rw [reply_of_find r hc hrouter]
    refine ⟨fun q' b query => ?_, fun e he => he⟩
    show HandlerEvent.received q' b query ∈ s.log ++ [.replied q r] ↔ _
    rw [List.mem_append]
    exact or_iff_left (by simp)
  · rw [reply_of_not r ha]
    exact .refl s

theorem CancelsAll.calls (hc : CancelsAll config s s' es notify) : Calls s s' where
  received q b query := by
    unfold Received
    rw [hc.log, List.mem_append]
    exact or_iff_left (by simp)
  queries e he := ((hc.queries e).1 he).1

/-- What a call of a handler does: the IDs, and how the request fares. -/
structure Moves (config : Config) (s s' : BrowserSide) : Prop extends Calls s s' where
  inv : ∀ n, Inv n s → Inv n s'
  serves : ∀ n b id persistent o a, Inv n s → Server b id persistent o s a →
    ∃ a', Serves config b id persistent s s' a a' ∧ Server b id persistent o s' a'

theorem Moves.trans (h : Moves config s s') (h' : Moves config s' s'') : Moves config s s'' :=
  { h.toCalls.trans h'.toCalls with
    inv := fun n hi => h'.inv n (h.inv n hi)
    serves := fun n b id persistent o a hi hs => by
      obtain ⟨a', hserves, hs'⟩ := h.serves n b id persistent o a hi hs
      obtain ⟨a'', hserves', hs''⟩ := h'.serves n b id persistent o a' (h.inv n hi) hs'
      exact ⟨a'', hserves.trans hserves', hs''⟩ }

theorem moves_reply (config : Config) (s : BrowserSide) (q : Int64) (r : Reply) : Moves config s (s.reply q r) :=
  { calls_reply s q r with
    inv := fun _ hi => hi.reply q r
    serves := fun _ _ _ _ _ _ hi hs => hs.reply hi q r }

theorem moves_cancelPendingFor (config : Config) (s : BrowserSide) (browserId : Option Int32) (handler : Option Nat)
    (notify : Bool) : Moves config s (s.cancelPendingFor config browserId handler notify) :=
  have hc := cancelPendingFor_spec config s browserId handler notify
  { hc.calls with
    inv := fun _ hi => hi.cancelsAll hc
    serves := fun _ _ _ _ _ _ hi hs => hs.cancelPendingFor hi browserId handler notify }

theorem moves_handlerSet (config : Config) (s : BrowserSide) (handlerSet : List Nat) :
    Moves config s { s with handlerSet } where
  received _ _ _ := Iff.rfl
  queries _ he := he
  inv _ hi := { hi with }
  serves _ _ _ _ _ a _ hs := ⟨a, .refl rfl, { hs with }⟩

theorem moves_log (config : Config) (s : BrowserSide) (h : Nat) (browserId : Int32) (f : FrameRef) (q : Int64)
    (request : Bytes) (persistent : Bool) :
    Moves config s { s with log := s.log ++ [.onQuery h browserId f q request persistent] } where
  received _ _ _ := by
    unfold Received
    rw [List.mem_append]
    exact or_iff_left (by simp)
  queries _ he := he
  inv _ hi := hi.of rfl ⟨_, rfl, by simp, by simp⟩ (fun _ c' hc' => ⟨c', hc', rfl⟩) (fun _ _ _ hk => .inl hk) fun _ ht => .inl ht
  serves _ _ _ _ _ a _ hs := ⟨a, .refl rfl, hs.of rfl (by simp) rfl (fun _ _ => Iff.rfl) (fun _ => rfl) fun _ _ _ => Iff.rfl⟩

theorem moves_refl (config : Config) (s : BrowserSide) : Moves config s s := moves_handlerSet config s s.handlerSet

theorem moves_perform (config : Config) (s : BrowserSide) (action : HandlerAction) :
    Moves config s (s.perform config action) := by
  cases action with
  | success q response => exact moves_reply config s q (.success response)
  | failure q errorCode errorMessage => exact moves_reply config s q (.failure errorCode errorMessage)
  | addHandler h first =>
    show Moves config s (s.addHandler h first).2
    unfold addHandler
    split
    · exact moves_refl config s
    · exact moves_handlerSet config s _
  | removeHandler h =>
    show Moves config s (s.removeHandler config h).2
    unfold removeHandler
    split
    · exact (moves_handlerSet config s _).trans (moves_cancelPendingFor config _ none (some h) true)
    · exact moves_refl config s
  | cancelPending browserId handler => exact moves_cancelPendingFor config s browserId handler true

theorem moves_foldl (config : Config) (actions : List HandlerAction) :
    ∀ s, Moves config s (actions.foldl (perform config) s) := by
  induction actions with
  | nil => exact moves_refl config
  | cons action actions ih => exact fun s => (moves_perform config s action).trans (ih _)

theorem moves_askHandlers (config : Config) (onQuery : OnQuery) (browserId : Int32) (queryId : Int64) (q : Query)
    (hs : List Nat) : ∀ s, Moves config s (askHandlers config onQuery browserId queryId q hs s).2 := by
  induction hs with
  | nil => exact moves_refl config
  | cons h hs ih =>
    intro s
    have hasked := (moves_log config s h browserId (frameOf q.isMainFrame q.frameId) queryId q.request q.persistent).trans
      (moves_foldl config (onQuery h).1 _)
    unfold askHandlers
    dsimp only
    split
    · exact hasked
    · exact hasked.trans (ih _)

/-! ### Queries and replies -/

/-- A new query ID. -/
theorem Inv.receive (h : Inv n s) (hn : n + 1 < 2 ^ 64) (browserId : Int32) (query : Query) :
    Inv (n + 1) (s.receive browserId query).2 ∧
    (∀ b query', ¬ s.Received (s.receive browserId query).1 b query') ∧
    (∀ q b query', (s.receive browserId query).2.Received q b query' ↔
      s.Received q b query' ∨ q = (s.receive browserId query).1 ∧ b = browserId ∧ query' = query) ∧
    (∀ q, (s.receive browserId query).2.Attached q ↔ s.Attached q ∨ q = (s.receive browserId query).1) := by
  obtain ⟨hne, hnew, hgiven⟩ := h.queryIds.next counts_int64 hn
  have hid : getNextId s.queryIdGenerator = s.queryIdGenerator + 1 := if_neg hne
  unfold BrowserSide.receive
  rw [hid]
  have hreceived : ∀ q b query', HandlerEvent.received q b query' ∈
      s.log ++ [.received (s.queryIdGenerator + 1) browserId query] ↔
      s.Received q b query' ∨ q = s.queryIdGenerator + 1 ∧ b = browserId ∧ query' = query := by
    intro q b query'
    rw [List.mem_append, List.mem_singleton, HandlerEvent.received.injEq]
    rfl
  have hfresh : ∀ b query', ¬ s.Received (s.queryIdGenerator + 1) b query' := fun b query' hr => hnew ⟨b, query', hr⟩
  have hnone : Assoc.find? (s.queryIdGenerator + 1) s.callbacks = none := by
    by_contra hsome
    obtain ⟨c, hc⟩ := Option.ne_none_iff_exists'.1 hsome
    obtain ⟨-, query', hr, -⟩ := h.callback _ c hc
    exact hfresh _ _ hr
  refine ⟨⟨?_, ?_, ?_, ?_, ?_, ?_⟩, hfresh, hreceived, fun q => ?_⟩
  · refine hgiven.mono (Nat.le_refl _) ?_
    rintro q ⟨b, query', hr⟩
    rcases (hreceived q b query').1 hr with hr | ⟨rfl, -⟩
    exacts [.inl ⟨b, query', hr⟩, .inr rfl]
  · intro q b₁ query₁ b₂ query₂ h₁ h₂
    rcases (hreceived q b₁ query₁).1 h₁ with hr₁ | ⟨rfl, rfl, rfl⟩ <;>
      rcases (hreceived _ b₂ query₂).1 h₂ with hr₂ | ⟨hq, rfl, rfl⟩
    · exact h.unique _ _ _ _ _ hr₁ hr₂
    · exact absurd (hq ▸ hr₁) (hfresh _ _)
    · exact absurd hr₂ (hfresh _ _)
    · exact ⟨rfl, rfl⟩
  · intro q c hc
    by_cases hq : q = s.queryIdGenerator + 1
    · subst hq
      dsimp only at hc
      rw [Assoc.find?_insert_self, Option.some.injEq] at hc
      subst hc
      exact ⟨rfl, query, (hreceived _ _ _).2 (.inr ⟨rfl, rfl, rfl⟩), rfl⟩
    · dsimp only at hc
      rw [Assoc.find?_insert_ne hq] at hc
      obtain ⟨hid, query', hr, hp⟩ := h.callback q c hc
      exact ⟨hid, query', (hreceived _ _ _).2 (.inl hr), hp⟩
  · intro b q info hinfo
    obtain ⟨hb, query', hr, hrest⟩ := h.kept b q info hinfo
    exact ⟨hb, query', (hreceived _ _ _).2 (.inl hr), hrest⟩
  · intro t ht
    obtain ⟨query', hr⟩ := h.task t ht
    exact ⟨query', (hreceived _ _ _).2 (.inl hr)⟩
  · intro q r hmem
    obtain ⟨b, query', hr⟩ := h.replied q r ((List.mem_append.1 hmem).resolve_right (by simp))
    exact ⟨b, query', (hreceived _ _ _).2 (.inl hr)⟩
  · unfold Attached
    dsimp only
    by_cases hq : q = s.queryIdGenerator + 1
    · subst hq
      rw [Assoc.find?_insert_self]
      exact iff_of_true ⟨_, rfl, rfl⟩ (.inr rfl)
    · rw [Assoc.find?_insert_ne hq]
      exact (or_iff_left hq).symm

/-- The query of another request. -/
theorem Server.receive_other (h : Server b id persistent o s a) (hi : Inv n s) (hn : n + 1 < 2 ^ 64)
    {query : Query} (hne : ¬ (browserId = b ∧ query.id = id)) :
    Server b id persistent o (s.receive browserId query).2 a := by
  obtain ⟨-, hfresh, hreceived, hattached⟩ := hi.receive hn browserId query
  refine ⟨fun q => ?_, fun q query' hr hid => ?_, h.idle, h.unasked, ?_, ?_, h.outbox, h.pending, h.entry, fun hd => ?_⟩
  · rw [← h.received q]
    refine exists_congr fun query' => and_congr_left fun hid => ?_
    rw [hreceived]
    refine or_iff_left ?_
    rintro ⟨-, hb, rfl⟩
    exact hne ⟨hb.symm, hid⟩
  · rcases (hreceived _ _ _).1 hr with hr | ⟨-, hb, rfl⟩
    · exact h.persistent q query' hr hid
    · exact absurd ⟨hb.symm, hid⟩ hne
  · show a.answers = List.filterMap (answerOf o) (s.log ++ [_])
    rw [List.filterMap_append, h.answers]
    exact (List.append_nil _).symm
  · rw [h.attached]
    refine exists_congr fun q => and_congr_right fun hq => ?_
    rw [hattached]
    refine (or_iff_left ?_).symm
    rintro rfl
    obtain ⟨query', hr, -⟩ := (h.received _).2 hq
    exact hfresh _ _ hr
  · obtain ⟨q, h', f, hq, hmem⟩ := h.dropped hd
    exact ⟨q, h', f, hq, List.mem_append_left _ hmem⟩

/-- The query of the request, which is offered then. -/
theorem Server.receive_self (h : Server b id persistent o s a) (hi : Inv n s) (hn : n + 1 < 2 ^ 64)
    (hs : a.server = .idle) (hsent : a.answers = [] ∧ a.outbox = [] ∧ a.dropped = false) {query : Query}
    (hid : query.id = id) (hp : query.persistent = persistent) (up : List Request.Up) :
    Server b id persistent (some (s.receive b query).1) (s.receive b query).2
      { a with up := up, server := .asking, attached := true } := by
  obtain ⟨-, hfresh, hreceived, hattached⟩ := hi.receive hn b query
  obtain rfl := h.idle hs
  have hno : ∀ q query', s.Received q b query' → query'.id ≠ id := by
    intro q query' hr hid'
    have := (h.received q).1 ⟨query', hr, hid'⟩
    cases this
  refine ⟨fun q => ⟨?_, ?_⟩, fun q query' hr hid' => ?_, nofun, nofun, ?_, ?_, fun _ => ?_, ?_, nofun, fun hd => ?_⟩
  · rintro ⟨query', hr, hid'⟩
    rcases (hreceived _ _ _).1 hr with hr | ⟨hq, -, -⟩
    exacts [absurd hid' (hno _ _ hr), congrArg some hq.symm]
  · rintro hq
    cases hq
    exact ⟨query, (hreceived _ _ _).2 (.inr ⟨rfl, rfl, rfl⟩), hid⟩
  · rcases (hreceived _ _ _).1 hr with hr | ⟨-, -, rfl⟩
    exacts [absurd hid' (hno _ _ hr), hp]
  · refine hsent.1.trans (List.filterMap_eq_nil_iff.2 fun e he => ?_).symm
    match e, he with
    | .replied q r, he =>
      refine if_neg fun hq => ?_
      obtain ⟨b', query', hr⟩ := hi.replied q r ((List.mem_append.1 he).resolve_right (by simp))
      exact hfresh b' query' (Option.some.inj hq ▸ hr)
    | .received .., _ => rfl
    | .onQuery .., _ => rfl
    | .accepted .., _ => rfl
    | .onQueryCanceled .., _ => rfl
  · exact iff_of_true rfl ⟨_, rfl, (hattached _).2 (.inr rfl)⟩
  · refine hsent.2.1.trans (List.filterMap_eq_nil_iff.2 fun t ht => if_neg fun hq => ?_).symm
    obtain ⟨query', hr⟩ := hi.task t ht
    rw [← Option.some.inj hq] at hr
    exact hfresh _ _ hr
  · intro q info hinfo hid'
    have := (h.pending q info hinfo hid').1
    cases this
  · rw [hsent.2.2] at hd
    cases hd

theorem entries_accept (query : Query) (handler : Nat) (hno : ∀ info, (browserId, q, info) ∉ s.queries) :
    ∃ info : QueryInfo, info.browserId = browserId ∧ info.id = query.id ∧ info.persistent = query.persistent ∧
      ∀ e, e ∈ (s.accept browserId q query handler).queries ↔ e = (browserId, q, info) ∨ e ∈ s.queries :=
  ⟨_, rfl, rfl, rfl, fun _ => ((CefBrowserInfoMap.entries_add hno).mem_iff).trans List.mem_cons⟩

theorem Inv.accept (h : Inv n s) {query : Query} (hr : s.Received q browserId query)
    (hno : ∀ info, (browserId, q, info) ∉ s.queries) (handler : Nat) : Inv n (s.accept browserId q query handler) := by
  obtain ⟨info, hb, hid, hp, hentries⟩ := entries_accept query handler hno
  refine h.of rfl ⟨_, rfl, by simp, by simp⟩ (fun _ c' hc' => ⟨c', hc', rfl⟩) (fun b' q' info' hmem => ?_)
    fun _ ht => .inl ht
  rcases (hentries _).1 hmem with heq | hmem
  · cases heq
    exact .inr ⟨hb, query, hr, hid, hp⟩
  · exact .inl hmem

theorem Server.accept_other (h : Server b id persistent o s a) {query : Query}
    (hno : ∀ info, (browserId, q, info) ∉ s.queries) (hne : ¬ (browserId = b ∧ query.id = id)) (handler : Nat) :
    Server b id persistent o (s.accept browserId q query handler) a := by
  obtain ⟨info, -, hid, -, hentries⟩ := entries_accept query handler hno
  refine h.of rfl (by simp) rfl (fun _ _ => Iff.rfl) (fun _ => rfl) fun q' info' hid' => ?_
  rw [hentries]
  refine or_iff_right fun heq => ?_
  cases heq
  exact hne ⟨rfl, hid.symm.trans hid'⟩

theorem Server.accept_self (h : Server b id persistent (some q) s a) (hs : a.server = .asking) {query : Query}
    (hno : ∀ info, (b, q, info) ∉ s.queries) (hid : query.id = id) (handler : Nat) :
    Server b id persistent (some q) (s.accept b q query handler) { a with server := .pending } := by
  obtain ⟨info, -, hinfo, -, hentries⟩ := entries_accept query handler hno
  have hreceived : ∀ q' b' query', (s.accept b q query handler).Received q' b' query' ↔ s.Received q' b' query' := by
    intro q' b' query'
    show HandlerEvent.received q' b' query' ∈ s.log ++ [.accepted handler q] ↔ _
    rw [List.mem_append]
    exact or_iff_left (by simp)
  refine ⟨fun q' => ?_, fun q' query' hr => h.persistent q' query' ((hreceived _ _ _).1 hr), nofun, nofun, ?_,
    h.attached, fun _ => h.outbox (by rw [hs]; nofun), fun q' info' hmem hid' => ?_,
    fun _ => ⟨q, info, rfl, (hentries _).2 (.inl rfl), hinfo.trans hid⟩, fun hd => ?_⟩
  · simp only [hreceived]
    exact h.received q'
  · show a.answers = List.filterMap (answerOf (some q)) (s.log ++ [_])
    rw [List.filterMap_append, h.answers]
    exact (List.append_nil _).symm
  · rcases (hentries _).1 hmem with heq | hmem
    · cases heq
      exact ⟨rfl, rfl⟩
    · have := (h.pending q' info' hmem hid').2
      rw [hs] at this
      cases this
  · obtain ⟨q', h', f, hq', hmem⟩ := h.dropped hd
    exact ⟨q', h', f, hq', List.mem_append_left _ hmem⟩

/-- Nobody has accepted the query. -/
def decline (config : Config) (s : BrowserSide) (browserId : Int32) (q : Int64) (id : RequestId) : BrowserSide :=
  (s.detach q).cancelUnhandledQuery config browserId id

theorem Inv.decline (h : Inv n s) (config : Config) (browserId : Int32) (q : Int64) (id : RequestId) :
    Inv n (s.decline config browserId q id) := by
  obtain ⟨callbacks, hs', -, hcallbacks⟩ := detach_spec s q
  unfold BrowserSide.decline
  rw [hs']
  exact h.of rfl ⟨[], (List.append_nil _).symm, by simp, by simp⟩ hcallbacks (fun _ _ _ hk => .inl hk)
    fun _ ht => .inl ht

theorem attached_decline (config : Config) (s : BrowserSide) (browserId : Int32) (q : Int64) (id : RequestId)
    (q' : Int64) : (s.decline config browserId q id).Attached q' ↔ s.Attached q' ∧ q ≠ q' :=
  (detach_spec s q).choose_spec.2.1 q'

theorem Server.decline_other (h : Server b id persistent o s a) (config : Config) (hq : o ≠ some q)
    (i : RequestId) : Server b id persistent o (s.decline config browserId q i) a := by
  have hattached := attached_decline config s browserId q i
  obtain ⟨callbacks, hs', -, -⟩ := detach_spec s q
  have hs'' : s.decline config browserId q i = { s with
      callbacks, sent := s.sent ++ [(browserId, replyMessage config i canceled)] } := by
    unfold BrowserSide.decline
    rw [hs']
    rfl
  refine h.of (l := []) (by rw [hs'', List.append_nil]) (by simp) rfl (fun q' hq' => ?_) (fun _ => by rw [hs''])
    fun _ _ _ => by rw [hs'']
  rw [hattached]
  refine and_iff_left ?_
  rintro rfl
  exact hq hq'

theorem Server.decline_self (h : Server b id persistent (some q) s a) (config : Config) (hs : a.server = .asking)
    (i : RequestId) : Server b id persistent (some q) (s.decline config b q i) (a.finish.respond [canceled]) := by
  have hattached := attached_decline config s b q i
  obtain ⟨callbacks, hs', -, -⟩ := detach_spec s q
  have hs'' : s.decline config b q i = { s with
      callbacks, sent := s.sent ++ [(b, replyMessage config i CefMessageRouter.canceled)] } := by
    unfold BrowserSide.decline
    rw [hs']
    rfl
  refine ⟨fun q' => ?_, fun q' query => ?_, nofun, nofun, ?_, iff_of_false nofun ?_, fun hd => absurd rfl hd,
    fun q' info hmem hid => ?_, nofun, fun hd => ?_⟩
  · rw [hs'']
    exact h.received q'
  · rw [hs'']
    exact h.persistent q' query
  · rw [hs'']
    exact h.answers
  · rintro ⟨q', hq', hatt⟩
    cases hq'
    exact ((hattached q).1 hatt).2 rfl
  · rw [hs''] at hmem
    have := (h.pending q' info hmem hid).2
    rw [hs] at this
    cases this
  · rw [hs'']
    exact h.dropped hd

theorem down_decline (config : Config) (s : BrowserSide) (browserId : Int32) (q : Int64) (i : RequestId) :
    (s.decline config browserId q i).down config b id =
      s.down config b id ++ if browserId = b ∧ i = id then [canceled] else [] := by
  obtain ⟨callbacks, hs', -, -⟩ := detach_spec s q
  unfold decline
  rw [hs']
  exact filterMap_downOf s.sent canceled

/-- A message with a query has been handled. -/
theorem onQueryMessage_eq (config : Config) (s : BrowserSide) (onQuery : OnQuery) (browserId : Int32) (query : Query) :
    s.handlerSet = [] ∧
      s.onQueryMessage config onQuery browserId query = s.cancelUnhandledQuery config browserId query.id ∨
    ∃ s₁, Moves config (s.receive browserId query).2 s₁ ∧
      ((∃ handler, s.onQueryMessage config onQuery browserId query =
        s₁.accept browserId (s.receive browserId query).1 query handler) ∨
      s.onQueryMessage config onQuery browserId query =
        s₁.decline config browserId (s.receive browserId query).1 query.id) := by
  unfold onQueryMessage
  split
  · exact .inl ⟨List.isEmpty_iff.1 ‹_›, rfl⟩
  · have hmoves := moves_askHandlers config onQuery browserId (s.receive browserId query).1 query s.handlerSet
      (s.receive browserId query).2
    refine .inr ⟨_, hmoves, ?_⟩
    have hset : (s.receive browserId query).2.handlerSet = s.handlerSet := rfl
    dsimp only
    rw [hset]
    split
    · rename_i handler s₁ heq
      rw [heq]
      exact .inl ⟨handler, rfl⟩
    · rename_i s₁ heq
      rw [heq]
      exact .inr rfl

/-- The new query is not kept before it has been accepted. -/
theorem Inv.moved (h : Inv n s) (hn : n + 1 < 2 ^ 64) {query : Query} {s₁ : BrowserSide}
    (hm : Moves config (s.receive browserId query).2 s₁) : Inv (n + 1) s₁ ∧
      s₁.Received (s.receive browserId query).1 browserId query ∧
      ∀ info, (browserId, (s.receive browserId query).1, info) ∉ s₁.queries := by
  obtain ⟨hi, hfresh, hreceived, -⟩ := h.receive hn browserId query
  refine ⟨hm.inv _ hi, (hm.received _ _ _).2 ((hreceived _ _ _).2 (.inr ⟨rfl, rfl, rfl⟩)), fun info hmem => ?_⟩
  obtain ⟨-, query', hr, -⟩ := h.kept _ _ _ (hm.queries _ hmem : _ ∈ s.queries)
  exact hfresh _ _ hr

theorem Inv.onQueryMessage (h : Inv n s) (hn : n + 1 < 2 ^ 64) (onQuery : OnQuery) (browserId : Int32) (query : Query) :
    Inv (n + 1) (s.onQueryMessage config onQuery browserId query) := by
  rcases onQueryMessage_eq config s onQuery browserId query with ⟨-, hs'⟩ | ⟨s₁, hm, hs'⟩
  · rw [hs']
    exact { h.mono (Nat.le_succ n) with }
  · obtain ⟨hi, hr, hno⟩ := h.moved hn hm
    rcases hs' with ⟨handler, hs'⟩ | hs' <;> rw [hs']
    · exact hi.accept hr hno handler
    · exact hi.decline config _ _ _

theorem Inv.received_onQueryMessage (h : Inv n s) (hn : n + 1 < 2 ^ 64) (onQuery : OnQuery) (browserId : Int32)
    (query : Query) {query' : Query} (hr : (s.onQueryMessage config onQuery browserId query).Received q b query') :
    s.Received q b query' ∨ b = browserId ∧ query' = query := by
  rcases onQueryMessage_eq config s onQuery browserId query with ⟨-, hs'⟩ | ⟨s₁, hm, hs'⟩
  · rw [hs'] at hr
    exact .inl hr
  · obtain ⟨-, -, hreceived, -⟩ := h.receive hn browserId query
    have hr₁ : s₁.Received q b query' := by
      rcases hs' with ⟨handler, hs'⟩ | hs' <;> rw [hs'] at hr
      · have hmem : HandlerEvent.received q b query' ∈ s₁.log ++ [.accepted handler _] := hr
        exact (List.mem_append.1 hmem).resolve_right (by simp)
      · obtain ⟨callbacks, hdetach, -⟩ := detach_spec s₁ (s.receive browserId query).1
        unfold BrowserSide.decline at hr
        rw [hdetach] at hr
        exact hr
    exact ((hreceived _ _ _).1 ((hm.received _ _ _).1 hr₁)).imp_right And.right

/-- A query of another request. -/
theorem Server.onQueryMessage_other (h : Server b id persistent o s a) (config : Config) (hi : Inv n s) (hn : n + 1 < 2 ^ 64)
    (onQuery : OnQuery) {query : Query} (hne : ¬ (browserId = b ∧ query.id = id)) :
    ∃ a', Serves config b id persistent s (s.onQueryMessage config onQuery browserId query) a a' ∧
      Server b id persistent o (s.onQueryMessage config onQuery browserId query) a' := by
  rcases onQueryMessage_eq config s onQuery browserId query with ⟨-, hs'⟩ | ⟨s₁, hm, hs'⟩
  · rw [hs']
    refine ⟨a, .refl ?_, { h with }⟩
    exact (filterMap_downOf s.sent canceled).trans (by rw [if_neg hne, List.append_nil])
  · obtain ⟨-, -, hno⟩ := hi.moved hn hm
    obtain ⟨hi₁, hfresh, -, -⟩ := hi.receive hn browserId query
    obtain ⟨a', hserves, hserver⟩ := hm.serves _ b id persistent o a hi₁ (h.receive_other hi hn hne)
    have hreceive : Serves config b id persistent s (s.receive browserId query).2 a a := .refl rfl
    have hstart := hreceive.trans hserves
    rcases hs' with ⟨handler, hs'⟩ | hs' <;> rw [hs']
    · exact ⟨a', hstart.trans (.refl rfl), hserver.accept_other hno hne handler⟩
    · refine ⟨a', hstart.trans (.refl ?_), hserver.decline_other config ?_ _⟩
      · rw [down_decline, if_neg hne, List.append_nil]
      · intro ho
        obtain ⟨query', hr, -⟩ := (h.received _).2 ho
        exact hfresh _ _ hr

/-- What a step of the browser side is to the request. -/
structure Handles (config : Config) (b : Int32) (id : RequestId) (persistent : Bool) (s s' : BrowserSide)
    (up : List Request.Up) (a a' : Request.State Reply) : Prop where
  run : ∃ es, Lts.exec (Request.step (Reply.closing persistent) canceled) a es = some a'
  client : a'.client = a.client
  seen : a'.seen = a.seen
  up : a'.up = up
  down : ∃ rs, a'.down = a.down ++ rs ∧ s'.down config b id = s.down config b id ++ rs
  asking : a'.server ≠ .asking

theorem Serves.handles (h : Serves config b id persistent s s' a a') (hs : a.server ≠ .asking) :
    Handles config b id persistent s s' a.up a a' where
  run := h.run
  client := h.client
  seen := h.seen
  up := h.up
  down := h.down
  asking := fun ha => hs (h.asking.1 ha)

/-- The query of the request. -/
theorem Server.onQueryMessage_self (h : Server b id persistent o s a) (hi : Inv n s) (hn : n + 1 < 2 ^ 64)
    (ha : Request.Inv (Reply.closing persistent) CefMessageRouter.canceled a) (hs : a.server = .idle)
    {up : List Request.Up} (hup : a.up = .query :: up) (onQuery : OnQuery) {query : Query} (hid : query.id = id)
    (hp : query.persistent = persistent) :
    ∃ a' o', Handles config b id persistent s (s.onQueryMessage config onQuery b query) up a a' ∧
      Server b id persistent o' (s.onQueryMessage config onQuery b query) a' := by
  have hc : a.client ≠ .idle := by
    intro hidle
    rw [ha.idle hidle] at hup
    cases hup
  have hstart := (ha.unserved hs hc).2
  rcases onQueryMessage_eq config s onQuery b query with ⟨-, hs'⟩ | ⟨s₁, hm, hs'⟩
  · rw [hs']
    refine ⟨({ a with up := up } : Request.State Reply).finish.respond [CefMessageRouter.canceled], o,
      ⟨⟨[.refuse], ?_⟩, rfl, rfl, rfl, ⟨_, rfl, ?_⟩, Request.State.done_ne_asking⟩, ?_⟩
    · unfold Lts.exec Request.step
      rw [hup, hs]
      rfl
    · exact (filterMap_downOf s.sent _).trans (by rw [if_pos ⟨rfl, hid⟩])
    · obtain rfl := h.idle hs
      refine ⟨h.received, h.persistent, fun hd => absurd hd Request.State.done_ne_idle, fun _ => .inr rfl, h.answers,
        iff_of_false Request.State.done_not_attached ?_, fun hd => absurd rfl hd, fun q info hmem hid' => ?_,
        fun hd => absurd hd Request.State.done_ne_pending, h.dropped⟩
      · rintro ⟨q, hq, -⟩
        cases hq
      · have := (h.pending q info hmem hid').1
        cases this
  · obtain ⟨-, -, hno⟩ := hi.moved hn hm
    obtain ⟨hi₁, -, -, -⟩ := hi.receive hn b query
    have hserver := h.receive_self hi hn hs (by rw [hstart]; exact ⟨rfl, rfl, rfl⟩) hid hp up
    obtain ⟨a₁, hserves, hserver₁⟩ := hm.serves _ b id persistent _ _ hi₁ hserver
    have hasking : a₁.server = .asking := hserves.asking.2 rfl
    obtain ⟨es, hes⟩ := hserves.run
    have hserve : Lts.exec (Request.step (Reply.closing persistent) CefMessageRouter.canceled) a (.serve :: es) =
        some a₁ := by
      have hstep : Request.step (Reply.closing persistent) CefMessageRouter.canceled a .serve =
          some { a with up := up, server := .asking, attached := true } := by
        unfold Request.step
        dsimp only
        rw [hup, hs]
      rw [Lts.exec_cons hstep]
      exact hes
    obtain ⟨rs, hdown, hsent⟩ := hserves.down
    rcases hs' with ⟨handler, hs'⟩ | hs' <;> rw [hs']
    · exact ⟨{ a₁ with server := .pending }, _, ⟨⟨_, Lts.exec_append hserve (Lts.exec_single (Request.step_accept hasking))⟩,
        hserves.client, hserves.seen, hserves.up, ⟨rs, hdown, hsent⟩, (by simp)⟩, hserver₁.accept_self hasking hno hid handler⟩
    · refine ⟨a₁.finish.respond [CefMessageRouter.canceled], _,
        ⟨⟨_, Lts.exec_append hserve (Lts.exec_single (Request.step_decline hasking))⟩, hserves.client, hserves.seen, hserves.up,
        ⟨rs ++ [CefMessageRouter.canceled], ?_, ?_⟩, Request.State.done_ne_asking⟩, hserver₁.decline_self config hasking _⟩
      · show a₁.down ++ [_] = _
        rw [hdown]
        exact List.append_assoc _ _ _
      · rw [down_decline, if_pos ⟨rfl, hid⟩, hsent]
        exact List.append_assoc _ _ _

/-- A message that does not cancel the request, or finds nothing to cancel. -/
theorem Server.cancelPendingRequest_other (h : Server b id persistent o s a) (config : Config) (hi : Inv n s)
    (hne : ¬ (browserId = b ∧ i.Covers id) ∨ a.server ≠ .pending) :
    Serves config b id persistent s (s.cancelPendingRequest config browserId i) a a ∧
      Server b id persistent o (s.cancelPendingRequest config browserId i) a := by
  obtain ⟨es, hc, hcov, -⟩ := cancelPendingRequest_spec config s browserId i
  have he : ¬ ∃ e ∈ es, e.1 = b ∧ e.2.2.id = id := by
    rintro ⟨e, hmem, rfl, rfl⟩
    obtain ⟨hb, hcovers⟩ := hcov e hmem
    rcases hne with hne | hp
    · exact hne ⟨hb.symm, hcovers⟩
    · exact hp (h.pending e.2.1 e.2.2 (hc.subset hmem) rfl).2
  refine ⟨.refl ?_, h.of_not_canceled hi hc he⟩
  rw [h.down_cancelsAll hi hc, if_neg fun hn => he hn.2, List.append_nil]

theorem Server.cancelPendingRequest_self (h : Server b id persistent o s a) (hi : Inv n s) (hs : a.server ≠ .asking)
    {up : List Request.Up} (hup : a.up = .cancel :: up) (hcovers : i.Covers id) :
    ∃ a', Handles config b id persistent s (s.cancelPendingRequest config b i) up a a' ∧
      Server b id persistent o (s.cancelPendingRequest config b i) a' := by
  obtain ⟨es, hc, hcov, hall⟩ := cancelPendingRequest_spec config s b i
  have hdown : (s.cancelPendingRequest config b i).down config b id = s.down config b id := by
    rw [h.down_cancelsAll hi hc, if_neg fun hn => Bool.false_ne_true hn.1, List.append_nil]
  have hstep : Request.step (Reply.closing persistent) canceled a .hear =
      some (if a.server = .pending then ({ a with up := up } : Request.State Reply).finish else { a with up := up }) := by
    unfold Request.step
    dsimp only
    rw [hup]
    exact if_neg hs
  by_cases he : ∃ e ∈ es, e.1 = b ∧ e.2.2.id = id
  · obtain ⟨hp, hserver⟩ := h.of_canceled hi hc he up a.dropped [] .inl
    rw [Request.State.respond_nil] at hserver
    refine ⟨({ a with up := up } : Request.State Reply).finish, ⟨⟨[.hear], ?_⟩, rfl, rfl, rfl,
      ⟨[], (List.append_nil _).symm, by rw [hdown, List.append_nil]⟩, nofun⟩, hserver⟩
    rw [Lts.exec_cons hstep, if_pos hp]
    rfl
  · have hp : a.server ≠ .pending := by
      intro hp
      obtain ⟨q, info, -, hmem, hid⟩ := h.entry hp
      rcases hall _ hmem rfl (hid ▸ hcovers) with hin | ⟨-, e', hin, hid'⟩
      · exact he ⟨_, hin, rfl, hid⟩
      · exact he ⟨e', hin, (hcov e' hin).1, hid'.trans hid⟩
    have hserver := h.of_not_canceled hi hc he
    refine ⟨{ a with up := up }, ⟨⟨[.hear], ?_⟩, rfl, rfl, rfl,
      ⟨[], (List.append_nil _).symm, by rw [hdown, List.append_nil]⟩, hs⟩, { hserver with }⟩
    rw [Lts.exec_cons hstep, if_neg hp]
    rfl

/-- A task that has a reply to another query, or to one that is not kept. -/
theorem Inv.runTask (h : Inv n s) (config : Config) (t : UiTask) : Inv n (s.runTask config t) := by
  obtain ⟨m, rs, hs', hentries, -, -⟩ := runTask_spec config s t
  rw [hs']
  refine h.of rfl ⟨[], (List.append_nil _).symm, by simp, by simp⟩ (fun _ c' hc' => ⟨c', hc', rfl⟩)
    (fun b' q' info hmem => .inl ?_) fun _ ht => .inl ht
  have hmem' : (b', q', info) ∈ m.entries := hmem
  rw [hentries] at hmem'
  exact (List.mem_filter.1 hmem').1

/-- The first task, which has a reply to the request if that is kept. -/
theorem Server.runTask {t : UiTask} {tasks : List UiTask} (h : Server b id persistent o s a) (hi : Inv n s)
    (ha : Request.Inv (Reply.closing persistent) canceled a) (ht : s.tasks = t :: tasks) (hs : a.server ≠ .asking) :
    ∃ a', Handles config b id persistent s ({ s with tasks }.runTask config t) a.up a a' ∧
      Server b id persistent o ({ s with tasks }.runTask config t) a' := by
  obtain ⟨m, rs, hs', hentries, hsome, hnone⟩ := runTask_spec config { s with tasks } t
  rw [hs']
  have hmem : ∀ b' q info, (b', q, info) ∈ m.entries ↔ (b', q, info) ∈ s.queries ∧
      ¬ (b' = t.browserId ∧ q = t.queryId ∧ t.reply.closing info.persistent = true) := by
    intro b' q info
    rw [hentries, List.mem_filter, Bool.not_eq_true', decide_eq_false_iff_not]
  -- the state is the same but for the tasks
  have hstay : ∀ {rs' : List (Int32 × CefProcessMessage)}, rs = rs' → rs'.filterMap (downOf config b id) = [] →
      (a.server ≠ .done → tasks.filterMap (taskOf o) = s.tasks.filterMap (taskOf o)) →
      (∀ q info, info.id = id → ((b, q, info) ∈ m.entries ↔ (b, q, info) ∈ s.queries)) →
      ∃ a', Handles config b id persistent s { s with tasks, browserQueryInfoMap := m, sent := s.sent ++ rs } a.up a a' ∧
        Server b id persistent o { s with tasks, browserQueryInfoMap := m, sent := s.sent ++ rs } a' := by
    rintro _ rfl hsent htasks hqueries
    refine ⟨a, (Serves.refl ?_).handles hs, h.of (List.append_nil _).symm (by simp) rfl (fun _ _ => Iff.rfl) htasks hqueries⟩
    show List.filterMap (downOf config b id) (s.sent ++ rs) = _
    rw [List.filterMap_append, hsent, List.append_nil]
  by_cases ho : o = some t.queryId
  · obtain ⟨query, hr⟩ := hi.task t (by rw [ht]; exact .head _)
    obtain ⟨query', hr', hid⟩ := (h.received _).2 ho
    obtain ⟨hb, rfl⟩ := hi.unique _ _ _ _ _ hr hr'
    have hkey : ∀ info, (b, t.queryId, info) ∈ s.queries → info.id = id ∧ info.persistent = persistent := by
      intro info hinfo
      obtain ⟨-, query', hr', hid', hp⟩ := hi.kept _ _ _ hinfo
      obtain ⟨-, rfl⟩ := hi.unique _ _ _ _ _ hr hr'
      exact ⟨hid'.trans hid, hp.trans (h.persistent _ _ hr' hid)⟩
    by_cases hp : a.server = .pending
    · obtain ⟨q, info, hq, hinfo, hiid⟩ := h.entry hp
      obtain rfl : q = t.queryId := Option.some.inj (hq.symm.trans ho)
      obtain ⟨-, hpers⟩ := hkey info hinfo
      have hbrowser := (hi.kept _ _ _ hinfo).1
      have hrs := hsome info (hb.symm ▸ hinfo)
      have hdown : (s.sent ++ rs).filterMap (downOf config b id) = s.down config b id ++ [t.reply] := by
        rw [hrs, filterMap_downOf, if_pos ⟨hbrowser, hiid⟩]
      have hout : a.outbox = t.reply :: tasks.filterMap (taskOf o) := by
        rw [h.outbox (by simp [hp]), ht, List.filterMap_cons]
        simp [taskOf, ho]
      have hstep : Request.step (Reply.closing persistent) canceled a .send =
          some (if t.reply.closing persistent then a.finish.respond [t.reply]
            else ({ a with outbox := tasks.filterMap (taskOf o) } : Request.State Reply).respond [t.reply]) := by
        unfold Request.step
        dsimp only
        rw [hp, hout]
      cases hclose : t.reply.closing persistent with
      | true =>
        have hfinish : (a.finish.respond [t.reply]).server = .done := rfl
        have hdetached : (a.finish.respond [t.reply]).attached ≠ true := Bool.false_ne_true
        refine ⟨a.finish.respond [t.reply], ⟨⟨[.send], ?_⟩, rfl, rfl, rfl, ⟨_, rfl, hdown⟩, by simp [hfinish]⟩,
          ⟨h.received, h.persistent, by simp [hfinish], fun _ => .inr rfl, h.answers, iff_of_false hdetached ?_,
          fun hd => absurd hfinish hd, fun q' info' hmem' hid' => ?_, by simp [hfinish], h.dropped⟩⟩
        · rw [Lts.exec_cons hstep, hclose]
          rfl
        · -- who gave the last reply cannot give another
          intro hatt
          obtain ⟨hanswers, -, hopen⟩ := ha.working (.inr hp)
          have := hopen.1 (h.attached.2 hatt) t.reply (by rw [hanswers, hout]; simp)
          rw [hclose] at this
          cases this
        · obtain ⟨hold, hnot⟩ := (hmem _ _ _).1 hmem'
          obtain rfl : q' = t.queryId := Option.some.inj ((h.pending q' info' hold hid').1.symm.trans ho)
          rw [(hkey info' hold).2] at hnot
          exact absurd ⟨hb.symm, rfl, hclose⟩ hnot
      | false =>
        have hsame : ∀ q' info', (b, q', info') ∈ m.entries ↔ (b, q', info') ∈ s.queries := by
          intro q' info'
          rw [hmem]
          refine and_iff_left_of_imp fun hinfo' hc => ?_
          obtain rfl := hc.2.1
          rw [(hkey info' hinfo').2, hclose] at hc
          exact Bool.false_ne_true hc.2.2
        refine ⟨({ a with outbox := tasks.filterMap (taskOf o) } : Request.State Reply).respond [t.reply],
          ⟨⟨[.send], ?_⟩, rfl, rfl, rfl, ⟨_, rfl, hdown⟩, hs⟩,
          ⟨h.received, h.persistent, h.idle, h.unasked, h.answers, h.attached, fun _ => rfl,
          fun q' info' hmem' => h.pending q' info' ((hsame q' info').1 hmem'),
          fun _ => ⟨_, info, hq, (hsame _ _).2 hinfo, hiid⟩, h.dropped⟩⟩
        rw [Lts.exec_cons hstep, hclose]
        rfl
    · have hno : ∀ info, (b, t.queryId, info) ∉ s.queries := fun info hinfo =>
        hp (h.pending _ _ hinfo (hkey info hinfo).1).2
      have hdone : a.server = .done := by
        cases hserver : a.server with
        | idle =>
          have := h.idle hserver
          rw [ho] at this
          cases this
        | asking => exact absurd hserver hs
        | pending => exact absurd hserver hp
        | done => rfl
      refine hstay (hnone fun info hinfo => hno info (hb ▸ hinfo)) rfl (fun hd => absurd hdone hd) fun q info hid' => ?_
      rw [hmem]
      refine and_iff_left_of_imp fun hinfo hc => ?_
      obtain rfl := hc.2.1
      exact hno info hinfo
  · have htask : tasks.filterMap (taskOf o) = s.tasks.filterMap (taskOf o) := by
      rw [ht, List.filterMap_cons]
      simp [taskOf, ho]
    have hqueries : ∀ q info, info.id = id → ((b, q, info) ∈ m.entries ↔ (b, q, info) ∈ s.queries) := by
      intro q info hid
      rw [hmem]
      refine and_iff_left_of_imp fun hinfo hc => ?_
      obtain rfl := hc.2.1
      exact ho (h.pending _ _ hinfo hid).1
    by_cases hex : ∃ info, (t.browserId, t.queryId, info) ∈ s.queries
    · obtain ⟨info, hinfo⟩ := hex
      refine hstay (hsome info hinfo) ?_ (fun _ => htask) hqueries
      have hb := (hi.kept _ _ _ hinfo).1
      rw [List.filterMap_cons, downOf_reply, if_neg]
      · rfl
      · rintro ⟨hb', hid⟩
        rw [hb] at hb'
        rw [hb'] at hinfo
        exact ho (h.pending _ _ hinfo hid).1
    · exact hstay (hnone fun info hinfo => hex ⟨info, hinfo⟩) rfl (fun _ => htask) hqueries

end BrowserSide

end CefMessageRouter

end NplBrowser
