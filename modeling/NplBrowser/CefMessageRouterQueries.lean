import NplBrowser.CefMessageRouterBrowserSide

/-!
# The queries of the handlers

What the functions of the browser side do with the queries: what a callback that is executed changes, what
a cancellation takes away and whom it tells, and what a task of the UI thread finds.
-/

namespace NplBrowser

open Visit

namespace CefMessageRouter

namespace BrowserSide

variable {config : Config} {s s' : BrowserSide} {b browserId : Int32} {id i : RequestId} {q queryId : Int64}
  {info : QueryInfo} {c : CallbackImpl} {n : Nat} {es : List (Int32 × Int64 × QueryInfo)} {notify : Bool}

abbrev queries (s : BrowserSide) : List (Int32 × Int64 × QueryInfo) := s.browserQueryInfoMap.entries

/-- The callback of the query has its router. -/
def Attached (s : BrowserSide) (q : Int64) : Prop := ∃ c, Assoc.find? q s.callbacks = some c ∧ c.router = true

/-- The callback of the query is executed. -/
def reply (s : BrowserSide) (q : Int64) : Reply → BrowserSide
  | .success response => s.callbackSuccess q response
  | .failure errorCode errorMessage => s.callbackFailure q errorCode errorMessage

/-! ### What the functions do -/

theorem reply_of_find (r : Reply) (hc : Assoc.find? q s.callbacks = some c) (hrouter : c.router = true) :
    s.reply q r = { s with
      tasks := s.tasks ++ [{ browserId := c.browserId, queryId := c.queryId, reply := r }]
      log := s.log ++ [.replied q r]
      callbacks := if r.closing c.persistent then Assoc.insert q { c with router := false } s.callbacks
        else s.callbacks } := by
  cases r with
  | success response =>
    unfold reply callbackSuccess Reply.closing resetRouter
    rw [hc]
    dsimp only
    rw [if_pos hrouter]
    cases c.persistent <;> rfl
  | failure errorCode errorMessage =>
    unfold reply callbackFailure Reply.closing resetRouter
    rw [hc]
    dsimp only
    rw [if_pos hrouter, if_pos rfl]

/-- A callback without its router does nothing. -/
theorem reply_of_not (r : Reply) (h : ¬ s.Attached q) : s.reply q r = s := by
  have hrouter : ∀ c, Assoc.find? q s.callbacks = some c → ¬ c.router = true := fun c hc hr => h ⟨c, hc, hr⟩
  cases r with
  | success response =>
    show s.callbackSuccess q response = s
    unfold callbackSuccess
    split
    · rfl
    · exact if_neg (hrouter _ ‹_›)
  | failure errorCode errorMessage =>
    show s.callbackFailure q errorCode errorMessage = s
    unfold callbackFailure
    split
    · rfl
    · exact if_neg (hrouter _ ‹_›)

/-- What canceling the queries `es` does, but for their entries. -/
structure Detached (config : Config) (s s' : BrowserSide) (es : List (Int32 × Int64 × QueryInfo)) (notify : Bool) :
    Prop where
  queryIdGenerator : s'.queryIdGenerator = s.queryIdGenerator
  handlerSet : s'.handlerSet = s.handlerSet
  tasks : s'.tasks = s.tasks
  sent : s'.sent = s.sent ++
    if notify then es.map fun e => (e.2.2.browserId, replyMessage config e.2.2.id canceled) else []
  log : s'.log = s.log ++ es.map fun e =>
    .onQueryCanceled e.2.2.handler e.2.2.browserId (frameOf e.2.2.isMainFrame e.2.2.frameId) e.2.1 notify
  attached : ∀ q, s'.Attached q ↔ s.Attached q ∧ ∀ e ∈ es, e.2.1 ≠ q
  callbacks : ∀ q c', Assoc.find? q s'.callbacks = some c' →
    ∃ c, Assoc.find? q s.callbacks = some c ∧ { c' with router := true } = { c with router := true }

theorem Detached.refl : Detached config s s [] notify where
  queryIdGenerator := rfl
  handlerSet := rfl
  tasks := rfl
  sent := by split <;> exact (List.append_nil _).symm
  log := (List.append_nil _).symm
  attached q := by simp
  callbacks q c' h := ⟨c', h, rfl⟩

theorem detach_spec (s : BrowserSide) (queryId : Int64) : ∃ callbacks, s.detach queryId = { s with callbacks } ∧
    (∀ q, (s.detach queryId).Attached q ↔ s.Attached q ∧ queryId ≠ q) ∧
    ∀ q c', Assoc.find? q callbacks = some c' →
      ∃ c, Assoc.find? q s.callbacks = some c ∧ { c' with router := true } = { c with router := true } := by
  unfold detach
  split
  · rename_i hnone
    refine ⟨s.callbacks, rfl, fun q => ⟨fun h => ⟨h, ?_⟩, And.left⟩, fun q c' h => ⟨c', h, rfl⟩⟩
    rintro rfl
    obtain ⟨c, hc, -⟩ := h
    rw [hnone] at hc
    cases hc
  · rename_i c hc
    refine ⟨_, rfl, fun q => ?_, fun q c' h => ?_⟩
    · by_cases hq : q = queryId
      · subst hq
        refine iff_of_false ?_ fun h => h.2 rfl
        rintro ⟨c', hc', hrouter⟩
        unfold resetRouter at hc'
        rw [Assoc.find?_insert_self, Option.some.injEq] at hc'
        rw [← hc'] at hrouter
        cases hrouter
      · have hfind := Assoc.find?_insert_ne hq { c with router := false } s.callbacks
        unfold Attached resetRouter
        dsimp only
        rw [hfind]
        exact ⟨fun h => ⟨h, fun he => hq he.symm⟩, And.left⟩
    · by_cases hq : q = queryId
      · subst hq
        have := (Assoc.find?_insert_self q { c with router := false } s.callbacks).symm.trans h
        cases this
        exact ⟨c, hc, rfl⟩
      · rw [Assoc.find?_insert_ne hq] at h
        exact ⟨c', h, rfl⟩

theorem Detached.cancelQuery (h : Detached config s s' es notify) (e : Int32 × Int64 × QueryInfo) :
    Detached config s (s'.cancelQuery config e.2.1 e.2.2 notify) (es ++ [e]) notify := by
  unfold BrowserSide.cancelQuery
  generalize hs₁ : (if notify then s'.sendReply config e.2.2.browserId e.2.2.id canceled else s') = s₁
  dsimp only
  obtain ⟨callbacks, hs₂, hattached, hcallbacks⟩ := detach_spec { s₁ with
    log := s₁.log ++ [.onQueryCanceled e.2.2.handler e.2.2.browserId (frameOf e.2.2.isMainFrame e.2.2.frameId) e.2.1
      notify] } e.2.1
  obtain ⟨hgen, hset, htasks, hlog, hcb⟩ : s₁.queryIdGenerator = s'.queryIdGenerator ∧ s₁.handlerSet = s'.handlerSet ∧
      s₁.tasks = s'.tasks ∧ s₁.log = s'.log ∧ s₁.callbacks = s'.callbacks := by
    rw [← hs₁]
    split <;> exact ⟨rfl, rfl, rfl, rfl, rfl⟩
  have hatt : ∀ q, s₁.Attached q ↔ s'.Attached q := fun q => by unfold Attached; rw [hcb]
  refine ⟨?_, ?_, ?_, ?_, ?_, ?_, ?_⟩
  · rw [hs₂, ← h.queryIdGenerator, ← hgen]
  · rw [hs₂, ← h.handlerSet, ← hset]
  · rw [hs₂, ← h.tasks, ← htasks]
  · rw [hs₂, ← hs₁]
    cases notify with
    | true =>
      show s'.sent ++ [_] = _
      rw [h.sent, if_pos rfl, if_pos rfl, List.map_append, List.append_assoc]
      rfl
    | false => exact h.sent
  · rw [hs₂]
    show s₁.log ++ _ = _
    rw [hlog, h.log, List.map_append, List.append_assoc]
    rfl
  · intro q
    rw [hattached]
    show s₁.Attached q ∧ _ ↔ _
    rw [hatt, h.attached, and_assoc]
    refine and_congr_right fun _ => ?_
    simp only [List.mem_append, List.mem_singleton]
    constructor
    · rintro ⟨h₁, h₂⟩ e' (he | rfl)
      exacts [h₁ e' he, h₂]
    · exact fun hall => ⟨fun e' he => hall e' (.inl he), hall e (.inr rfl)⟩
  · intro q c' hc'
    rw [hs₂] at hc'
    obtain ⟨c₁, hc₁, heq₁⟩ := hcallbacks q c' hc'
    rw [show ({ s₁ with log := _ } : BrowserSide).callbacks = s'.callbacks from hcb] at hc₁
    obtain ⟨c, hc, heq⟩ := h.callbacks q c₁ hc₁
    exact ⟨c, hc, heq₁.trans heq⟩

theorem detached_foldl (es : List (Int32 × Int64 × QueryInfo)) : ∀ {es₀ s'}, Detached config s s' es₀ notify →
    Detached config s (es.foldl (fun s e => s.cancelQuery config e.2.1 e.2.2 notify) s') (es₀ ++ es) notify := by
  induction es with
  | nil =>
    intro es₀ s' h
    rwa [List.append_nil]
  | cons e es ih =>
    intro es₀ s' h
    rw [List.append_cons]
    exact ih (h.cancelQuery e)

/-- What canceling the queries `es` does. -/
structure CancelsAll (config : Config) (s s' : BrowserSide) (es : List (Int32 × Int64 × QueryInfo)) (notify : Bool) :
    Prop extends Detached config s s' es notify where
  nodup : es.Nodup
  subset : es ⊆ s.queries
  queries : ∀ e, e ∈ s'.queries ↔ e ∈ s.queries ∧ e ∉ es

theorem nodup_queries (s : BrowserSide) : s.queries.Nodup := s.browserQueryInfoMap.nodup_entries.of_map _

/-- Of the browser and the handler. -/
def For (browserId : Option Int32) (handler : Option Nat) (e : Int32 × Int64 × QueryInfo) : Bool :=
  browserId.all (e.1 = ·) && handler.all (e.2.2.handler = ·)

theorem cancelsAll_of_entries {m : CefBrowserInfoMap Int64 QueryInfo} (hnodup : es.Nodup) (hsub : es ⊆ s.queries)
    (hm : ∀ e, e ∈ m.entries ↔ e ∈ s.queries ∧ e ∉ es) :
    CancelsAll config s { es.foldl (fun s e => s.cancelQuery config e.2.1 e.2.2 notify) s with
      browserQueryInfoMap := m } es notify := by
  have hd := detached_foldl es (Detached.refl : Detached config s s [] notify)
  rw [List.nil_append] at hd
  exact { hd with nodup := hnodup, subset := hsub, queries := hm }

theorem cancelPendingFor_spec (config : Config) (s : BrowserSide) (browserId : Option Int32) (handler : Option Nat)
    (notify : Bool) : CancelsAll config s (s.cancelPendingFor config browserId handler notify)
      (s.queries.filter (For browserId handler)) notify := by
  unfold cancelPendingFor
  split
  · rename_i hempty
    have hnil := CefBrowserInfoMap.empty_iff.1 hempty
    unfold queries
    rw [hnil]
    exact { (Detached.refl : Detached config s s [] notify) with
      nodup := .nil
      subset := List.nil_subset _
      queries := fun e => ⟨fun he => ⟨he, List.not_mem_nil⟩, And.left⟩ }
  · have hvisit : ∀ (e : Int32 × Int64 × QueryInfo) (s : BrowserSide),
        (if browserId.all (e.1 = ·) then pendingForVisitor config handler notify e.1 e.2 s else pass s) =
          if For browserId handler e then { remove := true, state := s.cancelQuery config e.2.1 e.2.2 notify }
          else pass s := by
      intro e s
      unfold pendingForVisitor For
      cases browserId.all (e.1 = ·) <;> cases handler.all (e.2.2.handler = ·) <;> rfl
    have hflat := visitAll_filter (l := s.queries) (s := s) hvisit
    have hof : ∀ m : CefBrowserInfoMap Int64 QueryInfo, m.entries = (s.queries.filter fun e => !For browserId handler e) →
        CancelsAll config s { (s.queries.filter (For browserId handler)).foldl
          (fun s e => s.cancelQuery config e.2.1 e.2.2 notify) s with browserQueryInfoMap := m }
          (s.queries.filter (For browserId handler)) notify := by
      refine fun m hm => cancelsAll_of_entries (s.nodup_queries.filter _) (List.filter_sublist.subset) fun e => ?_
      rw [hm, List.mem_filter, List.mem_filter]
      cases For browserId handler e <;> simp
    cases browserId with
    | some browserId =>
      have hall := s.browserQueryInfoMap.findAllOf_eq browserId (pendingForVisitor config handler notify) s
      simp only [Option.all_some, decide_eq_true_eq] at hflat
      rw [hflat] at hall
      obtain ⟨h₁, h₂⟩ := Prod.mk.inj hall
      dsimp only
      rw [h₂]
      exact hof _ h₁
    | none =>
      have hall := s.browserQueryInfoMap.findAll_eq (pendingForVisitor config handler notify) s
      simp only [Option.all_none, if_true] at hflat
      rw [hflat] at hall
      obtain ⟨h₁, h₂⟩ := Prod.mk.inj hall
      dsimp only
      rw [h₂]
      exact hof _ h₁

/-- Of the browser and covered, the first of them if they are not all to be canceled. -/
theorem cancelPendingRequest_spec (config : Config) (s : BrowserSide) (browserId : Int32) (i : RequestId) :
    ∃ es, CancelsAll config s (s.cancelPendingRequest config browserId i) es false ∧
      (∀ e ∈ es, e.1 = browserId ∧ i.Covers e.2.2.id) ∧
      ∀ e ∈ s.queries, e.1 = browserId → i.Covers e.2.2.id → e ∈ es ∨ i.requestId ≠ kReservedId ∧
        ∃ e' ∈ es, e'.2.2.id = e.2.2.id := by
  have hcov : ∀ (e : Int32 × Int64 × QueryInfo) (s : BrowserSide),
      (if e.1 = browserId then pendingRequestVisitor config i e.1 e.2 s else pass s) =
        if decide (e.1 = browserId ∧ i.Covers e.2.2.id) = true then
          { remove := true, keepgoing := i.requestId = kReservedId, state := s.cancelQuery config e.2.1 e.2.2 false }
        else pass s := by
    intro e s
    unfold pendingRequestVisitor RequestId.Covers
    by_cases hb : e.1 = browserId <;> simp [hb]
  have hall := s.browserQueryInfoMap.findAllOf_eq browserId (pendingRequestVisitor config i) s
  obtain ⟨h₁, h₂⟩ := Prod.mk.inj hall
  unfold cancelPendingRequest
  dsimp only
  rw [h₂]
  by_cases hzero : i.requestId = kReservedId
  · have hvisit := visitAll_filter (l := s.queries) (s := s)
      (p := fun e => decide (e.1 = browserId ∧ i.Covers e.2.2.id))
      (f := fun s e => s.cancelQuery config e.2.1 e.2.2 false)
      (v := fun e s => if e.1 = browserId then pendingRequestVisitor config i e.1 e.2 s else pass s)
      (fun e s => by rw [hcov, decide_eq_true hzero])
    rw [hvisit] at h₁ ⊢
    refine ⟨s.queries.filter fun e => decide (e.1 = browserId ∧ i.Covers e.2.2.id),
      cancelsAll_of_entries (s.nodup_queries.filter _) (List.filter_sublist.subset) fun e => ?_, fun e he => ?_,
      fun e he hb hc => .inl ?_⟩
    · rw [h₁, List.mem_filter, List.mem_filter]
      cases decide (e.1 = browserId ∧ i.Covers e.2.2.id) <;> simp
    · exact of_decide_eq_true (List.mem_filter.1 he).2
    · exact List.mem_filter.2 ⟨he, decide_eq_true ⟨hb, hc⟩⟩
  · have hvisit := visitAll_first (l := s.queries) (s := s)
      (p := fun e => decide (e.1 = browserId ∧ i.Covers e.2.2.id))
      (f := fun s e => s.cancelQuery config e.2.1 e.2.2 false)
      (v := fun e s => if e.1 = browserId then pendingRequestVisitor config i e.1 e.2 s else pass s)
      (fun e s => by rw [hcov, decide_eq_false hzero])
    rw [hvisit.1] at h₁
    rw [hvisit.2]
    generalize hfind : s.queries.find? (fun e => decide (e.1 = browserId ∧ i.Covers e.2.2.id)) = o
    refine ⟨o.toList, cancelsAll_of_entries ?_ ?_ fun e => ?_, fun e he => ?_, fun e he hb hc => .inr ⟨hzero, ?_⟩⟩
    · cases o <;> simp
    · intro e he
      obtain rfl := Option.mem_toList.1 he
      exact List.mem_of_find?_eq_some hfind
    · rw [h₁, mem_eraseP_iff s.nodup_queries, hfind]
      refine and_congr_right fun _ => not_congr ?_
      rw [Option.mem_toList]
    · obtain rfl := Option.mem_toList.1 he
      simpa using List.find?_some hfind
    · cases o with
      | none =>
        have := List.find?_eq_none.1 hfind e he
        exact absurd (decide_eq_true ⟨hb, hc⟩) this
      | some e' =>
        have hcov' : e'.1 = browserId ∧ i.Covers e'.2.2.id := by simpa using List.find?_some hfind
        refine ⟨e', by simp, ?_⟩
        obtain ⟨hc₁, hr₁⟩ := hcov'.2
        obtain ⟨hc₂, hr₂⟩ := hc
        have := (hr₁.resolve_left hzero).trans (hr₂.resolve_left hzero).symm
        cases he₁ : e'.2.2.id
        cases he₂ : e.2.2.id
        simp_all

theorem getQueryInfo_spec (config : Config) (s s' : BrowserSide) (browserId : Int32) (queryId : Int64) (r : Reply)
    (alwaysRemove : Bool)
    (hclosing : ∀ info : QueryInfo, (alwaysRemove || !info.persistent) = r.closing info.persistent)
    (hsome : ∀ info, (s.getQueryInfo browserId queryId alwaysRemove).1 = some info →
      s' = (s.getQueryInfo browserId queryId alwaysRemove).2.sendReply config info.browserId info.id r)
    (hnone : (s.getQueryInfo browserId queryId alwaysRemove).1 = none →
      s' = (s.getQueryInfo browserId queryId alwaysRemove).2) : ∃ m rs,
      s' = { s with browserQueryInfoMap := m, sent := s.sent ++ rs } ∧
      m.entries = (s.queries.filter fun e => !(e.1 = browserId ∧ e.2.1 = queryId ∧ r.closing e.2.2.persistent)) ∧
      (∀ info, (browserId, queryId, info) ∈ s.queries → rs = [(info.browserId, replyMessage config info.id r)]) ∧
      ((∀ info, (browserId, queryId, info) ∉ s.queries) → rs = []) := by
  have hfind := s.browserQueryInfoMap.find_eq browserId queryId fun info => alwaysRemove || !info.persistent
  unfold getQueryInfo at hsome hnone
  simp only [hclosing] at hfind hsome hnone
  obtain ⟨hinfo, hentries⟩ := hfind
  cases hget : (s.browserQueryInfoMap.find browserId queryId fun info => r.closing info.persistent).1 with
  | none =>
    refine ⟨_, [], (hnone hget).trans ?_, hentries, fun info hmem => ?_, fun _ => rfl⟩
    · rw [List.append_nil]
    · rw [(hinfo info).2 hmem] at hget
      cases hget
  | some info =>
    have hmem := (hinfo info).1 hget
    refine ⟨_, _, hsome info hget, hentries, fun info' hmem' => ?_, fun hno => absurd hmem (hno info)⟩
    rw [CefBrowserInfoMap.eq_of_mem_entries hmem' hmem]

/-- A query that is not kept any more is nothing to the task. -/
theorem runTask_spec (config : Config) (s : BrowserSide) (t : UiTask) : ∃ m rs, s.runTask config t =
      { s with browserQueryInfoMap := m, sent := s.sent ++ rs } ∧
      m.entries = (s.queries.filter fun e =>
        !(e.1 = t.browserId ∧ e.2.1 = t.queryId ∧ t.reply.closing e.2.2.persistent)) ∧
      (∀ info, (t.browserId, t.queryId, info) ∈ s.queries →
        rs = [(info.browserId, replyMessage config info.id t.reply)]) ∧
      ((∀ info, (t.browserId, t.queryId, info) ∉ s.queries) → rs = []) := by
  obtain ⟨browserId, queryId, r⟩ := t
  have hpair : ∀ alwaysRemove, s.getQueryInfo browserId queryId alwaysRemove =
      ((s.getQueryInfo browserId queryId alwaysRemove).1, (s.getQueryInfo browserId queryId alwaysRemove).2) :=
    fun _ => rfl
  cases r with
  | success response =>
    refine getQueryInfo_spec config s _ browserId queryId (.success response) false (fun _ => rfl) (fun info hinfo => ?_)
      fun hnone => ?_
    · show s.onCallbackSuccess config browserId queryId response = _
      unfold onCallbackSuccess
      rw [hpair, hinfo]
    · show s.onCallbackSuccess config browserId queryId response = _
      unfold onCallbackSuccess
      rw [hpair, hnone]
  | failure errorCode errorMessage =>
    refine getQueryInfo_spec config s _ browserId queryId (.failure errorCode errorMessage) true (fun _ => rfl)
      (fun info hinfo => ?_) fun hnone => ?_
    · show s.onCallbackFailure config browserId queryId errorCode errorMessage = _
      unfold onCallbackFailure
      rw [hpair, hinfo]
    · show s.onCallbackFailure config browserId queryId errorCode errorMessage = _
      unfold onCallbackFailure
      rw [hpair, hnone]

end BrowserSide

end CefMessageRouter

end NplBrowser
