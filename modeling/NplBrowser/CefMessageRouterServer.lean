import NplBrowser.CefMessageRouterQueries
import NplBrowser.Lib.MachineInt
import NplBrowser.Lib.Request

/-!
# One request on the browser side

The invariant of the query IDs, and how one request fares: the browser side is the server of `Request`, a
query that is kept being a request that is pending there. Callbacks and cancellations are steps of the
server, or do not concern it.
-/

namespace NplBrowser

open Visit Counter

namespace CefMessageRouter

namespace BrowserSide

variable {config : Config} {s s' : BrowserSide} {b browserId : Int32} {id i : RequestId} {q queryId : Int64}
  {info : QueryInfo} {c : CallbackImpl} {n : Nat} {es : List (Int32 × Int64 × QueryInfo)} {notify : Bool}

/-! ### Query IDs -/

def Received (s : BrowserSide) (q : Int64) (b : Int32) (query : Query) : Prop := .received q b query ∈ s.log

/-- At most `n` queries have been given IDs. -/
structure Inv (n : Nat) (s : BrowserSide) : Prop where
  queryIds : Given Int64.ofNat n s.queryIdGenerator fun q => ∃ b query, s.Received q b query
  unique : ∀ q b query b' query', s.Received q b query → s.Received q b' query' → b = b' ∧ query = query'
  callback : ∀ q c, Assoc.find? q s.callbacks = some c → c.queryId = q ∧
    ∃ query, s.Received q c.browserId query ∧ c.persistent = query.persistent
  kept : ∀ b q info, (b, q, info) ∈ s.queries → info.browserId = b ∧
    ∃ query, s.Received q b query ∧ info.id = query.id ∧ info.persistent = query.persistent
  task : ∀ t ∈ s.tasks, ∃ query, s.Received t.queryId t.browserId query
  replied : ∀ q r, .replied q r ∈ s.log → ∃ b query, s.Received q b query

theorem Inv.init : Inv 0 ({} : BrowserSide) where
  queryIds := .init counts_int64 (by simp [Received])
  unique := by simp [Received]
  callback := by simp
  kept := fun b q info h => absurd h (List.not_mem_nil (a := (b, q, info)))
  task := by simp
  replied := by simp

theorem Inv.mono {n' : Nat} (h : Inv n s) (hn : n ≤ n') : Inv n' s :=
  { h with queryIds := h.queryIds.mono hn fun _ hq => hq }

/-- What a call that gives no query an ID leaves as it is. -/
theorem Inv.of (h : Inv n s) (hgen : s'.queryIdGenerator = s.queryIdGenerator)
    (hlog : ∃ l, s'.log = s.log ++ l ∧ (∀ q b query, .received q b query ∉ l) ∧
      ∀ q r, .replied q r ∈ l → ∃ b query, s.Received q b query)
    (hcallback : ∀ q c', Assoc.find? q s'.callbacks = some c' →
      ∃ c, Assoc.find? q s.callbacks = some c ∧ { c' with router := true } = { c with router := true })
    (hkept : ∀ b q info, (b, q, info) ∈ s'.queries → (b, q, info) ∈ s.queries ∨ info.browserId = b ∧
      ∃ query, s.Received q b query ∧ info.id = query.id ∧ info.persistent = query.persistent)
    (htask : ∀ t ∈ s'.tasks, t ∈ s.tasks ∨ ∃ query, s.Received t.queryId t.browserId query) : Inv n s' := by
  obtain ⟨l, hl, hno, hreplied⟩ := hlog
  have hreceived : ∀ q b query, s'.Received q b query ↔ s.Received q b query := by
    intro q b query
    unfold Received
    rw [hl, List.mem_append, or_iff_left (hno q b query)]
  refine ⟨?_, ?_, ?_, ?_, ?_, ?_⟩
  · rw [hgen]
    simp only [hreceived]
    exact h.queryIds
  · simp only [hreceived]
    exact h.unique
  · intro q c' hc'
    simp only [hreceived]
    obtain ⟨c, hc, heq⟩ := hcallback q c' hc'
    obtain ⟨hq, hquery⟩ := h.callback q c hc
    simp only [CallbackImpl.mk.injEq] at heq
    obtain ⟨hb, hid, hp, -⟩ := heq
    rw [hb, hid, hp]
    exact ⟨hq, hquery⟩
  · intro b q info hinfo
    simp only [hreceived]
    exact (hkept b q info hinfo).elim (h.kept b q info) fun hk => hk
  · intro t ht
    simp only [hreceived]
    exact (htask t ht).elim (h.task t) fun hk => hk
  · intro q r hmem
    simp only [hreceived]
    rw [hl, List.mem_append] at hmem
    exact hmem.elim (h.replied q r) (hreplied q r)

/-! ### One request -/

/-- A message to the renderer process that has a reply to the request. -/
def downOf (config : Config) (b : Int32) (id : RequestId) (e : Int32 × CefProcessMessage) : Option Reply :=
  (ToRenderer.read config e.2).bind fun r => if e.1 = b ∧ r.id = id then some r.reply else none

theorem downOf_reply {r : Reply} :
    downOf config b id (browserId, replyMessage config i r) = if browserId = b ∧ i = id then some r else none := by
  unfold downOf
  rw [read_replyMessage]
  rfl

theorem filterMap_downOf (l : List (Int32 × CefProcessMessage)) (r : Reply) :
    (l ++ [(browserId, replyMessage config i r)]).filterMap (downOf config b id) =
      l.filterMap (downOf config b id) ++ if browserId = b ∧ i = id then [r] else [] := by
  rw [List.filterMap_append, List.filterMap_cons, downOf_reply]
  by_cases hk : browserId = b ∧ i = id <;> simp [hk]

abbrev down (config : Config) (b : Int32) (id : RequestId) (s : BrowserSide) : List Reply :=
  s.sent.filterMap (downOf config b id)

/-- A task that has a reply to the query, if the request has become one. -/
def taskOf (o : Option Int64) (t : UiTask) : Option Reply := if o = some t.queryId then some t.reply else none

/-- What the callback of the query has been executed with. -/
def answerOf (o : Option Int64) : HandlerEvent → Option Reply
  | .replied q r => if o = some q then some r else none
  | _ => none

/-- The request at the server of `a`, where it has become the query `o`. -/
structure Server (b : Int32) (id : RequestId) (persistent : Bool) (o : Option Int64) (s : BrowserSide)
    (a : Request.State Reply) : Prop where
  received : ∀ q, (∃ query, s.Received q b query ∧ query.id = id) ↔ o = some q
  persistent : ∀ q query, s.Received q b query → query.id = id → query.persistent = persistent
  idle : a.server = .idle → o = none
  unasked : o = none → a.server = .idle ∨ a.server = .done
  answers : a.answers = s.log.filterMap (answerOf o)
  attached : a.attached = true ↔ ∃ q, o = some q ∧ s.Attached q
  outbox : a.server ≠ .done → a.outbox = s.tasks.filterMap (taskOf o)
  pending : ∀ q info, (b, q, info) ∈ s.queries → info.id = id → o = some q ∧ a.server = .pending
  entry : a.server = .pending → ∃ q info, o = some q ∧ (b, q, info) ∈ s.queries ∧ info.id = id
  dropped : a.dropped = true → ∃ q h f, o = some q ∧ .onQueryCanceled h b f q false ∈ s.log

/-- The server part of the request has moved on. -/
structure Serves (config : Config) (b : Int32) (id : RequestId) (persistent : Bool) (s s' : BrowserSide)
    (a a' : Request.State Reply) : Prop where
  run : ∃ es, Lts.exec (Request.step (Reply.closing persistent) canceled) a es = some a'
  client : a'.client = a.client
  up : a'.up = a.up
  seen : a'.seen = a.seen
  down : ∃ rs, a'.down = a.down ++ rs ∧ s'.down config b id = s.down config b id ++ rs
  asking : a'.server = .asking ↔ a.server = .asking

variable {persistent : Bool} {o : Option Int64} {a a' a'' : Request.State Reply} {s'' : BrowserSide}

theorem Serves.refl (hdown : s'.down config b id = s.down config b id) : Serves config b id persistent s s' a a where
  run := ⟨[], rfl⟩
  client := rfl
  up := rfl
  seen := rfl
  down := ⟨[], (List.append_nil _).symm, by rw [hdown, List.append_nil]⟩
  asking := Iff.rfl

theorem Serves.trans (h : Serves config b id persistent s s' a a') (h' : Serves config b id persistent s' s'' a' a'') :
    Serves config b id persistent s s'' a a'' where
  run := by
    obtain ⟨es, hes⟩ := h.run
    obtain ⟨es', hes'⟩ := h'.run
    exact ⟨es ++ es', Lts.exec_append hes hes'⟩
  client := h'.client.trans h.client
  up := h'.up.trans h.up
  seen := h'.seen.trans h.seen
  down := by
    obtain ⟨rs, ha, hs⟩ := h.down
    obtain ⟨rs', ha', hs'⟩ := h'.down
    exact ⟨rs ++ rs', by rw [ha', ha, List.append_assoc], by rw [hs', hs, List.append_assoc]⟩
  asking := h'.asking.trans h.asking

/-- What does not concern the request. -/
theorem Server.of (h : Server b id persistent o s a) {l : List HandlerEvent} (hlog : s'.log = s.log ++ l)
    (hno : ∀ q query, .received q b query ∈ l → query.id ≠ id) (hanswers : l.filterMap (answerOf o) = [])
    (hattached : ∀ q, o = some q → (s'.Attached q ↔ s.Attached q))
    (htasks : a.server ≠ .done → s'.tasks.filterMap (taskOf o) = s.tasks.filterMap (taskOf o))
    (hqueries : ∀ q info, info.id = id → ((b, q, info) ∈ s'.queries ↔ (b, q, info) ∈ s.queries)) :
    Server b id persistent o s' a where
  received q := by
    rw [← h.received q]
    refine exists_congr fun query => and_congr_left fun hid => ?_
    unfold Received
    rw [hlog, List.mem_append]
    exact or_iff_left fun hmem => hno q query hmem hid
  persistent q query hmem hid := by
    unfold Received at hmem
    rw [hlog, List.mem_append] at hmem
    exact h.persistent q query (hmem.resolve_right fun hmem => hno q query hmem hid) hid
  idle := h.idle
  unasked := h.unasked
  answers := by rw [hlog, List.filterMap_append, hanswers, List.append_nil]; exact h.answers
  attached := by
    rw [h.attached]
    exact exists_congr fun q => and_congr_right fun hq => (hattached q hq).symm
  outbox hd := by rw [htasks hd]; exact h.outbox hd
  pending q info hmem hid := h.pending q info ((hqueries q info hid).1 hmem) hid
  entry hp := by
    obtain ⟨q, info, hq, hmem, hid⟩ := h.entry hp
    exact ⟨q, info, hq, (hqueries q info hid).2 hmem, hid⟩
  dropped hd := by
    obtain ⟨q, h', f, hq, hmem⟩ := h.dropped hd
    exact ⟨q, h', f, hq, by rw [hlog]; exact List.mem_append_left _ hmem⟩

/-! ### Callbacks -/

theorem Inv.reply (h : Inv n s) (q : Int64) (r : Reply) : Inv n (s.reply q r) := by
  by_cases ha : s.Attached q
  · obtain ⟨c, hc, hrouter⟩ := ha
    rw [reply_of_find r hc hrouter]
    have hreceived : ∃ query, s.Received q c.browserId query := (h.callback q c hc).2.imp fun _ hq => hq.1
    refine h.of rfl ⟨_, rfl, by simp, fun q' r' hmem => ?_⟩ ?_ (fun _ _ _ hk => .inl hk) fun t ht => ?_
    · have heq := List.mem_singleton.1 hmem
      cases heq
      exact ⟨_, hreceived⟩
    · intro q' c' hc'
      dsimp only at hc'
      split at hc'
      · by_cases hq : q' = q
        · subst hq
          rw [Assoc.find?_insert_self, Option.some.injEq] at hc'
          subst hc'
          exact ⟨c, hc, rfl⟩
        · rw [Assoc.find?_insert_ne hq] at hc'
          exact ⟨c', hc', rfl⟩
      · exact ⟨c', hc', rfl⟩
    · rcases List.mem_append.1 ht with ht | ht
      · exact .inl ht
      · rw [List.mem_singleton.1 ht]
        obtain ⟨hq, query, hquery, -⟩ := h.callback q c hc
        exact .inr ⟨query, hq.symm ▸ hquery⟩
  · rwa [reply_of_not r ha]

/-- The query of the callback is the request. -/
theorem Server.callback (h : Server b id persistent (some q) s a) (hi : Inv n s) (hc : Assoc.find? q s.callbacks = some c) :
    c.queryId = q ∧ c.browserId = b ∧ c.persistent = persistent := by
  obtain ⟨hq, query, hquery, hp⟩ := hi.callback q c hc
  obtain ⟨query', hquery', hid⟩ := (h.received q).2 rfl
  obtain ⟨hb, rfl⟩ := hi.unique _ _ _ _ _ hquery hquery'
  exact ⟨hq, hb, hp.trans (h.persistent q query hquery' hid)⟩

theorem Server.reply (h : Server b id persistent o s a) (hi : Inv n s) (q : Int64) (r : Reply) :
    ∃ a', Serves config b id persistent s (s.reply q r) a a' ∧ Server b id persistent o (s.reply q r) a' := by
  by_cases ha : s.Attached q
  · obtain ⟨c, hc, hrouter⟩ := ha
    have hs' := reply_of_find r hc hrouter
    have hreceived : ∀ q' b' query, HandlerEvent.received q' b' query ∈ s.log ++ [.replied q r] →
        s.Received q' b' query := by
      intro q' b' query hmem
      rcases List.mem_append.1 hmem with hmem | hmem
      exacts [hmem, absurd (List.mem_singleton.1 hmem) (by simp)]
    by_cases ho : o = some q
    · subst ho
      obtain ⟨hq, -, hp⟩ := h.callback hi hc
      have hatt : a.attached = true := h.attached.2 ⟨q, rfl, c, hc, hrouter⟩
      refine ⟨{ a with answers := a.answers ++ [r], outbox := a.outbox ++ [r], attached := !r.closing persistent },
        ⟨⟨[.reply r], ?_⟩, rfl, rfl, rfl, ⟨[], (List.append_nil _).symm, ?_⟩, Iff.rfl⟩, ?_⟩
      · rw [Lts.exec_cons (if_pos hatt)]
        rfl
      · rw [hs', List.append_nil]
      · rw [hs']
        refine ⟨fun q' => ?_, fun q' query hmem => h.persistent q' query (hreceived _ _ _ hmem), h.idle, h.unasked,
          ?_, ?_, fun hd => ?_, h.pending, h.entry, fun hd => ?_⟩
        · rw [← h.received q']
          exact exists_congr fun query => and_congr_left fun _ =>
            ⟨hreceived _ _ _, fun hmem => List.mem_append_left _ hmem⟩
        · show a.answers ++ [r] = List.filterMap (answerOf (some q)) (s.log ++ [.replied q r])
          rw [List.filterMap_append, h.answers]
          simp [answerOf]
        · dsimp only
          rw [hp]
          constructor
          · intro hr
            refine ⟨q, rfl, c, ?_, hrouter⟩
            rw [Bool.not_eq_true'] at hr
            show Assoc.find? q (if r.closing persistent = true then _ else _) = _
            rw [hr]
            exact hc
          · rintro ⟨q', hq', c', hc', hr'⟩
            cases hq'
            dsimp only at hc'
            cases hr : r.closing persistent with
            | false => rfl
            | true =>
              rw [hr, if_pos rfl, Assoc.find?_insert_self, Option.some.injEq] at hc'
              rw [← hc'] at hr'
              cases hr'
        · show a.outbox ++ [r] = List.filterMap (taskOf (some q)) (s.tasks ++ [_])
          rw [List.filterMap_append, h.outbox hd]
          simp [taskOf, hq]
        · obtain ⟨q', h', f, hq', hmem⟩ := h.dropped hd
          exact ⟨q', h', f, hq', List.mem_append_left _ hmem⟩
    · have hq := (hi.callback q c hc).1
      refine ⟨a, .refl (by rw [hs']), ?_⟩
      rw [hs']
      refine h.of rfl (by simp) (by simp [answerOf, ho]) (fun q' hq' => ?_) (fun _ => ?_) fun _ _ _ => Iff.rfl
      · have hne : q' ≠ q := fun heq => ho (heq ▸ hq')
        unfold Attached
        dsimp only
        split
        · rw [Assoc.find?_insert_ne hne]
        · exact Iff.rfl
      · rw [List.filterMap_append]
        simp [taskOf, hq, ho]
  · rw [reply_of_not r ha]
    exact ⟨a, .refl rfl, h⟩

/-! ### Canceling -/

theorem Inv.cancelsAll (h : Inv n s) (hc : CancelsAll config s s' es notify) : Inv n s' := by
  refine h.of hc.queryIdGenerator ⟨_, hc.log, by simp, by simp⟩ hc.callbacks ?_ fun t ht => .inl (hc.tasks ▸ ht)
  exact fun b q info hmem => .inl ((hc.queries _).1 hmem).1

/-- The request is at most one of the queries. -/
theorem Server.entry_unique (h : Server b id persistent o s a) {e e' : Int32 × Int64 × QueryInfo} (he : e ∈ s.queries)
    (he' : e' ∈ s.queries) (hk : e.1 = b ∧ e.2.2.id = id) (hk' : e'.1 = b ∧ e'.2.2.id = id) : e = e' := by
  obtain ⟨b₁, q₁, info₁⟩ := e
  obtain ⟨b₂, q₂, info₂⟩ := e'
  obtain ⟨rfl, hid⟩ := hk
  obtain ⟨rfl, hid'⟩ := hk'
  have hq := (h.pending q₁ info₁ he hid).1
  have hq' := (h.pending q₂ info₂ he' hid').1
  cases hq.symm.trans hq'
  rw [CefBrowserInfoMap.eq_of_mem_entries he he']

theorem filterMap_unique {α β : Type} {l : List α} {p : α → Prop} [DecidablePred p] {x : β} (hl : l.Nodup)
    (hp : ∀ e ∈ l, ∀ e' ∈ l, p e → p e' → e = e') :
    l.filterMap (fun e => if p e then some x else none) = if ∃ e ∈ l, p e then [x] else [] := by
  split
  · rename_i hex
    obtain ⟨e, he, hpe⟩ := hex
    obtain ⟨l₁, l₂, rfl⟩ := List.append_of_mem he
    have hnot := (List.nodup_cons.1 (List.nodup_middle.1 hl)).1
    have hnil : ∀ m : List α, m ⊆ l₁ ++ l₂ → m.filterMap (fun e => if p e then some x else none) = [] := by
      refine fun m hm => List.filterMap_eq_nil_iff.2 fun e' he' => if_neg fun hpe' => hnot ?_
      have hmem : e' ∈ l₁ ++ e :: l₂ := by
        rcases List.mem_append.1 (hm he') with h | h
        exacts [List.mem_append_left _ h, List.mem_append_right _ (.tail _ h)]
      exact hp e' hmem e he hpe' hpe ▸ hm he'
    rw [List.filterMap_append, List.filterMap_cons, if_pos hpe, hnil l₁ (List.subset_append_left _ _),
      hnil l₂ (List.subset_append_right _ _)]
    rfl
  · rename_i hno
    exact List.filterMap_eq_nil_iff.2 fun e he => if_neg fun hpe => hno ⟨e, he, hpe⟩

theorem Server.down_cancelsAll (h : Server b id persistent o s a) (hi : Inv n s)
    (hc : CancelsAll config s s' es notify) : s'.down config b id = s.down config b id ++
      if notify = true ∧ ∃ e ∈ es, e.1 = b ∧ e.2.2.id = id then [canceled] else [] := by
  unfold down
  rw [hc.sent, List.filterMap_append]
  cases notify with
  | false => simp
  | true =>
    rw [if_pos rfl, List.filterMap_map]
    have hcongr : es.filterMap (downOf config b id ∘ fun e => (e.2.2.browserId, replyMessage config e.2.2.id canceled)) =
        es.filterMap fun e => if e.1 = b ∧ e.2.2.id = id then some canceled else none := by
      refine List.filterMap_congr fun e he => ?_
      rw [Function.comp_apply, downOf_reply, (hi.kept e.1 e.2.1 e.2.2 (hc.subset he)).1]
    rw [hcongr, filterMap_unique hc.nodup fun e he e' he' hk hk' =>
      h.entry_unique (hc.subset he) (hc.subset he') hk hk']
    congr 1
    simp only [true_and]

/-- The request is one of those canceled. -/
theorem Server.of_canceled (h : Server b id persistent o s a) (hi : Inv n s) (hc : CancelsAll config s s' es notify)
    (he : ∃ e ∈ es, e.1 = b ∧ e.2.2.id = id) (up : List Request.Up) (dropped : Bool) (rs : List Reply)
    (hdropped : dropped = true → a.dropped = true ∨ notify = false) :
    a.server = .pending ∧ Server b id persistent o s'
      (({ a with up := up, dropped := dropped } : Request.State Reply).finish.respond rs) := by
  obtain ⟨⟨b', q, info⟩, hmem, hb, hid⟩ := he
  obtain rfl : b' = b := hb
  obtain ⟨rfl, hp⟩ := h.pending q info (hc.subset hmem) hid
  have hreceived : ∀ q' b query, s'.Received q' b query ↔ s.Received q' b query := by
    intro q' b query
    unfold Received
    rw [hc.log, List.mem_append]
    exact or_iff_left (by simp)
  refine ⟨hp, fun q' => ?_, fun q' query hquery => ?_, nofun, fun _ => .inr rfl, ?_, ?_, ?_, ?_, nofun, ?_⟩
  · simp only [hreceived]
    exact h.received q'
  · exact h.persistent q' query ((hreceived _ _ _).1 hquery)
  · rw [hc.log, List.filterMap_append, List.filterMap_map]
    have hnil : es.filterMap (answerOf (some q) ∘ fun e => HandlerEvent.onQueryCanceled e.2.2.handler e.2.2.browserId
        (frameOf e.2.2.isMainFrame e.2.2.frameId) e.2.1 notify) = [] :=
      List.filterMap_eq_nil_iff.2 fun _ _ => rfl
    rw [hnil, List.append_nil]
    exact h.answers
  · refine iff_of_false nofun ?_
    rintro ⟨q', hq', hatt⟩
    cases hq'
    exact ((hc.attached q).1 hatt).2 _ hmem rfl
  · exact fun hd => absurd rfl hd
  · intro q' info' hmem' hid'
    obtain ⟨hold, hnot⟩ := (hc.queries _).1 hmem'
    have heq := h.entry_unique hold (hc.subset hmem) ⟨rfl, hid'⟩ ⟨rfl, hid⟩
    exact absurd (heq ▸ hmem) hnot
  · intro hd
    rcases hdropped hd with hd | hn
    · obtain ⟨q', h', f, hq', hlog⟩ := h.dropped hd
      exact ⟨q', h', f, hq', by rw [hc.log]; exact List.mem_append_left _ hlog⟩
    · refine ⟨q, info.handler, frameOf info.isMainFrame info.frameId, rfl, ?_⟩
      rw [hc.log, hn]
      refine List.mem_append_right _ (List.mem_map.2 ⟨_, hmem, ?_⟩)
      rw [← (hi.kept b' q info (hc.subset hmem)).1]

/-- It is not. -/
theorem Server.of_not_canceled (h : Server b id persistent o s a) (hi : Inv n s) (hc : CancelsAll config s s' es notify)
    (he : ¬ ∃ e ∈ es, e.1 = b ∧ e.2.2.id = id) : Server b id persistent o s' a := by
  refine h.of hc.log (by simp) ?_ ?_ (fun _ => by rw [hc.tasks]) ?_
  · rw [List.filterMap_map]
    exact List.filterMap_eq_nil_iff.2 fun _ _ => rfl
  · rintro q rfl
    rw [hc.attached]
    refine and_iff_left fun e hmem heq => he ⟨e, hmem, ?_⟩
    obtain ⟨hb, query, hquery, hid, -⟩ := hi.kept e.1 e.2.1 e.2.2 (hc.subset hmem)
    obtain ⟨query', hquery', hid'⟩ := (h.received q).2 rfl
    rw [heq] at hquery
    obtain ⟨rfl, rfl⟩ := hi.unique _ _ _ _ _ hquery hquery'
    exact ⟨rfl, hid.trans hid'⟩
  · intro q info hid
    rw [hc.queries]
    exact and_iff_left fun hmem => he ⟨_, hmem, rfl, hid⟩

theorem Server.cancelPendingFor (h : Server b id persistent o s a) (hi : Inv n s) (browserId : Option Int32)
    (handler : Option Nat) (notify : Bool) :
    ∃ a', Serves config b id persistent s (s.cancelPendingFor config browserId handler notify) a a' ∧
      Server b id persistent o (s.cancelPendingFor config browserId handler notify) a' := by
  have hc := cancelPendingFor_spec config s browserId handler notify
  have hdown := h.down_cancelsAll hi hc
  by_cases he : ∃ e ∈ s.queries.filter (For browserId handler), e.1 = b ∧ e.2.2.id = id
  · obtain ⟨hp, hserver⟩ := h.of_canceled hi hc he a.up (a.dropped || !notify) (if notify then [canceled] else [])
      (by cases notify <;> simp)
    refine ⟨_, ⟨⟨[.revoke notify], ?_⟩, ?_, ?_, ?_, ⟨if notify then [canceled] else [], ?_, ?_⟩, ?_⟩,
      hserver⟩
    · rw [Lts.exec_cons (if_pos hp)]
      cases notify with
      | true => simp [Lts.exec]
      | false =>
        rw [if_neg Bool.false_ne_true, if_neg Bool.false_ne_true, Request.State.respond_nil]
        simp [Lts.exec]
    · rfl
    · rfl
    · rfl
    · rfl
    · rw [hdown]
      simp only [he, and_true]
    · rw [hp]
      exact iff_of_false Request.State.done_ne_asking (by simp)
  · refine ⟨a, .refl ?_, h.of_not_canceled hi hc he⟩
    rw [hdown, if_neg fun hn => he hn.2, List.append_nil]

end BrowserSide

end CefMessageRouter

end NplBrowser
