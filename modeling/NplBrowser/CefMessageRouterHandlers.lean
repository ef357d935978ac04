import NplBrowser.CefMessageRouterRun

/-!
# To whom a query is offered

To which handlers a query is offered, which of them has it, and what it is told when the query is
canceled, over whole runs; and what is counted as pending.
-/

namespace NplBrowser

open Visit

namespace CefMessageRouter

/-- The handler that is asked the query. -/
def HandlerEvent.askedOf (q : Int64) : HandlerEvent → Option Nat
  | .onQuery h _ _ q' _ _ => if q' = q then some h else none
  | _ => none

def HandlerEvent.acceptedOf (q : Int64) : HandlerEvent → Option Nat
  | .accepted h q' => if q' = q then some h else none
  | _ => none

def HandlerEvent.canceledOf (q : Int64) : HandlerEvent → Option Nat
  | .onQueryCanceled h _ _ q' _ => if q' = q then some h else none
  | _ => none

namespace BrowserSide

open HandlerEvent

variable {config : Config} {s s' s'' : BrowserSide} {b browserId : Int32} {q : Int64} {info : QueryInfo} {n : Nat}
  {es : List (Int32 × Int64 × QueryInfo)} {notify : Bool} {query : Query} {h : Nat}

/-- The handlers that have been asked the query, in their order. -/
abbrev asked (s : BrowserSide) (q : Int64) : List Nat := s.log.filterMap (askedOf q)

abbrev accepting (s : BrowserSide) (q : Int64) : List Nat := s.log.filterMap (acceptedOf q)

/-- Those that have been told that the query is canceled. -/
abbrev told (s : BrowserSide) (q : Int64) : List Nat := s.log.filterMap (canceledOf q)

structure Offers (s : BrowserSide) : Prop where
  handlerSet : s.handlerSet.Pairwise (· < ·)
  /-- In the order of the addresses, and none twice. -/
  asked : ∀ q, (s.asked q).Pairwise (· < ·)
  /-- One handler at most accepts a query, and no other is asked then. -/
  accepting : ∀ q, s.accepting q = [] ∨ ∃ h, s.accepting q = [h] ∧ (s.asked q).getLast? = some h
  /-- Nobody but the handler that has the query is told that it is canceled, and once. -/
  told : ∀ q, s.told q = [] ∨ s.told q = s.accepting q
  kept : ∀ b q info, (b, q, info) ∈ s.queries → s.accepting q = [info.handler] ∧ s.told q = [] ∧
    ∀ query, s.Received q b query → info.frameId = query.frameId ∧ info.isMainFrame = query.isMainFrame
  onQuery : ∀ h b f q request persistent, .onQuery h b f q request persistent ∈ s.log → ∃ query, s.Received q b query ∧
    f = frameOf query.isMainFrame query.frameId ∧ request = query.request ∧ persistent = query.persistent
  onQueryCanceled : ∀ h b f q notified, .onQueryCanceled h b f q notified ∈ s.log → ∃ query, s.Received q b query ∧
    f = frameOf query.isMainFrame query.frameId

theorem Offers.init : Offers ({} : BrowserSide) where
  handlerSet := .nil
  asked _ := .nil
  accepting _ := .inl rfl
  told _ := .inl rfl
  kept b q info hmem := absurd hmem (List.not_mem_nil (a := (b, q, info)))
  onQuery := by simp
  onQueryCanceled := by simp

/-- A query that is not known has been offered to nobody. -/
theorem Offers.fresh (ho : Offers s) (hno : ∀ b query, ¬ s.Received q b query) :
    s.asked q = [] ∧ s.accepting q = [] ∧ s.told q = [] := by
  have hasked : s.asked q = [] := by
    refine List.filterMap_eq_nil_iff.2 fun e he => ?_
    match e, he with
    | .onQuery h b f q' request persistent, he =>
      refine if_neg ?_
      rintro rfl
      obtain ⟨query, hr, -⟩ := ho.onQuery _ _ _ _ _ _ he
      exact hno _ _ hr
    | .received .., _ => rfl
    | .accepted .., _ => rfl
    | .replied .., _ => rfl
    | .onQueryCanceled .., _ => rfl
  have haccepting : s.accepting q = [] := by
    rcases ho.accepting q with hnil | ⟨h, -, hlast⟩
    · exact hnil
    · rw [hasked] at hlast
      cases hlast
  exact ⟨hasked, haccepting, (ho.told q).elim id fun heq => heq.trans haccepting⟩

/-! ### Calls of handlers -/

/-- What is done while the query is being offered leaves alone to whom it has been offered. -/
structure Leaves (config : Config) (s s' : BrowserSide) : Prop extends Moves config s s' where
  asked : ∀ q, s'.asked q = s.asked q
  accepting : ∀ q, s'.accepting q = s.accepting q
  offers : ∀ n, Inv n s → Offers s → Offers s'

theorem Leaves.trans (h : Leaves config s s') (h' : Leaves config s' s'') : Leaves config s s'' :=
  { h.toMoves.trans h'.toMoves with
    asked := fun q => (h'.asked q).trans (h.asked q)
    accepting := fun q => (h'.accepting q).trans (h.accepting q)
    offers := fun n hi ho => h'.offers n (h.inv n hi) (h.offers n hi ho) }

/-- The events that say nothing of whom a query has been offered to. -/
theorem filterMap_log {l : List HandlerEvent} (hlog : s'.log = s.log ++ l)
    (hl : ∀ e ∈ l, ∀ q, askedOf q e = none ∧ acceptedOf q e = none) (q : Int64) :
    s'.asked q = s.asked q ∧ s'.accepting q = s.accepting q ∧ s'.told q = s.told q ++ l.filterMap (canceledOf q) := by
  unfold asked accepting told
  rw [hlog, List.filterMap_append, List.filterMap_append, List.filterMap_append,
    List.filterMap_eq_nil_iff.2 fun e he => (hl e he q).1, List.filterMap_eq_nil_iff.2 fun e he => (hl e he q).2,
    List.append_nil, List.append_nil]
  exact ⟨rfl, rfl, rfl⟩

/-- What neither offers a query nor takes one up, nor tells a handler anything. -/
theorem Offers.of {l : List HandlerEvent} (ho : Offers s) (hset : s'.handlerSet.Pairwise (· < ·))
    (hlog : s'.log = s.log ++ l) (hl : ∀ e ∈ l, ∃ q, (∃ b query, e = .received q b query) ∨ ∃ r, e = .replied q r)
    (hqueries : ∀ b q info, (b, q, info) ∈ s'.queries → (b, q, info) ∈ s.queries ∧
      ∀ query, HandlerEvent.received q b query ∉ l) : Offers s' := by
  have hnone : ∀ e ∈ l, ∀ q, (askedOf q e = none ∧ acceptedOf q e = none) ∧ canceledOf q e = none := by
    intro e he q
    obtain ⟨q', ⟨b, query, rfl⟩ | ⟨r, rfl⟩⟩ := hl e he <;> exact ⟨⟨rfl, rfl⟩, rfl⟩
  have hsame : ∀ q, s'.asked q = s.asked q ∧ s'.accepting q = s.accepting q ∧ s'.told q = s.told q := by
    intro q
    have := filterMap_log hlog (fun e he q => (hnone e he q).1) q
    rwa [List.filterMap_eq_nil_iff.2 fun e he => (hnone e he q).2, List.append_nil] at this
  have hreceived : ∀ q b query, s.Received q b query → s'.Received q b query := by
    intro q b query hr
    unfold Received
    rw [hlog]
    exact List.mem_append_left _ hr
  have hold : ∀ e, e ∈ s'.log → e ∈ s.log ∨ ∃ q, (∃ b query, e = .received q b query) ∨ ∃ r, e = .replied q r := by
    intro e he
    rw [hlog] at he
    exact (List.mem_append.1 he).imp_right (hl e)
  refine ⟨hset, fun q => ?_, fun q => ?_, fun q => ?_, fun b q info hmem => ?_,
    fun h b f q request persistent hmem => ?_, fun h b f q notified hmem => ?_⟩
  · rw [(hsame q).1]
    exact ho.asked q
  · rw [(hsame q).1, (hsame q).2.1]
    exact ho.accepting q
  · rw [(hsame q).2.1, (hsame q).2.2]
    exact ho.told q
  · obtain ⟨hmem, hnew⟩ := hqueries b q info hmem
    obtain ⟨haccepting, htold, hframe⟩ := ho.kept b q info hmem
    rw [(hsame q).2.1, (hsame q).2.2]
    refine ⟨haccepting, htold, fun query hr => hframe query ?_⟩
    unfold Received at hr
    rw [hlog] at hr
    exact (List.mem_append.1 hr).resolve_right (hnew query)
  · rcases hold _ hmem with hmem | ⟨_, ⟨_, _, heq⟩ | ⟨_, heq⟩⟩
    · obtain ⟨query, hr, hrest⟩ := ho.onQuery _ _ _ _ _ _ hmem
      exact ⟨query, hreceived _ _ _ hr, hrest⟩
    · cases heq
    · cases heq
  · rcases hold _ hmem with hmem | ⟨_, ⟨_, _, heq⟩ | ⟨_, heq⟩⟩
    · obtain ⟨query, hr, hrest⟩ := ho.onQueryCanceled _ _ _ _ _ hmem
      exact ⟨query, hreceived _ _ _ hr, hrest⟩
    · cases heq
    · cases heq

theorem leaves_reply (config : Config) (s : BrowserSide) (q : Int64) (r : Reply) : Leaves config s (s.reply q r) := by
  by_cases ha : s.Attached q
  · obtain ⟨c, hc, hrouter⟩ := ha
    have hmoves := moves_reply config s q r
    rw [reply_of_find r hc hrouter] at hmoves ⊢
    have hnone : ∀ e ∈ [HandlerEvent.replied q r], ∀ q, askedOf q e = none ∧ acceptedOf q e = none := by
      intro e he q
      obtain rfl := List.mem_singleton.1 he
      exact ⟨rfl, rfl⟩
    exact { hmoves with
      asked := fun q' => (filterMap_log rfl hnone q').1
      accepting := fun q' => (filterMap_log rfl hnone q').2.1
      offers := fun _ _ ho => ho.of ho.handlerSet rfl (fun e he => ⟨q, .inr ⟨r, List.mem_singleton.1 he⟩⟩)
        fun b q info hmem => ⟨hmem, by simp⟩ }
  · have hmoves := moves_reply config s q r
    rw [reply_of_not r ha] at hmoves ⊢
    exact { hmoves with asked := fun _ => rfl, accepting := fun _ => rfl, offers := fun _ _ ho => ho }

/-- Of queries that are kept, those with the same ID are one. -/
theorem Inv.eq_of_queryId (hi : Inv n s) {e e' : Int32 × Int64 × QueryInfo} (he : e ∈ s.queries) (he' : e' ∈ s.queries)
    (hq : e.2.1 = e'.2.1) : e = e' := by
  obtain ⟨b, q, info⟩ := e
  obtain ⟨b', q', info'⟩ := e'
  obtain rfl : q = q' := hq
  obtain ⟨-, query, hr, -⟩ := hi.kept _ _ _ he
  obtain ⟨-, query', hr', -⟩ := hi.kept _ _ _ he'
  obtain ⟨rfl, -⟩ := hi.unique _ _ _ _ _ hr hr'
  rw [CefBrowserInfoMap.eq_of_mem_entries he he']

theorem not_offered_canceled (es : List (Int32 × Int64 × QueryInfo)) (notify : Bool) :
    ∀ e ∈ es.map fun e => HandlerEvent.onQueryCanceled e.2.2.handler e.2.2.browserId
      (frameOf e.2.2.isMainFrame e.2.2.frameId) e.2.1 notify, ∀ q, askedOf q e = none ∧ acceptedOf q e = none := by
  intro e he q
  obtain ⟨_, _, rfl⟩ := List.mem_map.1 he
  exact ⟨rfl, rfl⟩

theorem CancelsAll.told (hi : Inv n s) (hc : CancelsAll config s s' es notify) (q : Int64) :
    s'.asked q = s.asked q ∧ s'.accepting q = s.accepting q ∧
      ((∀ e ∈ es, e.2.1 ≠ q) → s'.told q = s.told q) ∧
      ∀ e ∈ es, e.2.1 = q → s'.told q = s.told q ++ [e.2.2.handler] := by
  obtain ⟨hasked, haccepting, htold⟩ := filterMap_log hc.log (not_offered_canceled _ _) q
  rw [List.filterMap_map] at htold
  refine ⟨hasked, haccepting, fun hno => ?_, fun e he hq => ?_⟩
  · rw [htold, List.filterMap_eq_nil_iff.2, List.append_nil]
    exact fun e he => if_neg (hno e he)
  · have hcongr : es.filterMap (canceledOf q ∘ fun e => .onQueryCanceled e.2.2.handler e.2.2.browserId
        (frameOf e.2.2.isMainFrame e.2.2.frameId) e.2.1 notify) =
        es.filterMap fun e' => if e'.2.1 = q then some e.2.2.handler else none := by
      refine List.filterMap_congr fun e' he' => ?_
      rw [Function.comp_apply]
      unfold canceledOf
      by_cases hq' : e'.2.1 = q
      · rw [hi.eq_of_queryId (hc.subset he') (hc.subset he) (hq'.trans hq.symm)]
      · exact (if_neg hq').trans (if_neg hq').symm
    rw [htold, hcongr, filterMap_unique hc.nodup fun e₁ h₁ e₂ h₂ hq₁ hq₂ =>
      hi.eq_of_queryId (hc.subset h₁) (hc.subset h₂) (hq₁.trans hq₂.symm), if_pos ⟨e, he, hq⟩]

theorem Offers.cancelsAll (ho : Offers s) (hi : Inv n s) (hc : CancelsAll config s s' es notify) : Offers s' := by
  have hreceived := hc.calls.received
  refine ⟨?_, fun q => ?_, fun q => ?_, fun q => ?_, fun b q info hmem => ?_,
    fun h b f q request persistent hmem => ?_, fun h b f q notified hmem => ?_⟩
  · rw [hc.handlerSet]
    exact ho.handlerSet
  · rw [(hc.told hi q).1]
    exact ho.asked q
  · rw [(hc.told hi q).1, (hc.told hi q).2.1]
    exact ho.accepting q
  · obtain ⟨-, haccepting, hno, hyes⟩ := hc.told hi q
    rw [haccepting]
    by_cases hex : ∃ e ∈ es, e.2.1 = q
    · obtain ⟨e, he, rfl⟩ := hex
      obtain ⟨hacc, htold, -⟩ := ho.kept _ _ _ (hc.subset he)
      exact .inr (by rw [hyes e he rfl, htold, hacc]; rfl)
    · rw [hno fun e he hq => hex ⟨e, he, hq⟩]
      exact ho.told q
  · obtain ⟨hold, hnot⟩ := (hc.queries _).1 hmem
    obtain ⟨hacc, htold, hframe⟩ := ho.kept b q info hold
    obtain ⟨-, haccepting, hno, -⟩ := hc.told hi q
    rw [haccepting, hno fun e he hq => hnot (hi.eq_of_queryId (hc.subset he) hold hq ▸ he)]
    exact ⟨hacc, htold, fun query hr => hframe query ((hreceived q b query).1 hr)⟩
  · rw [hc.log] at hmem
    simp only [hreceived]
    exact ho.onQuery _ _ _ _ _ _ ((List.mem_append.1 hmem).resolve_right (by simp))
  · rw [hc.log] at hmem
    simp only [hreceived]
    rcases List.mem_append.1 hmem with hmem | hmem
    · exact ho.onQueryCanceled _ _ _ _ _ hmem
    · obtain ⟨e, he, heq⟩ := List.mem_map.1 hmem
      cases heq
      obtain ⟨hb, query, hr, -⟩ := hi.kept _ _ _ (hc.subset he)
      obtain ⟨-, -, hframe⟩ := ho.kept _ _ _ (hc.subset he)
      obtain ⟨hframeId, hmain⟩ := hframe query hr
      exact ⟨query, hb.symm ▸ hr, by rw [hframeId, hmain]⟩

theorem leaves_cancelPendingFor (config : Config) (s : BrowserSide) (browserId : Option Int32) (handler : Option Nat)
    (notify : Bool) : Leaves config s (s.cancelPendingFor config browserId handler notify) :=
  have hc := cancelPendingFor_spec config s browserId handler notify
  have hnone := filterMap_log hc.log (not_offered_canceled _ _)
  { moves_cancelPendingFor config s browserId handler notify with
    asked := fun q => (hnone q).1
    accepting := fun q => (hnone q).2.1
    offers := fun _ hi ho => ho.cancelsAll hi hc }

theorem leaves_handlerSet {handlerSet : List Nat} (config : Config) (s : BrowserSide)
    (h : s.handlerSet.Pairwise (· < ·) → handlerSet.Pairwise (· < ·)) : Leaves config s { s with handlerSet } :=
  { moves_handlerSet config s handlerSet with
    asked := fun _ => rfl
    accepting := fun _ => rfl
    offers := fun _ _ ho => { ho with handlerSet := h ho.handlerSet } }

theorem mem_insertSorted {h h' : Nat} {hs : List Nat} : h' ∈ insertSorted h hs ↔ h' = h ∨ h' ∈ hs := by
  induction hs with
  | nil => simp [insertSorted]
  | cons a hs ih =>
    unfold insertSorted
    split
    · exact List.mem_cons
    · split
      · rename_i heq
        subst heq
        simp
      · rw [List.mem_cons, ih, List.mem_cons]
        exact or_left_comm

theorem pairwise_insertSorted {h : Nat} {hs : List Nat} (hlt : hs.Pairwise (· < ·)) :
    (insertSorted h hs).Pairwise (· < ·) := by
  induction hs with
  | nil => exact List.pairwise_singleton _ _
  | cons a hs ih =>
    obtain ⟨ha, hhs⟩ := List.pairwise_cons.1 hlt
    unfold insertSorted
    split
    · rename_i hlt'
      refine List.pairwise_cons.2 ⟨fun x hx => ?_, hlt⟩
      rcases List.mem_cons.1 hx with rfl | hx
      exacts [hlt', Nat.lt_trans hlt' (ha x hx)]
    · split
      · exact hlt
      · refine List.pairwise_cons.2 ⟨fun x hx => ?_, ih hhs⟩
        rcases mem_insertSorted.1 hx with rfl | hx
        exacts [by omega, ha x hx]

theorem leaves_perform (config : Config) (s : BrowserSide) (action : HandlerAction) :
    Leaves config s (s.perform config action) := by
  cases action with
  | success q response => exact leaves_reply config s q (.success response)
  | failure q errorCode errorMessage => exact leaves_reply config s q (.failure errorCode errorMessage)
  | addHandler h first =>
    show Leaves config s (s.addHandler h first).2
    unfold addHandler
    split
    · exact leaves_handlerSet config s id
    · exact leaves_handlerSet config s pairwise_insertSorted
  | removeHandler h =>
    show Leaves config s (s.removeHandler config h).2
    unfold removeHandler
    split
    · exact (leaves_handlerSet config s fun hset => hset.sublist List.erase_sublist).trans
        (leaves_cancelPendingFor config _ none (some h) true)
    · exact leaves_handlerSet config s id
  | cancelPending browserId handler => exact leaves_cancelPendingFor config s browserId handler true

theorem leaves_foldl (config : Config) (actions : List HandlerAction) :
    ∀ s, Leaves config s (actions.foldl (perform config) s) := by
  induction actions with
  | nil => exact fun s => leaves_handlerSet config s id
  | cons action actions ih => exact fun s => (leaves_perform config s action).trans (ih _)

/-! ### What is pending -/

theorem getPendingCount_eq (s : BrowserSide) (browserId : Option Int32) (handler : Option Nat) :
    s.getPendingCount browserId handler = s.queries.countP (For browserId handler) := by
  have hvisit : ∀ (h : Nat) (e : Int32 × Int64 × QueryInfo) (n : Nat),
      handlerVisitor h e.1 e.2 n = if decide (e.2.2.handler = h) then { state := n + 1 } else pass n := by
    intro h e n
    unfold handlerVisitor
    by_cases hh : e.2.2.handler = h <;> simp [hh]
  unfold getPendingCount
  split
  · rename_i hempty
    rw [queries, CefBrowserInfoMap.empty_iff.1 hempty]
    rfl
  · cases handler with
    | some handler =>
      cases browserId with
      | some browserId =>
        have hall := congrArg Prod.snd (s.browserQueryInfoMap.findAllOf_eq browserId (handlerVisitor handler) 0)
        refine hall.trans ((visitAll_count (p := For (some browserId) (some handler)) fun e n => ?_).trans (Nat.zero_add _))
        rw [hvisit]
        unfold For
        by_cases hb : e.1 = browserId <;> simp [hb]
      | none =>
        have hall := congrArg Prod.snd (s.browserQueryInfoMap.findAll_eq (handlerVisitor handler) 0)
        refine hall.trans ((visitAll_count (p := For none (some handler)) fun e n => ?_).trans (Nat.zero_add _))
        rw [hvisit]
        simp [For]
    | none =>
      cases browserId with
      | some browserId =>
        refine (CefBrowserInfoMap.sizeOf_eq _ _).trans (List.countP_congr fun e _ => ?_)
        simp [For]
      | none =>
        refine CefBrowserInfoMap.size_eq.trans (List.countP_eq_length.2 fun e _ => ?_).symm
        rfl

/-- What is canceled is what is counted as pending: the handlers and the pages are told of each, none of it is left,
and nothing else goes. -/
theorem cancelPending_spec (config : Config) (s : BrowserSide) (browserId : Option Int32) (handler : Option Nat) :
    (s.cancelPending config browserId handler).getPendingCount browserId handler = 0 ∧
      (∀ e, e ∈ (s.cancelPending config browserId handler).queries ↔ e ∈ s.queries ∧ For browserId handler e = false) ∧
      ∃ es : List (Int32 × Int64 × QueryInfo), es.Nodup ∧ es.length = s.getPendingCount browserId handler ∧
        (∀ e, e ∈ es ↔ e ∈ s.queries ∧ For browserId handler e = true) ∧
        (s.cancelPending config browserId handler).log = s.log ++ (es.map fun e => .onQueryCanceled e.2.2.handler
          e.2.2.browserId (frameOf e.2.2.isMainFrame e.2.2.frameId) e.2.1 true) ∧
        (s.cancelPending config browserId handler).sent = s.sent ++
          es.map fun e => (e.2.2.browserId, replyMessage config e.2.2.id CefMessageRouter.canceled) := by
  have hc := cancelPendingFor_spec config s browserId handler true
  have hqueries : ∀ e, e ∈ (s.cancelPending config browserId handler).queries ↔
      e ∈ s.queries ∧ For browserId handler e = false := by
    intro e
    refine (hc.queries e).trans ?_
    rw [List.mem_filter]
    cases For browserId handler e <;> simp
  refine ⟨?_, hqueries, s.queries.filter (For browserId handler), hc.nodup, ?_, fun e => List.mem_filter, hc.log, hc.sent⟩
  · rw [getPendingCount_eq]
    refine List.countP_eq_zero.2 fun e he => ?_
    rw [((hqueries e).1 he).2]
    exact Bool.false_ne_true
  · rw [getPendingCount_eq, List.countP_eq_length_filter]

/-! ### Queries -/

theorem log_append {l : List HandlerEvent} (hlog : s'.log = s.log ++ l) (q : Int64) :
    s'.asked q = s.asked q ++ l.filterMap (askedOf q) ∧ s'.accepting q = s.accepting q ++ l.filterMap (acceptedOf q) ∧
      s'.told q = s.told q ++ l.filterMap (canceledOf q) := by
  unfold asked accepting told
  rw [hlog]
  exact ⟨List.filterMap_append .., List.filterMap_append .., List.filterMap_append ..⟩

theorem Offers.onQuery_log (ho : Offers s) (hr : s.Received q browserId query) (hlt : ∀ h' ∈ s.asked q, h' < h)
    (hno : s.accepting q = []) (hlog : s'.log = s.log ++
      [.onQuery h browserId (frameOf query.isMainFrame query.frameId) q query.request query.persistent])
    (hset : s'.handlerSet = s.handlerSet) (hqueries : s'.queries = s.queries) : Offers s' := by
  have hsame : ∀ q', s'.accepting q' = s.accepting q' ∧ s'.told q' = s.told q' := fun q' =>
    ⟨(log_append hlog q').2.1.trans (List.append_nil _), (log_append hlog q').2.2.trans (List.append_nil _)⟩
  have hself : s'.asked q = s.asked q ++ [h] := (log_append hlog q).1.trans (by simp [askedOf])
  have hother : ∀ q', q ≠ q' → s'.asked q' = s.asked q' := fun q' hne =>
    (log_append hlog q').1.trans (by simp [askedOf, hne])
  have hreceived : ∀ q' b query', s'.Received q' b query' ↔ s.Received q' b query' := by
    intro q' b query'
    unfold Received
    rw [hlog, List.mem_append]
    exact or_iff_left (by simp)
  refine ⟨hset ▸ ho.handlerSet, fun q' => ?_, fun q' => ?_, fun q' => ?_, fun b q' info hmem => ?_,
    fun h' b f q' request persistent hmem => ?_, fun h' b f q' notified hmem => ?_⟩
  · by_cases hq : q = q'
    · subst hq
      rw [hself]
      exact List.pairwise_append.2 ⟨ho.asked q, List.pairwise_singleton _ _,
        fun h' hmem' x hx => List.mem_singleton.1 hx ▸ hlt h' hmem'⟩
    · rw [hother q' hq]
      exact ho.asked q'
  · rw [(hsame q').1]
    by_cases hq : q = q'
    · subst hq
      exact .inl hno
    · rw [hother q' hq]
      exact ho.accepting q'
  · rw [(hsame q').1, (hsame q').2]
    exact ho.told q'
  · simp only [(hsame q').1, (hsame q').2, hreceived]
    exact ho.kept b q' info (hqueries ▸ hmem)
  · simp only [hreceived]
    rw [hlog] at hmem
    rcases List.mem_append.1 hmem with hmem | hmem
    · exact ho.onQuery _ _ _ _ _ _ hmem
    · cases List.mem_singleton.1 hmem
      exact ⟨query, hr, rfl, rfl, rfl⟩
  · simp only [hreceived]
    rw [hlog] at hmem
    exact ho.onQueryCanceled _ _ _ _ _ ((List.mem_append.1 hmem).resolve_right (by simp))

/-- Up to the handler that accepts the query, each handler is asked once. -/
theorem Offers.askHandlers (config : Config) (onQuery : OnQuery) (hs : List Nat) (hhs : hs.Pairwise (· < ·)) : ∀ {s : BrowserSide},
    Inv n s → Offers s → s.Received q browserId query → (∀ h' ∈ s.asked q, ∀ h ∈ hs, h' < h) → s.accepting q = [] →
    Offers (askHandlers config onQuery browserId q query hs s).2 ∧
      (askHandlers config onQuery browserId q query hs s).2.accepting q = [] ∧
      ∀ h, (askHandlers config onQuery browserId q query hs s).1 = some h →
        ((askHandlers config onQuery browserId q query hs s).2.asked q).getLast? = some h := by
  induction hs with
  | nil => exact fun _ ho _ _ hno => ⟨ho, hno, nofun⟩
  | cons h hs ih =>
    intro s hi ho hr hlt hno
    obtain ⟨hh, hhs'⟩ := List.pairwise_cons.1 hhs
    have hlog := moves_log config s h browserId (frameOf query.isMainFrame query.frameId) q query.request query.persistent
    unfold BrowserSide.askHandlers
    dsimp only
    generalize hs₁ : ({ s with log := s.log ++
      [.onQuery h browserId (frameOf query.isMainFrame query.frameId) q query.request query.persistent] } : BrowserSide) = s₁
      at hlog ⊢
    have hlog₁ : s₁.log = s.log ++
        [.onQuery h browserId (frameOf query.isMainFrame query.frameId) q query.request query.persistent] := by rw [← hs₁]
    have ho₁ : Offers s₁ := ho.onQuery_log hr (fun h' hmem => hlt h' hmem h (.head _)) hno hlog₁ (by rw [← hs₁])
      (by rw [← hs₁])
    have hcalls := leaves_foldl config (onQuery h).1 s₁
    have hi₁ := hlog.inv n hi
    have hasked : ((onQuery h).1.foldl (perform config) s₁).asked q = s.asked q ++ [h] :=
      (hcalls.asked q).trans ((log_append hlog₁ q).1.trans (by simp [askedOf]))
    have haccepting : ((onQuery h).1.foldl (perform config) s₁).accepting q = [] :=
      (hcalls.accepting q).trans ((log_append hlog₁ q).2.1.trans (by rw [hno]; rfl))
    split
    · refine ⟨hcalls.offers n hi₁ ho₁, haccepting, fun h' heq => ?_⟩
      cases heq
      dsimp only
      rw [hasked]
      exact List.getLast?_concat
    · refine ih hhs' (hcalls.inv n hi₁) (hcalls.offers n hi₁ ho₁) ?_ (fun h' hmem x hx => ?_) haccepting
      · exact (hcalls.received _ _ _).2 ((hlog.received _ _ _).2 hr)
      · rw [hasked] at hmem
        rcases List.mem_append.1 hmem with hmem | hmem
        · exact hlt h' hmem x (.tail _ hx)
        · rw [List.mem_singleton.1 hmem]
          exact hh x hx

theorem Offers.accept (ho : Offers s) (hi : Inv n s) (hr : s.Received q browserId query) (hno : s.accepting q = [])
    (hlast : (s.asked q).getLast? = some h) (hkept : ∀ info, (browserId, q, info) ∉ s.queries) :
    Offers (s.accept browserId q query h) := by
  have hlog : (s.accept browserId q query h).log = s.log ++ [.accepted h q] := rfl
  have hqueries : ∀ b q' info, (b, q', info) ∈ (s.accept browserId q query h).queries → (b, q', info) ∈ s.queries ∨
      b = browserId ∧ q' = q ∧ info.handler = h ∧ info.frameId = query.frameId ∧ info.isMainFrame = query.isMainFrame := by
    intro b q' info hmem
    rcases List.mem_cons.1 ((CefBrowserInfoMap.entries_add hkept).mem_iff.1 hmem) with heq | hmem
    · cases heq
      exact .inr ⟨rfl, rfl, rfl, rfl, rfl⟩
    · exact .inl hmem
  have hset : (s.accept browserId q query h).handlerSet = s.handlerSet := rfl
  generalize s.accept browserId q query h = s' at hlog hqueries hset ⊢
  have hsame : ∀ q', s'.asked q' = s.asked q' ∧ s'.told q' = s.told q' := fun q' =>
    ⟨(log_append hlog q').1.trans (List.append_nil _), (log_append hlog q').2.2.trans (List.append_nil _)⟩
  have hself : s'.accepting q = [h] := (log_append hlog q).2.1.trans (by rw [hno]; simp [acceptedOf])
  have hother : ∀ q', q ≠ q' → s'.accepting q' = s.accepting q' := fun q' hne =>
    (log_append hlog q').2.1.trans (by simp [acceptedOf, hne])
  have htold : s.told q = [] := (ho.told q).elim id fun heq => heq.trans hno
  have hreceived : ∀ q' b query', s'.Received q' b query' ↔ s.Received q' b query' := by
    intro q' b query'
    unfold Received
    rw [hlog, List.mem_append]
    exact or_iff_left (by simp)
  refine ⟨hset ▸ ho.handlerSet, fun q' => ?_, fun q' => ?_, fun q' => ?_, fun b q' info hmem => ?_,
    fun h' b f q' request persistent hmem => ?_, fun h' b f q' notified hmem => ?_⟩
  · rw [(hsame q').1]
    exact ho.asked q'
  · rw [(hsame q').1]
    by_cases hq : q = q'
    · subst hq
      exact .inr ⟨h, hself, hlast⟩
    · rw [hother q' hq]
      exact ho.accepting q'
  · rw [(hsame q').2]
    by_cases hq : q = q'
    · subst hq
      exact .inl htold
    · rw [hother q' hq]
      exact ho.told q'
  · simp only [(hsame q').2, hreceived]
    rcases hqueries b q' info hmem with hmem | ⟨rfl, rfl, rfl, hframe⟩
    · have hne : q ≠ q' := by
        rintro rfl
        have := (ho.kept b q info hmem).1
        rw [hno] at this
        cases this
      rw [hother q' hne]
      exact ho.kept b q' info hmem
    · refine ⟨hself, htold, fun query' hr' => ?_⟩
      obtain ⟨-, rfl⟩ := hi.unique _ _ _ _ _ hr hr'
      exact hframe
  · simp only [hreceived]
    rw [hlog] at hmem
    exact ho.onQuery _ _ _ _ _ _ ((List.mem_append.1 hmem).resolve_right (by simp))
  · simp only [hreceived]
    rw [hlog] at hmem
    exact ho.onQueryCanceled _ _ _ _ _ ((List.mem_append.1 hmem).resolve_right (by simp))

theorem Offers.onQueryMessage (ho : Offers s) (hi : Inv n s) (hn : n + 1 < 2 ^ 64) (onQuery : OnQuery)
    (browserId : Int32) (query : Query) : Offers (s.onQueryMessage config onQuery browserId query) := by
  unfold BrowserSide.onQueryMessage
  split
  · exact { ho with }
  · obtain ⟨hi₁, hfresh, hreceived, -⟩ := hi.receive hn browserId query
    have hlog : (s.receive browserId query).2.log = s.log ++ [.received (s.receive browserId query).1 browserId query] := rfl
    have ho₁ : Offers (s.receive browserId query).2 := by
      refine ho.of ho.handlerSet hlog (fun e he => ⟨_, .inl ⟨_, _, List.mem_singleton.1 he⟩⟩) fun b q info hmem => ⟨hmem, ?_⟩
      intro query' hmem'
      cases List.mem_singleton.1 hmem'
      obtain ⟨-, query₀, hr₀, -⟩ := hi.kept _ _ _ (hmem : _ ∈ s.queries)
      exact hfresh _ _ hr₀
    have hr : (s.receive browserId query).2.Received (s.receive browserId query).1 browserId query :=
      (hreceived _ _ _).2 (.inr ⟨rfl, rfl, rfl⟩)
    obtain ⟨hasked, haccepting, -⟩ := ho.fresh hfresh
    have hasked₁ := (log_append hlog (s.receive browserId query).1).1.trans ((List.append_nil _).trans hasked)
    have haccepting₁ := (log_append hlog (s.receive browserId query).1).2.1.trans ((List.append_nil _).trans haccepting)
    have hask := Offers.askHandlers config onQuery s.handlerSet ho.handlerSet hi₁ ho₁ hr
      (by rw [hasked₁]; exact fun _ hmem => absurd hmem List.not_mem_nil) haccepting₁
    have hmoves := moves_askHandlers config onQuery browserId (s.receive browserId query).1 query s.handlerSet
      (s.receive browserId query).2
    obtain ⟨hi₂, hr₂, hkept⟩ := hi.moved hn hmoves
    have hset : (s.receive browserId query).2.handlerSet = s.handlerSet := rfl
    dsimp only
    rw [hset]
    generalize BrowserSide.askHandlers config onQuery browserId (s.receive browserId query).1 query s.handlerSet
      (s.receive browserId query).2 = r at *
    obtain ⟨o, s₂⟩ := r
    obtain ⟨ho₂, haccepting₂, hlast⟩ := hask
    cases o with
    | some handler => exact ho₂.accept hi₂ hr₂ haccepting₂ (hlast handler rfl) hkept
    | none =>
      obtain ⟨callbacks, hdetach, -⟩ := detach_spec s₂ (s.receive browserId query).1
      dsimp only
      rw [hdetach]
      exact { ho₂ with }

theorem Offers.runTask (ho : Offers s) (config : Config) (t : UiTask) : Offers (s.runTask config t) := by
  obtain ⟨m, rs, hs', hentries, -⟩ := runTask_spec config s t
  rw [hs']
  refine ho.of ho.handlerSet (List.append_nil _).symm (by simp) fun b q info hmem => ⟨?_, by simp⟩
  have hmem' : (b, q, info) ∈ m.entries := hmem
  rw [hentries] at hmem'
  exact (List.mem_filter.1 hmem').1

/-! ### Runs -/

theorem Offers.step {F : Type} {n k : Nat} {s s' : Router F} {l : Label F} (ho : Offers s.browser)
    (h : CefMessageRouter.Inv config n k s) (hk : k + l.receives < 2 ^ 64) (hs : step config s l = some s') :
    Offers s'.browser := by
  have hcancel : ∀ b handler notify, Offers (s.browser.cancelPendingFor config b handler notify) :=
    fun b handler notify => (leaves_cancelPendingFor config s.browser b handler notify).offers k h.browser ho
  unfold CefMessageRouter.step at hs
  cases l with
  | contextCreated c browserId frameId isMain =>
    simp only [Option.ite_none_left_eq_some, Option.some.injEq] at hs
    obtain ⟨-, rfl⟩ := hs
    exact ho
  | execute c name arguments =>
    obtain ⟨ctx, -, rfl⟩ := Option.map_eq_some_iff.1 hs
    exact ho
  | contextReleased c =>
    obtain ⟨ctx, -, rfl⟩ := Option.map_eq_some_iff.1 hs
    exact ho
  | rendererReceives =>
    dsimp only at hs
    split at hs
    · cases hs
      exact { ho with }
    · cases hs
  | rendererTask =>
    dsimp only at hs
    split at hs <;> cases hs
    exact ho
  | browserReceives onQuery =>
    dsimp only at hs
    split at hs
    · cases hs
      unfold BrowserSide.onProcessMessageReceived
      split
      · exact ho.onQueryMessage h.browser hk onQuery _ _
      · rename_i browserId _ _ _ _ i _
        obtain ⟨es, hc, -⟩ := cancelPendingRequest_spec config s.browser browserId i
        exact ho.cancelsAll h.browser hc
      · exact ho
    · cases hs
  | uiTask =>
    dsimp only at hs
    split at hs
    · rename_i t tasks _
      cases hs
      have ho' : Offers { s.browser with tasks } := { ho with }
      exact ho'.runTask config t
    · cases hs
  | perform action =>
    cases hs
    exact (leaves_perform config s.browser action).offers k h.browser ho
  | beforeClose browserId =>
    cases hs
    exact hcancel (some browserId) none false
  | renderProcessTerminated browserId =>
    cases hs
    exact hcancel (some browserId) none false
  | beforeBrowse browserId isMain =>
    cases hs
    unfold BrowserSide.onBeforeBrowse
    split
    exacts [hcancel (some browserId) none false, ho]

end BrowserSide

variable {F : Type} {config : Config} {s s' : Router F} {es : List (Label F)}

theorem offers_exec (hv : config.Valid) : ∀ {n k s}, Inv config n k s → BrowserSide.Offers s.browser →
    n + executes es < 2 ^ 32 → k + receives es < 2 ^ 64 → Lts.exec (step config) s es = some s' →
    BrowserSide.Offers s'.browser := by
  induction es with
  | nil =>
    intro n k s _ ho _ _ hs
    cases hs
    exact ho
  | cons e es ih =>
    intro n k s h ho hn hk hs
    obtain ⟨s₁, hstep, hs⟩ := Option.bind_eq_some_iff.1 hs
    have hne : executes (e :: es) = e.executes + executes es := List.sum_cons
    have hke : receives (e :: es) = e.receives + receives es := List.sum_cons
    rw [hne, ← Nat.add_assoc] at hn
    rw [hke, ← Nat.add_assoc] at hk
    have hk₁ : k + e.receives < 2 ^ 64 := by omega
    exact ih (h.step hv (by omega) hk₁ hstep) (ho.step h hk₁ hstep) hn hk hs

theorem offers_of_exec (hv : config.Valid) (hn : executes es < 2 ^ 32) (hk : receives es < 2 ^ 64)
    (hs : Lts.exec (step config) {} es = some s) : BrowserSide.Offers s.browser :=
  offers_exec hv .init .init (by rwa [Nat.zero_add]) (by rwa [Nat.zero_add]) hs

theorem offers_of_exec_two : ∃ s, Lts.exec (step {}) {} twoQueries = some s ∧ BrowserSide.Offers s.browser ∧
    s.browser.accepting 1 = [3] := by
  have hn : executes twoQueries < 2 ^ 32 := by decide
  have hk : receives twoQueries < 2 ^ 64 := by decide
  exact ⟨_, rfl, offers_of_exec config_valid hn hk rfl, by decide⟩

end CefMessageRouter

end NplBrowser
