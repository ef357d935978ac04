import NplBrowser.CefMessageRouterRendererSide
import NplBrowser.Lib.MachineInt

/-!
# The requests of a page

What the functions of the renderer side do with the requests, and the invariant of its IDs and contexts.
-/

namespace NplBrowser

open Visit Counter

namespace CefMessageRouter

/-- The function for a reply. -/
def RequestInfo.callback {F : Type} (info : RequestInfo F) : Reply → Option F
  | .success _ => info.successCallback
  | .failure _ _ => info.failureCallback

/-- The query of a request. -/
def QueryArguments.query {F : Type} (args : QueryArguments F) (ctx : V8Context) (id : RequestId) : Query :=
  { frameId := ctx.frameId, isMainFrame := ctx.isMain, id, request := args.request, persistent := args.persistent }

namespace RendererSide

variable {F : Type} {config : Config} {s s' : RendererSide F} {b browserId : Int32} {id i : RequestId}
  {info : RequestInfo F} {c : Nat} {ctx : V8Context} {args : QueryArguments F} {n m : Nat}

abbrev requests (s : RendererSide F) : List (Int32 × RequestId × RequestInfo F) := s.browserRequestInfoMap.entries

/-- Of the browser and covered. -/
def Canceled (browserId : Int32) (i : RequestId) (e : Int32 × RequestId × RequestInfo F) : Prop :=
  e.1 = browserId ∧ i.Covers e.2.1

instance (browserId : Int32) (i : RequestId) (e : Int32 × RequestId × RequestInfo F) :
    Decidable (Canceled browserId i e) :=
  inferInstanceAs (Decidable (e.1 = browserId ∧ i.Covers e.2.1))

/-! ### What the functions do -/

theorem getRequestInfo_spec (s : RendererSide F) (browserId : Int32) (id : RequestId) (alwaysRemove : Bool) :
    ∃ m, (s.getRequestInfo browserId id alwaysRemove).2 = { s with browserRequestInfoMap := m } ∧
      m.entries = (s.requests.filter fun e =>
        !(e.1 = browserId ∧ e.2.1 = id ∧ (alwaysRemove || !e.2.2.persistent))) ∧
      ∀ info, (s.getRequestInfo browserId id alwaysRemove).1 = some info ↔ (browserId, id, info) ∈ s.requests :=
  ⟨_, rfl, (CefBrowserInfoMap.find_eq _ _ _ _).2, (CefBrowserInfoMap.find_eq _ _ _ _).1⟩

theorem foldl_concat {α β : Type} (f : α → β) (l : List α) (r : List β) :
    l.foldl (fun r a => r ++ [f a]) r = r ++ l.map f := by
  induction l generalizing r with
  | nil => exact (List.append_nil r).symm
  | cons a l ih => rw [List.foldl_cons, ih, List.map_cons, List.append_assoc]; rfl

/-- What is canceled goes, and the browser process is told if anything is. -/
theorem sendCancel_spec (config : Config) (s : RendererSide F) (browserId : Int32) (i : RequestId) : ∃ m, (s.sendCancel config browserId i).2 =
      { s with
        browserRequestInfoMap := m
        log := s.log ++ (s.requests.filter (Canceled browserId i ·)).map fun e => .canceled e.1 e.2.1
        sent := s.sent ++
          if s.requests.filter (Canceled browserId i ·) = [] then [] else [(browserId, cancelMessage config i)] } ∧
      m.entries = s.requests.filter (¬ Canceled browserId i ·) := by
  unfold sendCancel
  by_cases hzero : i.requestId = kReservedId
  · rw [if_neg (not_not.2 hzero)]
    have hvisit : ∀ (e : Int32 × RequestId × RequestInfo F) (log : List (PageEvent F)),
        (if e.1 = browserId then cancelVisitor i.contextId e.1 e.2 log else pass log) =
          if decide (Canceled browserId i e) = true then { remove := true, state := log ++ [.canceled e.1 e.2.1] }
          else pass log := by
      intro e log
      unfold cancelVisitor Canceled RequestId.Covers
      by_cases hb : e.1 = browserId <;> by_cases hc : e.2.1.contextId = i.contextId <;> simp [hb, hc, hzero]
    have hall := s.browserRequestInfoMap.findAllOf_eq browserId (cancelVisitor i.contextId) []
    rw [visitAll_filter hvisit, foldl_concat] at hall
    obtain ⟨hentries, hlog⟩ := Prod.mk.inj hall
    refine ⟨(s.browserRequestInfoMap.findAllOf browserId (cancelVisitor i.contextId) []).1, ?_, ?_⟩
    · dsimp only
      rw [hlog]
      cases s.browserRequestInfoMap.entries.filter (Canceled browserId i ·) <;> simp
    · rw [hentries]
      exact List.filter_congr fun e _ => by simp
  · rw [if_pos hzero]
    obtain ⟨m, hm, hentries, hinfo⟩ := getRequestInfo_spec s browserId i true
    have hcanceled : ∀ e : Int32 × RequestId × RequestInfo F,
        Canceled browserId i e ↔ e.1 = browserId ∧ e.2.1 = i := by
      rintro ⟨b, ⟨c, r⟩, info⟩
      obtain ⟨c', r'⟩ := i
      simp only [Canceled, RequestId.Covers, RequestId.mk.injEq]
      simp only at hzero
      tauto
    refine ⟨m, ?_, ?_⟩
    · cases hget : (s.getRequestInfo browserId i true).1 with
      | none =>
        have hnil : s.requests.filter (Canceled browserId i ·) = [] := by
          refine List.filter_eq_nil_iff.2 fun e he hcan => ?_
          obtain ⟨b, j, info⟩ := e
          obtain ⟨rfl, rfl⟩ := (hcanceled _).1 (of_decide_eq_true hcan)
          rw [(hinfo info).2 he] at hget
          cases hget
        have hpair : s.getRequestInfo browserId i true = (none, { s with browserRequestInfoMap := m }) :=
          Prod.ext hget hm
        rw [hpair, hnil]
        simp
      | some info =>
        have hone : s.requests.filter (Canceled browserId i ·) = [(browserId, i, info)] :=
          CefBrowserInfoMap.filter_key ((hinfo info).1 hget) fun e => by rw [decide_eq_true_iff, hcanceled]
        have hpair : s.getRequestInfo browserId i true = (some info, { s with browserRequestInfoMap := m }) :=
          Prod.ext hget hm
        rw [hpair, hone]
        simp
    · rw [hentries]
      exact List.filter_congr fun e _ => by simp [hcanceled]

/-- The callback function that a task executes, its context being there. -/
def called (s : RendererSide F) (t : RendererTask) (info : RequestInfo F) : Option F :=
  (s.getContextByID t.id.contextId).bind fun _ => info.callback t.reply

theorem getRequestInfo_log (s s' : RendererSide F) (t : RendererTask) (alwaysRemove : Bool)
    (hclosing : ∀ info : RequestInfo F, (alwaysRemove || !info.persistent) = t.reply.closing info.persistent)
    (hsome : ∀ info, (s.getRequestInfo t.browserId t.id alwaysRemove).1 = some info →
      s' = { (s.getRequestInfo t.browserId t.id alwaysRemove).2 with
        log := s.log ++ [.replied t.browserId t.id t.reply (s.called t info)] })
    (hnone : (s.getRequestInfo t.browserId t.id alwaysRemove).1 = none →
      s' = (s.getRequestInfo t.browserId t.id alwaysRemove).2) : ∃ m log,
      s' = { s with browserRequestInfoMap := m, log := s.log ++ log } ∧
      m.entries = (s.requests.filter fun e =>
        !(e.1 = t.browserId ∧ e.2.1 = t.id ∧ t.reply.closing e.2.2.persistent)) ∧
      (∀ info, (t.browserId, t.id, info) ∈ s.requests →
        log = [.replied t.browserId t.id t.reply (s.called t info)]) ∧
      ((∀ info, (t.browserId, t.id, info) ∉ s.requests) → log = []) := by
  obtain ⟨m, hm, hentries, hinfo⟩ := getRequestInfo_spec s t.browserId t.id alwaysRemove
  simp only [hclosing] at hentries
  rw [hm] at hsome hnone
  cases hget : (s.getRequestInfo t.browserId t.id alwaysRemove).1 with
  | none =>
    refine ⟨m, [], (hnone hget).trans ?_, hentries, fun info hmem => ?_, fun _ => rfl⟩
    · rw [List.append_nil]
    · rw [(hinfo info).2 hmem] at hget
      cases hget
  | some info =>
    have hmem := (hinfo info).1 hget
    refine ⟨m, _, hsome info hget, hentries, fun info' hmem' => ?_, fun hno => absurd hmem (hno info)⟩
    rw [CefBrowserInfoMap.eq_of_mem_entries hmem' hmem]

/-- A request that is not kept any more is nothing to the task. -/
theorem runTask_spec (s : RendererSide F) (t : RendererTask) : ∃ m log, s.runTask t =
      { s with browserRequestInfoMap := m, log := s.log ++ log } ∧
      m.entries = (s.requests.filter fun e =>
        !(e.1 = t.browserId ∧ e.2.1 = t.id ∧ t.reply.closing e.2.2.persistent)) ∧
      (∀ info, (t.browserId, t.id, info) ∈ s.requests →
        log = [.replied t.browserId t.id t.reply (s.called t info)]) ∧
      ((∀ info, (t.browserId, t.id, info) ∉ s.requests) → log = []) := by
  obtain ⟨browserId, id, r⟩ := t
  have hpair : ∀ alwaysRemove, s.getRequestInfo browserId id alwaysRemove =
      ((s.getRequestInfo browserId id alwaysRemove).1, (s.getRequestInfo browserId id alwaysRemove).2) := fun _ => rfl
  cases r with
  | success response =>
    refine getRequestInfo_log s _ ⟨browserId, id, .success response⟩ false (fun _ => rfl) (fun info hinfo => ?_)
      fun hnone => ?_
    · show s.executeSuccessCallback browserId id response = _
      unfold executeSuccessCallback
      rw [hpair, hinfo]
      rfl
    · show s.executeSuccessCallback browserId id response = _
      unfold executeSuccessCallback
      rw [hpair, hnone]
  | failure errorCode errorMessage =>
    refine getRequestInfo_log s _ ⟨browserId, id, .failure errorCode errorMessage⟩ true (fun _ => rfl)
      (fun info hinfo => ?_) fun hnone => ?_
    · show s.executeFailureCallback browserId id errorCode errorMessage = _
      unfold executeFailureCallback
      rw [hpair, hinfo]
      rfl
    · show s.executeFailureCallback browserId id errorCode errorMessage = _
      unfold executeFailureCallback
      rw [hpair, hnone]

/-! ### IDs and contexts -/

def Asked (s : RendererSide F) (browserId : Int32) (id : RequestId) (ctx : V8Context) (args : QueryArguments F) :
    Prop :=
  .query browserId id ctx args ∈ s.log

/-- At most `n` requests and `m` contexts have been given IDs. -/
structure Inv (config : Config) (n m : Nat) (s : RendererSide F) : Prop where
  requestIds : Given Int32.ofNat n s.requestIdGenerator
    fun r => ∃ b id ctx args, s.Asked b id ctx args ∧ id.requestId = r
  contextIds : Given Int32.ofNat m s.contextIdGenerator
    fun r => (∃ c, (r, c) ∈ s.contextMap) ∨ ∃ b id ctx args, s.Asked b id ctx args ∧ id.contextId = r
  ids : (s.contextMap.map Prod.fst).Nodup
  contexts : (s.contextMap.map Prod.snd).Nodup
  handler : ∀ c ctx, Assoc.find? c s.contexts = some ctx → ctx.contextId ≠ kReservedId →
    (ctx.contextId, c) ∈ s.contextMap
  context : ∀ r c, (r, c) ∈ s.contextMap → ∃ ctx, Assoc.find? c s.contexts = some ctx ∧ ctx.contextId = r
  /-- The context of a request that is kept is there. -/
  kept : ∀ b id info, (b, id, info) ∈ s.requests → (∃ ctx args, s.Asked b id ctx args ∧ info = args.toRequestInfo) ∧
    ∃ c ctx, (id.contextId, c) ∈ s.contextMap ∧ Assoc.find? c s.contexts = some ctx ∧ ctx.browserId = b
  unique : ∀ b id ctx args b' id' ctx' args', s.Asked b id ctx args → s.Asked b' id' ctx' args' →
    id.requestId = id'.requestId → b = b' ∧ id = id' ∧ ctx = ctx' ∧ args = args'
  queries : ∀ b m q, (b, m) ∈ s.sent → ToBrowser.read config m = some (.query q) →
    ∃ ctx args, s.Asked b q.id ctx args ∧ q = args.query ctx q.id
  /-- A context of which all requests have been canceled is gone. -/
  cancels : ∀ b m i, (b, m) ∈ s.sent → ToBrowser.read config m = some (.cancel i) →
    (∃ b id ctx args, s.Asked b id ctx args ∧ i.Covers id) ∧
      (i.requestId = kReservedId → ∀ c, (i.contextId, c) ∉ s.contextMap)
  executed : ∀ b id reply f, .replied b id reply f ∈ s.log →
    ∃ ctx args, s.Asked b id ctx args ∧ f = args.callback reply

theorem Inv.init : Inv config 0 0 ({} : RendererSide F) where
  requestIds := .init counts_int32 (by simp [Asked])
  contextIds := .init counts_int32 (by simp [Asked])
  ids := .nil
  contexts := .nil
  handler := by simp
  context := by simp
  kept := fun b id info h => absurd h (List.not_mem_nil (a := (b, id, info)))
  unique := by simp [Asked]
  queries := by simp
  cancels := by simp
  executed := by simp

theorem getNextId_eq {T : Type} [DecidableEq T] [Add T] [OfNat T 0] [OfNat T 1] {last : T} (h : last + 1 ≠ 0) :
    getNextId last = last + 1 := if_neg h

/-- The function that the page gave for the reply is executed. -/
theorem Inv.called_eq {t : RendererTask} (h : Inv config n m s) (hmem : (t.browserId, t.id, info) ∈ s.requests) :
    s.called t info = info.callback t.reply := by
  obtain ⟨-, c, ctx, hc, -⟩ := h.kept _ _ _ hmem
  unfold called getContextByID
  rw [Assoc.find?_of_mem h.ids hc]
  rfl

/-- What a context is given its ID for. -/
structure Identified (s s' : RendererSide F) (c : Nat) (ctx : V8Context) (contextId : Int32) : Prop where
  eq : ∃ contextIdGenerator contextMap contexts, s' = { s with contextIdGenerator, contextMap, contexts }
  mem : (contextId, c) ∈ s'.contextMap
  context : ∃ ctx', Assoc.find? c s'.contexts = some ctx' ∧ ctx'.browserId = ctx.browserId

theorem Inv.handlerContextId (h : Inv config n m s) (hm : m + 1 < 2 ^ 32)
    (hc : Assoc.find? c s.contexts = some ctx) : Inv config n (m + 1) (s.handlerContextId c ctx).2 ∧
      Identified s (s.handlerContextId c ctx).2 c ctx (s.handlerContextId c ctx).1 := by
  unfold RendererSide.handlerContextId
  split
  · rename_i hzero
    obtain ⟨hne, hnew, hgiven⟩ := h.contextIds.next counts_int32 hm
    have hfresh : ∀ r c', (r, c') ∈ s.contextMap → r ≠ s.contextIdGenerator + 1 := by
      rintro r c' hr rfl
      exact hnew (.inl ⟨c', hr⟩)
    have hno : ∀ r, (r, c) ∉ s.contextMap := by
      intro r hr
      obtain ⟨ctx', hctx', hid⟩ := h.context r c hr
      rw [hc, Option.some.injEq] at hctx'
      subst hctx'
      exact h.contextIds.ne_zero counts_int32 (by omega) (.inl ⟨c, hr⟩) (hid.symm.trans hzero)
    have hkey : s.contextIdGenerator + 1 ∉ s.contextMap.map Prod.fst := by
      intro hk
      obtain ⟨⟨r, c'⟩, hr, heq⟩ := List.mem_map.1 hk
      exact hfresh r c' hr heq
    have hperm : (BrowserInfoMap.emplace (s.contextIdGenerator + 1) c s.contextMap).Perm
        ((s.contextIdGenerator + 1, c) :: s.contextMap) := by
      unfold BrowserInfoMap.emplace
      rw [if_neg]
      · exact Assoc.perm_insert hkey c
      · intro hsome
        obtain ⟨c', hfind⟩ := Option.isSome_iff_exists.1 hsome
        exact hfresh _ c' (Assoc.mem_of_find? hfind) rfl
    have hmem : ∀ e, e ∈ BrowserInfoMap.emplace (s.contextIdGenerator + 1) c s.contextMap ↔
        e = (s.contextIdGenerator + 1, c) ∨ e ∈ s.contextMap := fun e => by rw [hperm.mem_iff, List.mem_cons]
    have hother : ∀ c' ctx', c' ≠ c → Assoc.find? c' s.contexts = some ctx' →
        Assoc.find? c' (Assoc.insert c { ctx with contextId := s.contextIdGenerator + 1 } s.contexts) = some ctx' :=
      fun c' ctx' hne hfind => (Assoc.find?_insert_ne hne _ _).trans hfind
    have hself := Assoc.find?_insert_self c { ctx with contextId := s.contextIdGenerator + 1 } s.contexts
    unfold createIDForContext
    rw [getNextId_eq hne]
    refine ⟨{ h with contextIds := ?_, ids := ?_, contexts := ?_, handler := ?_, context := ?_, kept := ?_, cancels := ?_ },
      ⟨⟨_, _, _, rfl⟩, (hmem _).2 (.inl rfl), _, hself, rfl⟩⟩
    · refine hgiven.mono (Nat.le_refl _) ?_
      rintro r (⟨c', hr⟩ | hr)
      · rcases (hmem _).1 hr with heq | hr
        exacts [.inr (Prod.mk.inj heq).1, .inl (.inl ⟨c', hr⟩)]
      · exact .inl (.inr hr)
    · exact (hperm.map Prod.fst).nodup_iff.2 (List.nodup_cons.2 ⟨hkey, h.ids⟩)
    · refine (hperm.map Prod.snd).nodup_iff.2 (List.nodup_cons.2 ⟨fun hk => ?_, h.contexts⟩)
      obtain ⟨⟨r, c'⟩, hr, rfl⟩ := List.mem_map.1 hk
      exact hno r hr
    · intro c' ctx' hfind hid
      by_cases hcc : c' = c
      · subst hcc
        rw [hself, Option.some.injEq] at hfind
        subst hfind
        exact (hmem _).2 (.inl rfl)
      · rw [Assoc.find?_insert_ne hcc] at hfind
        exact (hmem _).2 (.inr (h.handler c' ctx' hfind hid))
    · intro r c' hr
      rcases (hmem _).1 hr with heq | hold
      · obtain ⟨rfl, rfl⟩ := Prod.mk.inj heq
        exact ⟨_, hself, rfl⟩
      · obtain ⟨ctx', hfind, hid⟩ := h.context r c' hold
        have hcc : c' ≠ c := by
          rintro rfl
          exact hno r hold
        exact ⟨ctx', hother c' ctx' hcc hfind, hid⟩
    · intro b id info hinfo
      obtain ⟨hasked, c', ctx', hr, hfind, hb⟩ := h.kept b id info hinfo
      have hcc : c' ≠ c := by
        rintro rfl
        exact hno _ hr
      exact ⟨hasked, c', ctx', (hmem _).2 (.inr hr), hother c' ctx' hcc hfind, hb⟩
    · intro b msg i hsent hread
      obtain ⟨⟨b', id, ctx', args, hasked, hcov⟩, hgone⟩ := h.cancels b msg i hsent hread
      refine ⟨⟨b', id, ctx', args, hasked, hcov⟩, fun hi c' hr => ?_⟩
      rcases (hmem _).1 hr with heq | hr
      · have : id.contextId = s.contextIdGenerator + 1 := hcov.1.trans (Prod.mk.inj heq).1
        exact hnew (.inr ⟨b', id, ctx', args, hasked, this⟩)
      · exact hgone hi c' hr
  · rename_i hid
    exact ⟨{ h with contextIds := h.contextIds.mono (Nat.le_succ m) fun _ hr => hr },
      ⟨⟨_, _, _, rfl⟩, h.handler c ctx hc hid, ctx, hc, rfl⟩⟩

/-- The ID of a new request. -/
def newId (s : RendererSide F) (contextId : Int32) : RequestId := { contextId, requestId := s.requestIdGenerator + 1 }

theorem Inv.new (h : Inv config n m s) (hn : n + 1 < 2 ^ 32) (ctx : V8Context) (args : QueryArguments F)
    (contextId : Int32) :
    (∀ b id ctx args, s.Asked b id ctx args → id.requestId ≠ (s.newId contextId).requestId) ∧
      (s.sendQuery config ctx contextId args).2 = { s with
        requestIdGenerator := s.requestIdGenerator + 1
        browserRequestInfoMap :=
          s.browserRequestInfoMap.add ctx.browserId (s.newId contextId) args.toRequestInfo
        sent := s.sent ++ [(ctx.browserId, queryMessage config (args.query ctx (s.newId contextId)))]
        log := s.log ++ [.query ctx.browserId (s.newId contextId) ctx args] } ∧
      (s.browserRequestInfoMap.add ctx.browserId (s.newId contextId) args.toRequestInfo).entries.Perm
        ((ctx.browserId, s.newId contextId, args.toRequestInfo) :: s.requests) := by
  obtain ⟨hne, hnew, -⟩ := h.requestIds.next counts_int32 hn
  have hfresh : ∀ b id ctx args, s.Asked b id ctx args → id.requestId ≠ (s.newId contextId).requestId :=
    fun b id ctx args hasked heq => hnew ⟨b, id, ctx, args, hasked, heq⟩
  refine ⟨hfresh, ?_, CefBrowserInfoMap.entries_add fun info hinfo => ?_⟩
  · unfold sendQuery
    rw [getNextId_eq hne]
    rfl
  · obtain ⟨ctx', args', hasked, -⟩ := (h.kept _ _ _ hinfo).1
    exact hfresh _ _ _ _ hasked rfl

theorem Inv.sendQuery (h : Inv config n m s) (hn : n + 1 < 2 ^ 32) {contextId : Int32} {ctx' : V8Context}
    (hc : (contextId, c) ∈ s.contextMap) (hctx : Assoc.find? c s.contexts = some ctx')
    (hb : ctx'.browserId = ctx.browserId) : Inv config (n + 1) m (s.sendQuery config ctx contextId args).2 := by
  obtain ⟨hfresh, hs', hperm⟩ := h.new hn ctx args contextId
  obtain ⟨-, -, hgiven⟩ := h.requestIds.next counts_int32 hn
  rw [hs']
  generalize hid : s.newId contextId = id at *
  have hasked : ∀ {b id' ctx'' args'}, PageEvent.query b id' ctx'' args' ∈ s.log ++ [.query ctx.browserId id ctx args] →
      s.Asked b id' ctx'' args' ∨ b = ctx.browserId ∧ id' = id ∧ ctx'' = ctx ∧ args' = args := by
    intro b id' ctx'' args' hmem
    rcases List.mem_append.1 hmem with hmem | hmem
    · exact .inl hmem
    · have heq := List.mem_singleton.1 hmem
      cases heq
      exact .inr ⟨rfl, rfl, rfl, rfl⟩
  have hold : ∀ {b id' ctx'' args'}, s.Asked b id' ctx'' args' →
      PageEvent.query b id' ctx'' args' ∈ s.log ++ [.query ctx.browserId id ctx args] :=
    fun hmem => List.mem_append_left _ hmem
  have hself : PageEvent.query ctx.browserId id ctx args ∈ s.log ++ [.query ctx.browserId id ctx args] :=
    List.mem_append_right _ (.head _)
  have hcontext : id.contextId = contextId := by rw [← hid]; rfl
  refine { h with requestIds := ?_, contextIds := ?_, kept := ?_, unique := ?_, queries := ?_, cancels := ?_, executed := ?_ }
  · refine hgiven.mono (Nat.le_refl _) ?_
    rintro r ⟨b, id', ctx'', args', hmem, rfl⟩
    rcases hasked hmem with hmem | ⟨-, rfl, -⟩
    · exact .inl ⟨b, id', ctx'', args', hmem, rfl⟩
    · rw [← hid]
      exact .inr rfl
  · refine h.contextIds.mono (Nat.le_refl _) ?_
    rintro r (hr | ⟨b, id', ctx'', args', hmem, rfl⟩)
    · exact .inl hr
    · rcases hasked hmem with hmem | ⟨-, rfl, -⟩
      · exact .inr ⟨b, id', ctx'', args', hmem, rfl⟩
      · exact .inl ⟨c, hcontext ▸ hc⟩
  · intro b id' info hinfo
    rcases List.mem_cons.1 (hperm.mem_iff.1 hinfo) with heq | hinfo
    · cases heq
      exact ⟨⟨ctx, args, hself, rfl⟩, c, ctx', hcontext ▸ hc, hctx, hb⟩
    · obtain ⟨⟨ctx'', args', hmem, hinfo'⟩, hrest⟩ := h.kept b id' info hinfo
      exact ⟨⟨ctx'', args', hold hmem, hinfo'⟩, hrest⟩
  · intro b₁ id₁ ctx₁ args₁ b₂ id₂ ctx₂ args₂ h₁ h₂ heq
    rcases hasked h₁ with hold₁ | ⟨rfl, rfl, rfl, rfl⟩ <;> rcases hasked h₂ with hold₂ | ⟨rfl, rfl, rfl, rfl⟩
    · exact h.unique _ _ _ _ _ _ _ _ hold₁ hold₂ heq
    · exact absurd heq (hfresh _ _ _ _ hold₁)
    · exact absurd heq.symm (hfresh _ _ _ _ hold₂)
    · exact ⟨rfl, rfl, rfl, rfl⟩
  · intro b msg q hmem hread
    rcases List.mem_append.1 hmem with hmem | hmem
    · obtain ⟨ctx'', args', hmem, hq⟩ := h.queries b msg q hmem hread
      exact ⟨ctx'', args', hold hmem, hq⟩
    · have heq := List.mem_singleton.1 hmem
      cases heq
      rw [read_queryMessage, Option.some.injEq] at hread
      cases hread
      exact ⟨ctx, args, hself, rfl⟩
  · intro b msg i hmem hread
    rcases List.mem_append.1 hmem with hmem | hmem
    · obtain ⟨⟨b', id', ctx'', args', hmem, hcov⟩, hgone⟩ := h.cancels b msg i hmem hread
      exact ⟨⟨b', id', ctx'', args', hold hmem, hcov⟩, hgone⟩
    · have heq := List.mem_singleton.1 hmem
      cases heq
      rw [read_queryMessage] at hread
      cases hread
  · intro b id' reply f hmem
    rcases List.mem_append.1 hmem with hmem | hmem
    · obtain ⟨ctx'', args', hmem, hf⟩ := h.executed b id' reply f hmem
      exact ⟨ctx'', args', hold hmem, hf⟩
    · exact absurd (List.mem_singleton.1 hmem) (by simp)

/-- What a call that asks for nothing and takes nothing up leaves as it is. -/
theorem Inv.shrink (h : Inv config n m s) (map : CefBrowserInfoMap RequestId (RequestInfo F))
    (log : List (PageEvent F)) (sent : List (Int32 × CefProcessMessage)) (hmap : ∀ e ∈ map.entries, e ∈ s.requests)
    (hlog : ∀ e ∈ log, ∀ b id ctx args, e ≠ .query b id ctx args)
    (hexecuted : ∀ b id reply f, .replied b id reply f ∈ log → ∃ ctx args, s.Asked b id ctx args ∧ f = args.callback reply)
    (hqueries : ∀ b m q, (b, m) ∈ sent → ToBrowser.read config m = some (.query q) → (b, m) ∈ s.sent)
    (hcancels : ∀ b m i, (b, m) ∈ sent → ToBrowser.read config m = some (.cancel i) → (b, m) ∈ s.sent ∨
      (∃ b id ctx args, s.Asked b id ctx args ∧ i.Covers id) ∧
        (i.requestId = kReservedId → ∀ c, (i.contextId, c) ∉ s.contextMap)) :
    Inv config n m { s with browserRequestInfoMap := map, log := s.log ++ log, sent } := by
  have hasked : ∀ {b id ctx args}, PageEvent.query b id ctx args ∈ s.log ++ log → s.Asked b id ctx args := by
    intro b id ctx args hmem
    rcases List.mem_append.1 hmem with hmem | hmem
    exacts [hmem, absurd rfl (hlog _ hmem b id ctx args)]
  have hold : ∀ {b id ctx args}, s.Asked b id ctx args → PageEvent.query b id ctx args ∈ s.log ++ log :=
    fun hmem => List.mem_append_left _ hmem
  refine { h with requestIds := ?_, contextIds := ?_, kept := ?_, unique := ?_, queries := ?_, cancels := ?_, executed := ?_ }
  · refine h.requestIds.mono (Nat.le_refl _) ?_
    rintro r ⟨b, id, ctx, args, hmem, hr⟩
    exact ⟨b, id, ctx, args, hasked hmem, hr⟩
  · refine h.contextIds.mono (Nat.le_refl _) ?_
    rintro r (hr | ⟨b, id, ctx, args, hmem, hr⟩)
    exacts [.inl hr, .inr ⟨b, id, ctx, args, hasked hmem, hr⟩]
  · intro b id info hinfo
    obtain ⟨⟨ctx, args, hmem, hinfo'⟩, hrest⟩ := h.kept b id info (hmap _ hinfo)
    exact ⟨⟨ctx, args, hold hmem, hinfo'⟩, hrest⟩
  · exact fun _ _ _ _ _ _ _ _ h₁ h₂ => h.unique _ _ _ _ _ _ _ _ (hasked h₁) (hasked h₂)
  · intro b msg q hmem hread
    obtain ⟨ctx, args, hmem, hq⟩ := h.queries b msg q (hqueries b msg q hmem hread) hread
    exact ⟨ctx, args, hold hmem, hq⟩
  · intro b msg i hmem hread
    obtain ⟨⟨b', id, ctx, args, hmem, hcov⟩, hgone⟩ :=
      (hcancels b msg i hmem hread).elim (fun hs => h.cancels b msg i hs hread) id
    exact ⟨⟨b', id, ctx, args, hold hmem, hcov⟩, hgone⟩
  · intro b id reply f hmem
    obtain ⟨ctx, args, hmem, hf⟩ := (List.mem_append.1 hmem).elim (h.executed b id reply f) (hexecuted b id reply f)
    exact ⟨ctx, args, hold hmem, hf⟩

theorem Inv.sendCancel (hv : config.Valid) (h : Inv config n m s)
    (hgone : i.requestId = kReservedId → ∀ c, (i.contextId, c) ∉ s.contextMap) :
    Inv config n m (s.sendCancel config browserId i).2 := by
  obtain ⟨map, hs', hentries⟩ := sendCancel_spec config s browserId i
  rw [hs']
  refine h.shrink _ _ _ ?_ ?_ ?_ ?_ ?_
  · intro e he
    rw [hentries] at he
    exact (List.mem_filter.1 he).1
  · rintro _ he b id ctx args rfl
    obtain ⟨_, -, heq⟩ := List.mem_map.1 he
    cases heq
  · intro b id reply f he
    obtain ⟨_, -, heq⟩ := List.mem_map.1 he
    cases heq
  · intro b msg q hmem hread
    rcases List.mem_append.1 hmem with hmem | hmem
    · exact hmem
    · split at hmem
      · cases hmem
      · have heq := List.mem_singleton.1 hmem
        cases heq
        rw [read_cancelMessage hv] at hread
        cases hread
  · intro b msg j hmem hread
    rcases List.mem_append.1 hmem with hmem | hmem
    · exact .inl hmem
    · split at hmem
      · cases hmem
      · rename_i hne
        have heq := List.mem_singleton.1 hmem
        cases heq
        rw [read_cancelMessage hv, Option.some.injEq] at hread
        cases hread
        obtain ⟨⟨b, id, info⟩, he⟩ := List.exists_mem_of_ne_nil _ hne
        obtain ⟨hmem, hcan⟩ := List.mem_filter.1 he
        obtain ⟨ctx, args, hasked, -⟩ := (h.kept b id info hmem).1
        exact .inr ⟨⟨b, id, ctx, args, hasked, (of_decide_eq_true hcan).2⟩, hgone⟩

theorem Inv.runTask (h : Inv config n m s) (t : RendererTask) : Inv config n m (s.runTask t) := by
  obtain ⟨map, log, hs', hentries, hsome, hnone⟩ := runTask_spec s t
  have hmap : ∀ e ∈ map.entries, e ∈ s.requests := by
    intro e he
    rw [hentries] at he
    exact (List.mem_filter.1 he).1
  rw [hs']
  by_cases hex : ∃ info, (t.browserId, t.id, info) ∈ s.requests
  · obtain ⟨info, hmem⟩ := hex
    rw [hsome info hmem, h.called_eq hmem]
    refine h.shrink _ _ _ hmap ?_ ?_ (fun _ _ _ hm _ => hm) fun _ _ _ hm _ => .inl hm
    · intro e he b id ctx args
      rw [List.mem_singleton.1 he]
      simp
    · intro b id reply f he
      have heq := List.mem_singleton.1 he
      cases heq
      obtain ⟨ctx, args, hasked, hinfo⟩ := (h.kept _ _ _ hmem).1
      exact ⟨ctx, args, hasked, by rw [hinfo]⟩
  · rw [hnone fun info hmem => hex ⟨info, hmem⟩]
    exact h.shrink _ _ _ hmap (fun _ he => absurd he List.not_mem_nil) (fun _ _ _ _ he => absurd he List.not_mem_nil)
      (fun _ _ _ hm _ => hm) fun _ _ _ hm _ => .inl hm

/-- Messages are received, and tasks posted. -/
theorem Inv.of_sent {sent : List (Int32 × CefProcessMessage)} (h : Inv config n m s) (hsub : sent ⊆ s.sent)
    (tasks : List RendererTask) : Inv config n m { s with sent, tasks } :=
  { h with
    queries := fun b m q hm => h.queries b m q (hsub hm)
    cancels := fun b m i hm => h.cancels b m i (hsub hm) }

theorem Inv.mono {n' m' : Nat} (h : Inv config n m s) (hn : n ≤ n') (hm : m ≤ m') : Inv config n' m' s :=
  { h with
    requestIds := h.requestIds.mono hn fun _ hr => hr
    contextIds := h.contextIds.mono hm fun _ hr => hr }

/-- A call of a function of the window. -/
theorem Inv.execute (hv : config.Valid) (h : Inv config n m s) (hn : n + 1 < 2 ^ 32) (hm : m + 1 < 2 ^ 32)
    (hc : Assoc.find? c s.contexts = some ctx) (name : Bytes) (arguments : List (V8Value F)) :
    Inv config (n + 1) (m + 1) (s.execute config c ctx name arguments).2 := by
  obtain ⟨hid, -, hmem, ctx', hctx', hb⟩ := h.handlerContextId hm hc
  have hsame := h.mono (Nat.le_succ n) (Nat.le_succ m)
  unfold RendererSide.execute
  split
  · split
    · exact hsame
    · exact hid.sendQuery hn hmem hctx' hb
  · split
    · split
      · exact hsame
      · split
        · rename_i hne
          exact (hid.sendCancel hv fun hzero => absurd hzero hne).mono (Nat.le_succ n) (Nat.le_refl _)
        · exact hsame
    · exact hsame

theorem Inv.onContextCreated (h : Inv config n m s) (hc : Assoc.find? c s.contexts = none) (frameId : Int64)
    (isMain : Bool) : Inv config n m (s.onContextCreated c browserId frameId isMain) := by
  have hother : ∀ c' ctx, Assoc.find? c' s.contexts = some ctx →
      Assoc.find? c' (Assoc.insert c { browserId, frameId, isMain } s.contexts) = some ctx := by
    intro c' ctx hfind
    rw [Assoc.find?_insert_ne, hfind]
    rintro rfl
    rw [hc] at hfind
    cases hfind
  refine { h with handler := ?_, context := ?_, kept := ?_ }
  · intro c' ctx hfind hid
    by_cases hcc : c' = c
    · subst hcc
      have hself := Assoc.find?_insert_self c' ({ browserId, frameId, isMain } : V8Context) s.contexts
      have heq := Option.some.inj (hself.symm.trans hfind)
      subst heq
      exact absurd rfl hid
    · refine h.handler c' ctx ?_ hid
      exact (Assoc.find?_insert_ne hcc _ _).symm.trans hfind
  · intro r c' hr
    obtain ⟨ctx, hfind, hid⟩ := h.context r c' hr
    exact ⟨ctx, hother c' ctx hfind, hid⟩
  · intro b id info hinfo
    obtain ⟨hasked, c', ctx, hr, hfind, hb⟩ := h.kept b id info hinfo
    exact ⟨hasked, c', ctx, hr, hother c' ctx hfind, hb⟩

/-- A context goes with which no request is kept. -/
theorem Inv.release (h : Inv config n m s) (c : Nat) {contextMap : List (Int32 × Nat)} (hsub : contextMap.Sublist s.contextMap)
    (hmem : ∀ r c', (r, c') ∈ contextMap ↔ (r, c') ∈ s.contextMap ∧ c' ≠ c)
    (hkept : ∀ b id info, (b, id, info) ∈ s.requests → (id.contextId, c) ∉ s.contextMap) :
    Inv config n m { s with contextMap, contexts := Assoc.erase c s.contexts } := by
  have hne : ∀ c' ctx, Assoc.find? c' (Assoc.erase c s.contexts) = some ctx →
      c' ≠ c ∧ Assoc.find? c' s.contexts = some ctx := by
    intro c' ctx hfind
    have hcc : c' ≠ c := by
      rintro rfl
      rw [Assoc.find?_erase_self] at hfind
      cases hfind
    exact ⟨hcc, (Assoc.find?_erase_ne hcc _).symm.trans hfind⟩
  refine { h with contextIds := ?_, ids := ?_, contexts := ?_, handler := ?_, context := ?_, kept := ?_, cancels := ?_ }
  · refine h.contextIds.mono (Nat.le_refl _) ?_
    rintro r (⟨c', hr⟩ | hr)
    exacts [.inl ⟨c', ((hmem r c').1 hr).1⟩, .inr hr]
  · exact h.ids.sublist (hsub.map _)
  · exact h.contexts.sublist (hsub.map _)
  · intro c' ctx hfind hid
    obtain ⟨hcc, hfind⟩ := hne c' ctx hfind
    exact (hmem _ _).2 ⟨h.handler c' ctx hfind hid, hcc⟩
  · intro r c' hr
    obtain ⟨hold, hcc⟩ := (hmem r c').1 hr
    obtain ⟨ctx, hfind, hid⟩ := h.context r c' hold
    exact ⟨ctx, (Assoc.find?_erase_ne hcc _).trans hfind, hid⟩
  · intro b id info hinfo
    obtain ⟨hasked, c', ctx, hr, hfind, hb⟩ := h.kept b id info hinfo
    have hcc : c' ≠ c := by
      rintro rfl
      exact hkept b id info hinfo hr
    exact ⟨hasked, c', ctx, (hmem _ _).2 ⟨hr, hcc⟩, (Assoc.find?_erase_ne hcc _).trans hfind, hb⟩
  · intro b msg i hsent hread
    obtain ⟨hasked, hgone⟩ := h.cancels b msg i hsent hread
    exact ⟨hasked, fun hi c' hr => hgone hi c' ((hmem _ _).1 hr).1⟩

/-- All requests of the context are canceled, if it has been given an ID. -/
theorem Inv.onContextReleased_spec (h : Inv config n m s) (hm : m < 2 ^ 32) (c : Nat) (ctx : V8Context) :
    (∀ r, (r, c) ∉ s.contextMap) ∧
      s.onContextReleased config c ctx = { s with contexts := Assoc.erase c s.contexts } ∨
    ∃ r map, (r, c) ∈ s.contextMap ∧ s.onContextReleased config c ctx = { s with
        contextMap := Assoc.erase r s.contextMap
        contexts := Assoc.erase c s.contexts
        browserRequestInfoMap := map
        log := s.log ++ (s.requests.filter (Canceled ctx.browserId ⟨r, kReservedId⟩ ·)).map fun e => .canceled e.1 e.2.1
        sent := s.sent ++ if s.requests.filter (Canceled ctx.browserId ⟨r, kReservedId⟩ ·) = [] then []
          else [(ctx.browserId, cancelMessage config ⟨r, kReservedId⟩)] } ∧
      map.entries = s.requests.filter (¬ Canceled ctx.browserId ⟨r, kReservedId⟩ ·) := by
  unfold RendererSide.onContextReleased getIDForContext
  cases hfind : s.contextMap.find? fun e => decide (e.2 = c) with
  | none =>
    refine .inl ⟨fun r hr => ?_, rfl⟩
    have := List.find?_eq_none.1 hfind _ hr
    simp at this
  | some e =>
    obtain ⟨r, c'⟩ := e
    have hmem := List.mem_of_find?_eq_some hfind
    obtain rfl : c' = c := by simpa using List.find?_some hfind
    obtain ⟨map, hs', hentries⟩ := sendCancel_spec config
      { s with contextMap := Assoc.erase r s.contextMap } ctx.browserId ⟨r, kReservedId⟩
    refine .inr ⟨r, map, hmem, ?_, hentries⟩
    have hne : r ≠ kReservedId := h.contextIds.ne_zero counts_int32 hm (.inl ⟨_, hmem⟩)
    dsimp only
    rw [if_pos rfl, if_pos hne, hs']

theorem Inv.onContextReleased (hv : config.Valid) (h : Inv config n m s) (hm : m < 2 ^ 32)
    (hc : Assoc.find? c s.contexts = some ctx) : Inv config n m (s.onContextReleased config c ctx) := by
  rcases h.onContextReleased_spec hm c ctx with ⟨hno, hs'⟩ | ⟨r, map, hr, hs', hentries⟩
  · rw [hs']
    refine h.release c (List.Sublist.refl _) (fun r c' => ⟨fun hr => ⟨hr, ?_⟩, And.left⟩) fun _ _ _ _ => hno _
    rintro rfl
    exact hno r hr
  · rw [hs']
    have hmap : ∀ e ∈ map.entries, e ∈ s.requests ∧ ¬ Canceled ctx.browserId ⟨r, kReservedId⟩ e := by
      intro e he
      rw [hentries] at he
      obtain ⟨hmem, hnot⟩ := List.mem_filter.1 he
      exact ⟨hmem, by simpa using hnot⟩
    have hcleared := h.shrink map
      ((s.requests.filter (Canceled ctx.browserId ⟨r, kReservedId⟩ ·)).map fun e => .canceled e.1 e.2.1) s.sent
      (fun e he => (hmap e he).1)
      (by
        rintro _ he b id ctx args rfl
        obtain ⟨_, -, heq⟩ := List.mem_map.1 he
        cases heq)
      (by
        intro b id reply f he
        obtain ⟨_, -, heq⟩ := List.mem_map.1 he
        cases heq)
      (fun _ _ _ hmem _ => hmem) fun _ _ _ hmem _ => .inl hmem
    have hreleased := hcleared.release c (List.filter_sublist (p := fun e => e.1 ≠ r))
      (by
        intro r' c'
        rw [List.mem_filter, decide_eq_true_iff]
        refine and_congr_right fun hr' => not_congr ⟨?_, ?_⟩
        · rintro rfl
          exact Option.some.inj ((Assoc.find?_of_mem h.ids hr').symm.trans (Assoc.find?_of_mem h.ids hr))
        · rintro rfl
          exact congrArg Prod.fst (List.inj_on_of_nodup_map h.contexts hr' hr rfl))
      (by
        intro b id info hinfo hmem
        obtain ⟨hold, hnot⟩ := hmap _ hinfo
        obtain ⟨-, c', ctx', hc', hctx', hb⟩ := h.kept b id info hold
        have heq : id.contextId = r := congrArg Prod.fst (List.inj_on_of_nodup_map h.contexts hmem hr rfl)
        have hcc : c' = c := Option.some.inj
          ((Assoc.find?_of_mem h.ids hc').symm.trans (Assoc.find?_of_mem h.ids hmem))
        rw [hcc, hc, Option.some.injEq] at hctx'
        subst hctx'
        exact hnot ⟨hb.symm, heq, .inl rfl⟩)
    have hfinal := hreleased.shrink map []
      (s.sent ++ if s.requests.filter (Canceled ctx.browserId ⟨r, kReservedId⟩ ·) = [] then []
        else [(ctx.browserId, cancelMessage config ⟨r, kReservedId⟩)])
      (fun _ he => he) (fun _ he => absurd he List.not_mem_nil) (fun _ _ _ _ he => absurd he List.not_mem_nil)
      (by
        intro b msg q hmem hread
        rcases List.mem_append.1 hmem with hmem | hmem
        · exact hmem
        · split at hmem
          · cases hmem
          · have heq := List.mem_singleton.1 hmem
            cases heq
            rw [read_cancelMessage hv] at hread
            cases hread)
      (by
        intro b msg i hmem hread
        rcases List.mem_append.1 hmem with hmem | hmem
        · exact .inl hmem
        · split at hmem
          · cases hmem
          · rename_i hne
            have heq := List.mem_singleton.1 hmem
            cases heq
            rw [read_cancelMessage hv, Option.some.injEq] at hread
            cases hread
            obtain ⟨⟨b, id, info⟩, he⟩ := List.exists_mem_of_ne_nil _ hne
            obtain ⟨hold, hcan⟩ := List.mem_filter.1 he
            obtain ⟨ctx', args, hasked, -⟩ := (h.kept b id info hold).1
            refine .inr ⟨⟨b, id, ctx', args, List.mem_append_left _ hasked, (of_decide_eq_true hcan).2⟩, ?_⟩
            intro _ c' hc'
            exact of_decide_eq_true (List.mem_filter.1 hc').2 rfl)
    rwa [List.append_nil] at hfinal

end RendererSide

end CefMessageRouter

end NplBrowser
