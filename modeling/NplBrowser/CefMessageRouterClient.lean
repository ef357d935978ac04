import NplBrowser.CefMessageRouterRequests
import NplBrowser.Lib.Request

/-!
# One request on the renderer side

How one request fares there: it is the client of `Request`, waiting as long as it is kept.
-/

namespace NplBrowser

open Visit Counter

namespace CefMessageRouter

namespace RendererSide

variable {F : Type} {config : Config} {s s' : RendererSide F} {b browserId : Int32} {id i : RequestId}
  {info : RequestInfo F} {c : Nat} {ctx : V8Context} {args : QueryArguments F} {n m : Nat}

/-- A message to the browser process, as it concerns the request. -/
def upOf (config : Config) (b : Int32) (id : RequestId) (e : Int32 × CefProcessMessage) : Option Request.Up :=
  match ToBrowser.read config e.2 with
  | some (.query q) => if e.1 = b ∧ q.id = id then some .query else none
  | some (.cancel i) => if e.1 = b ∧ i.Covers id then some .cancel else none
  | none => none

/-- A task that has a reply to the request. -/
def replyOf (b : Int32) (id : RequestId) (t : RendererTask) : Option Reply :=
  if t.browserId = b ∧ t.id = id then some t.reply else none

/-- What the request has been replied to with. -/
def seenOf (b : Int32) (id : RequestId) : PageEvent F → Option Reply
  | .replied b' id' reply _ => if b' = b ∧ id' = id then some reply else none
  | _ => none

/-- The request as the client of `a`. -/
structure Client (config : Config) (b : Int32) (id : RequestId) (s : RendererSide F) (a : Request.State Reply) :
    Prop where
  waiting : a.client = .waiting ↔ ∃ info, (b, id, info) ∈ s.requests
  asked : a.client ≠ .idle
  up : a.up = s.sent.filterMap (upOf config b id)
  seen : a.seen = s.log.filterMap (seenOf b id)

variable {a : Request.State Reply}

theorem upOf_query (q : Query) :
    upOf config b id (browserId, queryMessage config q) = if browserId = b ∧ q.id = id then some .query else none := by
  unfold upOf
  rw [read_queryMessage]

theorem upOf_cancel (hv : config.Valid) :
    upOf config b id (browserId, cancelMessage config i) = if browserId = b ∧ i.Covers id then some .cancel else none := by
  unfold upOf
  rw [read_cancelMessage hv]

/-- What is canceled is taken back; a context's other requests may have been before. -/
theorem Client.cancel (hv : config.Valid) (h : Client config b id s a) {map : CefBrowserInfoMap RequestId (RequestInfo F)}
    (hmap : map.entries = s.requests.filter (¬ Canceled browserId i ·)) (hs' : s'.browserRequestInfoMap = map)
    (hlog : s'.log = s.log ++ (s.requests.filter (Canceled browserId i ·)).map fun e => .canceled e.1 e.2.1)
    (hsent : s'.sent = s.sent ++
      if s.requests.filter (Canceled browserId i ·) = [] then [] else [(browserId, cancelMessage config i)]) :
    Client config b id s' a ∨ Client config b id s' { a with client := .closed, up := a.up ++ [.cancel] } := by
  have hseen : s'.log.filterMap (seenOf b id) = s.log.filterMap (seenOf b id) := by
    rw [hlog, List.filterMap_append, List.filterMap_map]
    have : (s.requests.filter (Canceled browserId i ·)).filterMap
        (seenOf b id ∘ fun e => (PageEvent.canceled e.1 e.2.1 : PageEvent F)) = [] :=
      List.filterMap_eq_nil_iff.2 fun _ _ => rfl
    rw [this, List.append_nil]
  have hmem : ∀ info, (b, id, info) ∈ s'.requests ↔
      (b, id, info) ∈ s.requests ∧ ¬ (b = browserId ∧ i.Covers id) := by
    intro info
    rw [requests, hs', hmap, List.mem_filter, decide_eq_true_iff]
    rfl
  by_cases hnil : s.requests.filter (Canceled browserId i ·) = []
  · rw [if_pos hnil, List.append_nil] at hsent
    refine .inl ⟨h.waiting.trans (exists_congr fun info => ?_), h.asked, by rw [hsent]; exact h.up,
      by rw [hseen]; exact h.seen⟩
    rw [hmem]
    refine ⟨fun hinfo => ⟨hinfo, fun hcan => ?_⟩, And.left⟩
    have := List.filter_eq_nil_iff.1 hnil _ hinfo
    exact this (decide_eq_true hcan)
  · rw [if_neg hnil] at hsent
    have hup : s'.sent.filterMap (upOf config b id) =
        a.up ++ (if browserId = b ∧ i.Covers id then [.cancel] else []) := by
      rw [hsent, List.filterMap_append, h.up, List.filterMap_cons, upOf_cancel hv]
      split <;> simp_all
    by_cases hcan : browserId = b ∧ i.Covers id
    · rw [if_pos hcan] at hup
      refine .inr ⟨iff_of_false nofun ?_, nofun, hup.symm, by rw [hseen]; exact h.seen⟩
      rintro ⟨info, hinfo⟩
      exact ((hmem info).1 hinfo).2 ⟨hcan.1.symm, hcan.2⟩
    · rw [if_neg hcan, List.append_nil] at hup
      refine .inl ⟨h.waiting.trans (exists_congr fun info => ?_), h.asked, hup.symm, by rw [hseen]; exact h.seen⟩
      rw [hmem]
      exact ⟨fun hinfo => ⟨hinfo, fun hc => hcan ⟨hc.1.symm, hc.2⟩⟩, And.left⟩

theorem Client.sendQuery (h : Client config b id s a) (hi : Inv config n m s) (hn : n + 1 < 2 ^ 32)
    (hasked : ∃ ctx args, s.Asked b id ctx args) {contextId : Int32} :
    Client config b id (s.sendQuery config ctx contextId args).2 a := by
  obtain ⟨hfresh, hs', hperm⟩ := hi.new hn ctx args contextId
  obtain ⟨ctx', args', hasked⟩ := hasked
  have hne : s.newId contextId ≠ id := by
    rintro rfl
    exact hfresh _ _ _ _ hasked rfl
  rw [hs']
  refine ⟨h.waiting.trans (exists_congr fun info => ?_), h.asked, ?_, ?_⟩
  · refine ⟨fun hinfo => hperm.mem_iff.2 (.tail _ hinfo), fun hinfo => ?_⟩
    rcases List.mem_cons.1 (hperm.mem_iff.1 hinfo) with heq | hinfo
    · exact absurd (Prod.mk.inj (Prod.mk.inj heq).2).1.symm hne
    · exact hinfo
  · show a.up = List.filterMap (upOf config b id) (s.sent ++ _)
    have hnone : upOf config b id (ctx.browserId, queryMessage config (args.query ctx (s.newId contextId))) = none := by
      rw [upOf_query]
      exact if_neg fun hq => hne hq.2
    rw [List.filterMap_append, h.up, List.filterMap_cons, hnone]
    simp
  · show a.seen = List.filterMap (seenOf b id) (s.log ++ _)
    rw [List.filterMap_append, h.seen]
    exact (List.append_nil _).symm

/-- A new request. -/
theorem Client.new (hi : Inv config n m s) (hn : n + 1 < 2 ^ 32) {contextId : Int32}
    (hc : (contextId, c) ∈ s.contextMap) : Client config ctx.browserId (s.newId contextId)
      (s.sendQuery config ctx contextId args).2 { client := .waiting, up := [.query] } := by
  obtain ⟨hfresh, hs', hperm⟩ := hi.new hn ctx args contextId
  rw [hs']
  refine ⟨iff_of_true rfl ⟨_, hperm.mem_iff.2 (.head _)⟩, nofun, ?_, ?_⟩
  · have hnil : s.sent.filterMap (upOf config ctx.browserId (s.newId contextId)) = [] := by
      refine List.filterMap_eq_nil_iff.2 ?_
      rintro ⟨b, msg⟩ hmem
      unfold upOf
      dsimp only
      split
      · rename_i q hread
        obtain ⟨ctx', args', hasked, -⟩ := hi.queries b msg q hmem hread
        exact if_neg fun hq => hfresh _ _ _ _ hasked (by rw [hq.2])
      · rename_i i hread
        obtain ⟨⟨b', id, ctx', args', hasked, hcov⟩, hgone⟩ := hi.cancels b msg i hmem hread
        refine if_neg fun hq => ?_
        obtain ⟨-, hcontext, hrequest⟩ := hq
        rcases hrequest with hzero | hrequest
        · exact hgone hzero c (hcontext ▸ hc)
        · rcases hcov.2 with hzero | hcov
          · exact hgone hzero c (hcontext ▸ hc)
          · exact hfresh _ _ _ _ hasked (hcov.trans hrequest.symm)
      · rfl
    show _ = List.filterMap (upOf config ctx.browserId (s.newId contextId)) (s.sent ++ _)
    rw [List.filterMap_append, hnil, List.filterMap_cons, upOf_query, if_pos ⟨rfl, rfl⟩]
    rfl
  · have hnil : s.log.filterMap (seenOf ctx.browserId (s.newId contextId)) = [] := by
      refine List.filterMap_eq_nil_iff.2 fun e he => ?_
      match e, he with
      | .replied b id reply f, he =>
        obtain ⟨ctx', args', hasked, -⟩ := hi.executed b id reply f he
        exact if_neg fun hq => hfresh _ _ _ _ hasked (by rw [hq.2])
      | .query .., _ => rfl
      | .canceled .., _ => rfl
    show [] = List.filterMap (seenOf ctx.browserId (s.newId contextId)) (s.log ++ _)
    rw [List.filterMap_append, hnil]
    rfl

/-- A reply is seen by a request that waits. -/
theorem Client.runTask (h : Client config b id s a) (hi : Inv config n m s) (hasked : s.Asked b id ctx args)
    (t : RendererTask) : Client config b id (s.runTask t) (match replyOf b id t with
      | some r =>
        if a.client = .waiting then
          { a with seen := a.seen ++ [r], client := if r.closing args.persistent then .closed else .waiting }
        else a
      | none => a) := by
  obtain ⟨map, log, hs', hentries, hsome, hnone⟩ := runTask_spec s t
  rw [hs']
  have hmem : ∀ b' id' info, (b', id', info) ∈ map.entries ↔ (b', id', info) ∈ s.requests ∧
      ¬ (b' = t.browserId ∧ id' = t.id ∧ t.reply.closing info.persistent = true) := by
    intro b' id' info
    rw [hentries, List.mem_filter, Bool.not_eq_true', decide_eq_false_iff_not]
  have hseen : ∀ l, List.filterMap (seenOf b id) (s.log ++ l) = a.seen ++ l.filterMap (seenOf b id) := fun l => by
    rw [List.filterMap_append, h.seen]
  unfold replyOf
  by_cases hkey : t.browserId = b ∧ t.id = id
  · obtain ⟨rfl, rfl⟩ := hkey
    rw [if_pos ⟨rfl, rfl⟩]
    dsimp only
    split
    · rename_i hw
      obtain ⟨info, hinfo⟩ := h.waiting.1 hw
      obtain ⟨ctx', args', hasked', rfl⟩ := (hi.kept _ _ _ hinfo).1
      obtain ⟨-, -, rfl, rfl⟩ := hi.unique _ _ _ _ _ _ _ _ hasked hasked' rfl
      refine ⟨?_, ?_, h.up, ?_⟩
      · dsimp only
        split
        · rename_i hclose
          refine iff_of_false nofun ?_
          rintro ⟨info, hinfo'⟩
          obtain ⟨hold, hnot⟩ := (hmem _ _ _).1 hinfo'
          rw [CefBrowserInfoMap.eq_of_mem_entries hold hinfo] at hnot
          exact hnot ⟨rfl, rfl, hclose⟩
        · rename_i hclose
          exact iff_of_true rfl ⟨_, (hmem _ _ _).2 ⟨hinfo, fun hc => hclose hc.2.2⟩⟩
      · dsimp only
        split <;> exact nofun
      · dsimp only
        rw [hseen, hsome _ hinfo, List.filterMap_cons]
        simp [seenOf]
    · rename_i hw
      have hno : ∀ info, (t.browserId, t.id, info) ∉ s.requests := fun info hinfo => hw (h.waiting.2 ⟨info, hinfo⟩)
      refine ⟨h.waiting.trans (exists_congr fun info => ?_), h.asked, h.up, ?_⟩
      · exact ⟨fun hinfo => absurd hinfo (hno info), fun hinfo => ((hmem _ _ _).1 hinfo).1⟩
      · rw [hseen, hnone hno]
        exact (List.append_nil _).symm
  · rw [if_neg hkey]
    dsimp only
    refine ⟨h.waiting.trans (exists_congr fun info => ?_), h.asked, h.up, ?_⟩
    · exact ⟨fun hinfo => (hmem _ _ _).2 ⟨hinfo, fun hc => hkey ⟨hc.1.symm, hc.2.1.symm⟩⟩,
        fun hinfo => ((hmem _ _ _).1 hinfo).1⟩
    · rw [hseen]
      have hnil : log.filterMap (seenOf b id) = [] := by
        by_cases hex : ∃ info, (t.browserId, t.id, info) ∈ s.requests
        · obtain ⟨info, hinfo⟩ := hex
          rw [hsome info hinfo, List.filterMap_cons]
          simp [seenOf, hkey]
        · rw [hnone fun info hinfo => hex ⟨info, hinfo⟩]
          rfl
      rw [hnil, List.append_nil]

/-- What a call that asks for nothing is to the requests. -/
structure Takes (config : Config) (s s' : RendererSide F) : Prop where
  tasks : s'.tasks = s.tasks
  asked : ∀ b id ctx args, s'.Asked b id ctx args ↔ s.Asked b id ctx args
  client : ∀ b id a, Client config b id s a →
    Client config b id s' a ∨ Client config b id s' { a with client := .closed, up := a.up ++ [.cancel] }

/-- And what one that asks is. -/
structure Asks (config : Config) (s s' : RendererSide F) (b : Int32) (id : RequestId) (ctx : V8Context)
    (args : QueryArguments F) : Prop where
  tasks : s'.tasks = s.tasks
  asked : ∀ b' id' ctx' args', s'.Asked b' id' ctx' args' ↔
    s.Asked b' id' ctx' args' ∨ b' = b ∧ id' = id ∧ ctx' = ctx ∧ args' = args
  fresh : ∀ ctx args, ¬ s.Asked b id ctx args
  client : ∀ b' id' a, (∃ ctx args, s.Asked b' id' ctx args) → Client config b' id' s a → Client config b' id' s' a
  new : Client config b id s' { client := .waiting, up := [.query] }

theorem Takes.refl (config : Config) (s : RendererSide F) : Takes config s s :=
  ⟨rfl, fun _ _ _ _ => Iff.rfl, fun _ _ _ h => .inl h⟩

theorem takes_of_canceled (hv : config.Valid) {map : CefBrowserInfoMap RequestId (RequestInfo F)}
    (hmap : map.entries = s.requests.filter (¬ Canceled browserId i ·)) (hs' : s'.browserRequestInfoMap = map)
    (hlog : s'.log = s.log ++ (s.requests.filter (Canceled browserId i ·)).map fun e => .canceled e.1 e.2.1)
    (hsent : s'.sent = s.sent ++
      if s.requests.filter (Canceled browserId i ·) = [] then [] else [(browserId, cancelMessage config i)])
    (htasks : s'.tasks = s.tasks) : Takes config s s' where
  tasks := htasks
  asked b id ctx args := by
    unfold Asked
    rw [hlog, List.mem_append]
    exact or_iff_left (by simp)
  client _ _ _ h := h.cancel hv hmap hs' hlog hsent

theorem takes_onContextCreated (config : Config) (s : RendererSide F) (c : Nat) (browserId : Int32) (frameId : Int64)
    (isMain : Bool) : Takes config s (s.onContextCreated c browserId frameId isMain) :=
  ⟨rfl, fun _ _ _ _ => Iff.rfl, fun _ _ _ h => .inl { h with }⟩

theorem Inv.takes_onContextReleased (hv : config.Valid) (h : Inv config n m s) (hm : m < 2 ^ 32) (c : Nat)
    (ctx : V8Context) : Takes config s (s.onContextReleased config c ctx) := by
  rcases h.onContextReleased_spec hm c ctx with ⟨-, hs'⟩ | ⟨r, map, -, hs', hentries⟩
  · rw [hs']
    exact ⟨rfl, fun _ _ _ _ => Iff.rfl, fun _ _ _ h => .inl { h with }⟩
  · rw [hs']
    exact takes_of_canceled hv hentries rfl rfl rfl rfl

theorem Inv.asks_execute (hv : config.Valid) (h : Inv config n m s) (hn : n + 1 < 2 ^ 32) (hm : m + 1 < 2 ^ 32)
    (hc : Assoc.find? c s.contexts = some ctx) (name : Bytes) (arguments : List (V8Value F)) :
    Takes config s (s.execute config c ctx name arguments).2 ∨
      ∃ id args, Asks config s (s.execute config c ctx name arguments).2 ctx.browserId id ctx args := by
  obtain ⟨hid, ⟨_, _, _, hsame⟩, hmem, -⟩ := h.handlerContextId hm hc
  generalize hs₁ : (s.handlerContextId c ctx).2 = s₁ at *
  have hasked₁ : ∀ b id ctx' args', s₁.Asked b id ctx' args' ↔ s.Asked b id ctx' args' := by
    intro b id ctx' args'
    rw [hsame]
    rfl
  have hclient₁ : ∀ b id a, Client config b id s a → Client config b id s₁ a := by
    intro b id a hcl
    rw [hsame]
    exact { hcl with }
  have htasks₁ : s₁.tasks = s.tasks := by rw [hsame]
  unfold RendererSide.execute
  split
  · split
    · exact .inl (.refl config s)
    · rename_i args _
      obtain ⟨hfresh, hs', -⟩ := hid.new hn ctx args (s.handlerContextId c ctx).1
      refine .inr ⟨s₁.newId (s.handlerContextId c ctx).1, args, ⟨?_, fun b' id' ctx' args' => ?_, fun ctx' args' hasked => ?_,
        fun b' id' a hasked hcl => ?_, ?_⟩⟩
      · dsimp only
        rw [hs₁, hs', htasks₁]
      · dsimp only
        rw [hs₁, hs', ← hasked₁]
        show PageEvent.query b' id' ctx' args' ∈ s₁.log ++ [_] ↔ _
        rw [List.mem_append, List.mem_singleton, PageEvent.query.injEq]
        rfl
      · exact hfresh _ _ _ _ ((hasked₁ _ _ _ _).2 hasked) rfl
      · dsimp only
        rw [hs₁]
        refine (hclient₁ b' id' a hcl).sendQuery hid hn ?_
        obtain ⟨ctx', args', hasked⟩ := hasked
        exact ⟨ctx', args', (hasked₁ _ _ _ _).2 hasked⟩
      · dsimp only
        rw [hs₁]
        exact Client.new hid hn hmem
  · split
    · split
      · exact .inl (.refl config s)
      · rename_i requestId _
        split
        · obtain ⟨map, hs', hentries⟩ := sendCancel_spec config s₁ ctx.browserId
            { contextId := (s.handlerContextId c ctx).1, requestId }
          have htakes : Takes config s₁ (s₁.sendCancel config ctx.browserId
              { contextId := (s.handlerContextId c ctx).1, requestId }).2 := by
            rw [hs']
            exact takes_of_canceled hv hentries rfl rfl rfl rfl
          refine .inl ⟨?_, fun b id ctx' args' => ?_, fun b id a hcl => ?_⟩
          · dsimp only
            rw [hs₁, htakes.tasks, htasks₁]
          · dsimp only
            rw [hs₁, htakes.asked, hasked₁]
          · dsimp only
            rw [hs₁]
            exact htakes.client b id a (hclient₁ b id a hcl)
        · exact .inl (.refl config s)
    · exact .inl (.refl config s)

end RendererSide

end CefMessageRouter

end NplBrowser
