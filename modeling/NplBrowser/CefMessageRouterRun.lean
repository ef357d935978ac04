import NplBrowser.CefMessageRouterClient
import NplBrowser.CefMessageRouterOffer

/-!
# The message router in two processes

Runs of the two sides and of the channels between them, in any order. Handlers call the router again from
`OnQuery` only.
-/

namespace NplBrowser

namespace CefMessageRouter

structure Router (F : Type) where
  browser : BrowserSide := {}
  renderer : RendererSide F := {}

inductive Label (F : Type)
  | contextCreated (c : Nat) (browserId : Int32) (frameId : Int64) (isMain : Bool)
  /-- The page calls a function of the window. -/
  | execute (c : Nat) (name : Bytes) (arguments : List (V8Value F))
  | contextReleased (c : Nat)
  /-- The renderer process receives a message. -/
  | rendererReceives
  | rendererTask
  /-- The browser process receives a message. -/
  | browserReceives (onQuery : OnQuery)
  | uiTask
  /-- Not while a query is being offered. -/
  | perform (action : HandlerAction)
  | beforeClose (browserId : Int32)
  | renderProcessTerminated (browserId : Int32)
  | beforeBrowse (browserId : Int32) (isMain : Bool)

variable {F : Type}

def step (config : Config) (s : Router F) : Label F → Option (Router F)
  | .contextCreated c browserId frameId isMain =>
    if (Assoc.find? c s.renderer.contexts).isSome then none
    else some { s with renderer := s.renderer.onContextCreated c browserId frameId isMain }
  | .execute c name arguments =>
    (Assoc.find? c s.renderer.contexts).map fun ctx =>
      { s with renderer := (s.renderer.execute config c ctx name arguments).2 }
  | .contextReleased c =>
    (Assoc.find? c s.renderer.contexts).map fun ctx =>
      { s with renderer := s.renderer.onContextReleased config c ctx }
  | .rendererReceives =>
    match s.browser.sent with
    | (browserId, m) :: sent =>
      some
        { browser := { s.browser with sent }
          renderer := (s.renderer.onProcessMessageReceived config browserId m).2 }
    | [] => none
  | .rendererTask =>
    match s.renderer.tasks with
    | t :: tasks => some { s with renderer := { s.renderer with tasks }.runTask t }
    | [] => none
  | .browserReceives onQuery =>
    match s.renderer.sent with
    | (browserId, m) :: sent =>
      some
        { browser := (s.browser.onProcessMessageReceived config onQuery browserId m).2
          renderer := { s.renderer with sent } }
    | [] => none
  | .uiTask =>
    match s.browser.tasks with
    | t :: tasks => some { s with browser := { s.browser with tasks }.runTask config t }
    | [] => none
  | .perform action => some { s with browser := s.browser.perform config action }
  | .beforeClose browserId => some { s with browser := s.browser.onBeforeClose config browserId }
  | .renderProcessTerminated browserId =>
    some { s with browser := s.browser.onRenderProcessTerminated config browserId }
  | .beforeBrowse browserId isMain =>
    some { s with browser := s.browser.onBeforeBrowse config browserId isMain }

/-! ### One request -/

def Router.Asked (s : Router F) (b : Int32) (id : RequestId) : Prop := ∃ ctx args, s.renderer.Asked b id ctx args

/-- A request as one of `Request`. Of one that has not been made only the server is looked at. -/
structure Sim (config : Config) (b : Int32) (id : RequestId) (persistent : Bool) (o : Option Int64) (s : Router F)
    (a : Request.State Reply) : Prop where
  run : ∃ es, Lts.exec (Request.step (Reply.closing persistent) canceled) {} es = some a
  client : s.Asked b id → RendererSide.Client config b id s.renderer a
  idle : ¬ s.Asked b id → a.client = .idle
  server : BrowserSide.Server b id persistent o s.browser a
  down : a.down = s.renderer.tasks.filterMap (RendererSide.replyOf b id) ++ s.browser.down config b id
  asking : a.server ≠ .asking

/-- The replies to the request are those to persistent queries just when it is persistent. -/
def Fits (s : Router F) (b : Int32) (id : RequestId) (persistent : Bool) : Prop :=
  ∀ ctx args, s.renderer.Asked b id ctx args → args.persistent = persistent

/-- The page has called functions at most `n` times, and the browser process received at most `k` messages. -/
structure Inv (config : Config) (n k : Nat) (s : Router F) : Prop where
  renderer : RendererSide.Inv config n n s.renderer
  browser : BrowserSide.Inv k s.browser
  /-- What has been received has been asked. -/
  received : ∀ q b query, s.browser.Received q b query →
    ∃ ctx args, s.renderer.Asked b query.id ctx args ∧ query = args.query ctx query.id
  request : ∀ b id persistent, Fits s b id persistent → ∃ a o, Sim config b id persistent o s a

variable {config : Config} {s s' : Router F} {b : Int32} {id : RequestId} {persistent : Bool} {o : Option Int64}
  {a a' : Request.State Reply} {n n' k k' : Nat}

theorem Sim.inv (h : Sim config b id persistent o s a) : Request.Inv (Reply.closing persistent) canceled a := by
  obtain ⟨es, hes⟩ := h.run
  exact Request.Inv.run rfl (Lts.run_of_exec hes)

/-- A request that has not been made is nothing to the server. -/
theorem Sim.eq_init (h : Sim config b id persistent o s a) (hno : ¬ s.Asked b id) : a = {} := h.inv.idle (h.idle hno)

theorem Inv.init : Inv config 0 0 ({} : Router F) where
  renderer := .init
  browser := .init
  received q b query h := absurd h List.not_mem_nil
  request b id persistent _ := by
    refine ⟨{}, none, ⟨⟨[], rfl⟩, ?_, fun _ => rfl, ?_, rfl, nofun⟩⟩
    · rintro ⟨ctx, args, hmem⟩
      exact absurd hmem List.not_mem_nil
    · refine ⟨fun q => iff_of_false ?_ nofun, fun q query hmem => absurd hmem List.not_mem_nil, fun _ => rfl,
        fun _ => .inl rfl, rfl, iff_of_false nofun ?_, fun _ => rfl, fun q info hmem => absurd hmem List.not_mem_nil,
        nofun, nofun⟩
      · rintro ⟨query, hmem, -⟩
        exact absurd hmem List.not_mem_nil
      · rintro ⟨q, hq, -⟩
        cases hq

/-! ### Steps of the render thread -/

/-- No request is made. -/
theorem Inv.takes {r : RendererSide F} (h : Inv config n k s) (hr : RendererSide.Inv config n' n' r)
    (ht : RendererSide.Takes config s.renderer r) : Inv config n' k { s with renderer := r } where
  renderer := hr
  browser := h.browser
  received q b query hq := by
    simp only [ht.asked]
    exact h.received q b query hq
  request b id persistent hfits := by
    unfold Fits at hfits
    simp only [ht.asked] at hfits
    obtain ⟨a, o, hsim⟩ := h.request b id persistent hfits
    have hasked : ({ s with renderer := r } : Router F).Asked b id ↔ s.Asked b id := by
      unfold Router.Asked
      simp only [ht.asked]
    have hdown : r.tasks = s.renderer.tasks := ht.tasks
    by_cases hno : s.Asked b id
    · rcases ht.client b id a (hsim.client hno) with hclient | hclient
      · exact ⟨a, o, hsim.run, fun _ => hclient, fun hn => absurd (hasked.2 hno) hn, hsim.server,
          by rw [hdown]; exact hsim.down, hsim.asking⟩
      · obtain ⟨es, hes⟩ := hsim.run
        exact ⟨_, o, ⟨_, Lts.exec_append hes (Lts.exec_single (Request.step_cancel (hsim.client hno).asked))⟩, fun _ => hclient,
          fun hn => absurd (hasked.2 hno) hn, { hsim.server with }, by rw [hdown]; exact hsim.down, hsim.asking⟩
    · exact ⟨a, o, hsim.run, fun ha => absurd (hasked.1 ha) hno, fun _ => hsim.idle hno, hsim.server,
        by rw [hdown]; exact hsim.down, hsim.asking⟩

/-- A request is made. -/
theorem Inv.asks {r : RendererSide F} {b₀ : Int32} {id₀ : RequestId} {ctx : V8Context} {args : QueryArguments F}
    (h : Inv config n k s) (hr : RendererSide.Inv config n' n' r)
    (ht : RendererSide.Asks config s.renderer r b₀ id₀ ctx args) : Inv config n' k { s with renderer := r } where
  renderer := hr
  browser := h.browser
  received q b query hq := by
    obtain ⟨ctx', args', hasked, hquery⟩ := h.received q b query hq
    exact ⟨ctx', args', (ht.asked _ _ _ _).2 (.inl hasked), hquery⟩
  request b id persistent hfits := by
    have hold : Fits s b id persistent := fun ctx' args' hasked => hfits ctx' args' ((ht.asked _ _ _ _).2 (.inl hasked))
    obtain ⟨a, o, hsim⟩ := h.request b id persistent hold
    have hasked : ({ s with renderer := r } : Router F).Asked b id ↔ s.Asked b id ∨ b = b₀ ∧ id = id₀ := by
      unfold Router.Asked
      simp only [ht.asked]
      constructor
      · rintro ⟨ctx', args', hmem | ⟨rfl, rfl, -, -⟩⟩
        exacts [.inl ⟨ctx', args', hmem⟩, .inr ⟨rfl, rfl⟩]
      · rintro (⟨ctx', args', hmem⟩ | ⟨rfl, rfl⟩)
        exacts [⟨ctx', args', .inl hmem⟩, ⟨ctx, args, .inr ⟨rfl, rfl, rfl, rfl⟩⟩]
    have htasks : r.tasks = s.renderer.tasks := ht.tasks
    by_cases hno : s.Asked b id
    · exact ⟨a, o, hsim.run, fun _ => ht.client b id a hno (hsim.client hno),
        fun hn => absurd (hasked.2 (.inl hno)) hn, hsim.server, by rw [htasks]; exact hsim.down, hsim.asking⟩
    · by_cases hnew : b = b₀ ∧ id = id₀
      · obtain ⟨rfl, rfl⟩ := hnew
        have ha := hsim.eq_init hno
        subst ha
        obtain ⟨es, hes⟩ := hsim.run
        exact ⟨_, o, ⟨_, Lts.exec_append hes (Lts.exec_single (Request.step_ask rfl))⟩, fun _ => ht.new,
          fun hn => absurd (hasked.2 (.inr ⟨rfl, rfl⟩)) hn, { hsim.server with }, by rw [htasks]; exact hsim.down, nofun⟩
      · exact ⟨a, o, hsim.run, fun ha => absurd (hasked.1 ha) (not_or.2 ⟨hno, hnew⟩), fun _ => hsim.idle hno, hsim.server,
          by rw [htasks]; exact hsim.down, hsim.asking⟩

/-! ### Messages and tasks -/

theorem Inv.rendererReceives {browserId : Int32} {m : CefProcessMessage} {sent : List (Int32 × CefProcessMessage)}
    (h : Inv config n k s) (hsent : s.browser.sent = (browserId, m) :: sent) : Inv config n k
      { browser := { s.browser with sent }
        renderer := (s.renderer.onProcessMessageReceived config browserId m).2 } := by
  have hr : ∃ tasks, (s.renderer.onProcessMessageReceived config browserId m).2 = { s.renderer with tasks } ∧
      ∀ b id, tasks.filterMap (RendererSide.replyOf b id) =
        s.renderer.tasks.filterMap (RendererSide.replyOf b id) ++
          (BrowserSide.downOf config b id (browserId, m)).toList := by
    unfold RendererSide.onProcessMessageReceived BrowserSide.downOf
    split
    · rename_i r hread
      refine ⟨_, rfl, fun b id => ?_⟩
      rw [List.filterMap_append, hread, List.filterMap_cons]
      by_cases hk : browserId = b ∧ r.id = id <;> simp [RendererSide.replyOf, hk]
    · rename_i hread
      refine ⟨_, rfl, fun b id => ?_⟩
      rw [hread]
      exact (List.append_nil _).symm
  obtain ⟨tasks, hr, htasks⟩ := hr
  rw [hr]
  refine ⟨{ h.renderer with }, { h.browser with }, h.received,
    fun b id persistent hfits => ?_⟩
  obtain ⟨a, o, hsim⟩ := h.request b id persistent hfits
  refine ⟨a, o, hsim.run, fun ha => { hsim.client ha with }, hsim.idle, { hsim.server with }, ?_, hsim.asking⟩
  have hdown := hsim.down
  unfold BrowserSide.down at hdown
  rw [hsent, List.filterMap_cons] at hdown
  show a.down = tasks.filterMap _ ++ List.filterMap _ sent
  rw [hdown, htasks]
  cases BrowserSide.downOf config b id (browserId, m) <;> simp

theorem Inv.rendererTask {t : RendererTask} {tasks : List RendererTask} (h : Inv config n k s)
    (ht : s.renderer.tasks = t :: tasks) :
    Inv config n k { s with renderer := { s.renderer with tasks }.runTask t } := by
  have hr := (h.renderer.of_sent (fun _ hm => hm) tasks).runTask t
  obtain ⟨map, log, hs', -, hsome, hnone⟩ := RendererSide.runTask_spec { s.renderer with tasks } t
  have htasks : ({ s.renderer with tasks }.runTask t).tasks = tasks := by rw [hs']
  have hasked : ∀ b id ctx args, ({ s.renderer with tasks }.runTask t).Asked b id ctx args ↔
      s.renderer.Asked b id ctx args := by
    intro b id ctx args
    rw [hs']
    show PageEvent.query b id ctx args ∈ s.renderer.log ++ log ↔ _
    rw [List.mem_append]
    refine or_iff_left fun hmem => ?_
    by_cases hex : ∃ info, (t.browserId, t.id, info) ∈ s.renderer.requests
    · obtain ⟨info, hinfo⟩ := hex
      rw [hsome info hinfo] at hmem
      exact absurd (List.mem_singleton.1 hmem) (by simp)
    · rw [hnone fun info hinfo => hex ⟨info, hinfo⟩] at hmem
      cases hmem
  refine ⟨hr, h.browser, fun q b query hq => ?_,
    fun b id persistent hfits => ?_⟩
  · simp only [hasked]
    exact h.received q b query hq
  · unfold Fits at hfits
    simp only [hasked] at hfits
    obtain ⟨a, o, hsim⟩ := h.request b id persistent hfits
    have hkey : ({ s with renderer := { s.renderer with tasks }.runTask t } : Router F).Asked b id ↔ s.Asked b id := by
      unfold Router.Asked
      simp only [hasked]
    have hdown := hsim.down
    rw [ht, List.filterMap_cons] at hdown
    by_cases hno : s.Asked b id
    · obtain ⟨ctx, args, hask⟩ := hno
      have hclient := RendererSide.Client.runTask (s := { s.renderer with tasks }) { hsim.client ⟨ctx, args, hask⟩ with }
        (h.renderer.of_sent (fun _ hm => hm) tasks) hask t
      rw [hfits ctx args hask] at hclient
      cases hreply : RendererSide.replyOf b id t with
      | none =>
        rw [hreply] at hclient hdown
        exact ⟨a, o, hsim.run, fun _ => hclient, fun hn => absurd (hkey.2 ⟨ctx, args, hask⟩) hn, hsim.server,
          by rw [htasks]; exact hdown, hsim.asking⟩
      | some r =>
        rw [hreply] at hclient hdown
        dsimp only at hclient hdown
        obtain ⟨es, hes⟩ := hsim.run
        have hstep : Request.step (Reply.closing persistent) canceled a .receive = some (if a.client = .waiting then
              { a with
                down := tasks.filterMap (RendererSide.replyOf b id) ++ s.browser.down config b id
                seen := a.seen ++ [r]
                client := if r.closing persistent then .closed else .waiting }
            else { a with down := tasks.filterMap (RendererSide.replyOf b id) ++ s.browser.down config b id }) := by
          unfold Request.step
          rw [hdown]
          rfl
        refine ⟨_, o, ⟨_, Lts.exec_append hes (Lts.exec_single hstep)⟩, fun _ => ?_,
          fun hn => absurd (hkey.2 ⟨ctx, args, hask⟩) hn, ?_, ?_, ?_⟩
        · split
          · rename_i hw
            rw [if_pos hw] at hclient
            exact { hclient with }
          · rename_i hw
            rw [if_neg hw] at hclient
            exact { hclient with }
        · split <;> exact { hsim.server with }
        · rw [htasks]
          split <;> rfl
        · split <;> exact hsim.asking
    · have ha := hsim.eq_init hno
      subst ha
      have hnil : tasks.filterMap (RendererSide.replyOf b id) ++ s.browser.down config b id = [] := by
        cases hreply : RendererSide.replyOf b id t with
        | none => rw [hreply] at hdown; exact hdown.symm
        | some r => rw [hreply] at hdown; cases hdown
      exact ⟨{}, o, hsim.run, fun hn => absurd (hkey.1 hn) hno, fun _ => rfl, hsim.server,
        by rw [htasks]; exact hnil.symm, nofun⟩

/-! ### Steps of the UI thread -/

/-- What a step of the browser side does for all requests. -/
theorem Inv.browserStep {r : BrowserSide} (sent : List (Int32 × CefProcessMessage)) (h : Inv config n k s)
    (hr : BrowserSide.Inv k' r)
    (hreceived : ∀ q b query, r.Received q b query → s.browser.Received q b query ∨
      ∃ ctx args, s.renderer.Asked b query.id ctx args ∧ query = args.query ctx query.id)
    (hsent : sent ⊆ s.renderer.sent)
    (hserver : ∀ b id persistent a o, Fits s b id persistent → Sim config b id persistent o s a →
      ∃ a' o', BrowserSide.Server b id persistent o' r a' ∧
        (∃ es, Lts.exec (Request.step (Reply.closing persistent) canceled) a es = some a') ∧
        a'.client = a.client ∧ a'.seen = a.seen ∧
        (s.Asked b id → a'.up = sent.filterMap (RendererSide.upOf config b id)) ∧
        (∃ rs, a'.down = a.down ++ rs ∧ r.down config b id = s.browser.down config b id ++ rs) ∧
        a'.server ≠ .asking) :
    Inv config n k' { browser := r, renderer := { s.renderer with sent } } where
  renderer := h.renderer.of_sent hsent s.renderer.tasks
  browser := hr
  received q b query hq := (hreceived q b query hq).elim (h.received q b query) id
  request b id persistent hfits := by
    obtain ⟨a, o, hsim⟩ := h.request b id persistent hfits
    obtain ⟨a', o', hserver, ⟨es', hes'⟩, hclient, hseen, hup, ⟨rs, hdown, hsent'⟩, hasking⟩ :=
      hserver b id persistent a o hfits hsim
    obtain ⟨es, hes⟩ := hsim.run
    refine ⟨a', o', ⟨_, Lts.exec_append hes hes'⟩, fun ha => ?_, fun ha => hclient.trans (hsim.idle ha), hserver, ?_, hasking⟩
    · have hc := hsim.client ha
      exact ⟨by rw [hclient]; exact hc.waiting, by rw [hclient]; exact hc.asked, hup ha, by rw [hseen]; exact hc.seen⟩
    · rw [hdown, hsim.down, List.append_assoc, ← hsent']

theorem Inv.moves {r : BrowserSide} (h : Inv config n k s) (hm : BrowserSide.Moves config s.browser r) :
    Inv config n k { s with browser := r } := by
  refine h.browserStep s.renderer.sent (hm.inv k h.browser)
    (fun q b query hq => .inl ((hm.received q b query).1 hq)) (fun _ hm => hm) fun b id persistent a o _ hsim => ?_
  obtain ⟨a', hserves, hserver⟩ := hm.serves k b id persistent o a h.browser hsim.server
  exact ⟨a', o, hserver, hserves.run, hserves.client, hserves.seen,
    fun ha => hserves.up.trans (hsim.client ha).up, hserves.down, fun ha => hsim.asking (hserves.asking.1 ha)⟩

theorem Inv.uiTask {t : UiTask} {tasks : List UiTask} (h : Inv config n k s) (ht : s.browser.tasks = t :: tasks) :
    Inv config n k { s with browser := { s.browser with tasks }.runTask config t } := by
  have htasks : BrowserSide.Inv k { s.browser with tasks } :=
    { h.browser with task := fun t' ht' => h.browser.task t' (by rw [ht]; exact .tail _ ht') }
  obtain ⟨m, rs, hs', -⟩ := BrowserSide.runTask_spec config { s.browser with tasks } t
  refine h.browserStep s.renderer.sent (htasks.runTask config t)
    (fun q b query hq => .inl (by rw [hs'] at hq; exact hq)) (fun _ hm => hm) fun b id persistent a o _ hsim => ?_
  obtain ⟨a', hhandles, hserver⟩ := hsim.server.runTask h.browser hsim.inv ht hsim.asking
  exact ⟨a', o, hserver, hhandles.run, hhandles.client, hhandles.seen,
    fun ha => hhandles.up.trans (hsim.client ha).up, hhandles.down, hhandles.asking⟩

theorem Inv.browserReceives {browserId : Int32} {m : CefProcessMessage} {sent : List (Int32 × CefProcessMessage)}
    (h : Inv config n k s) (hk : k + 1 < 2 ^ 64) (hsent : s.renderer.sent = (browserId, m) :: sent)
    (onQuery : OnQuery) : Inv config n (k + 1)
      { browser := (s.browser.onProcessMessageReceived config onQuery browserId m).2
        renderer := { s.renderer with sent } } := by
  have hhead : (browserId, m) ∈ s.renderer.sent := by rw [hsent]; exact .head _
  have hsub : sent ⊆ s.renderer.sent := by rw [hsent]; exact List.subset_cons_self _ _
  have hup : ∀ b id persistent a o, Sim config b id persistent o s a → s.Asked b id →
      a.up = (RendererSide.upOf config b id (browserId, m)).toList ++ sent.filterMap (RendererSide.upOf config b id) := by
    intro b id persistent a o hsim hask
    rw [(hsim.client hask).up, hsent, List.filterMap_cons]
    cases RendererSide.upOf config b id (browserId, m) <;> rfl
  unfold BrowserSide.onProcessMessageReceived
  cases hread : ToBrowser.read config m with
  | none =>
    refine h.browserStep sent (h.browser.mono (Nat.le_succ k)) (fun _ _ _ => .inl) hsub fun b id persistent a o _ hsim => ?_
    refine ⟨a, o, hsim.server, ⟨[], rfl⟩, rfl, rfl, fun hask => ?_, ⟨[], (List.append_nil _).symm, (List.append_nil _).symm⟩,
      hsim.asking⟩
    rw [hup b id persistent a o hsim hask, RendererSide.upOf, hread]
    rfl
  | some r =>
    cases r with
    | query q =>
      obtain ⟨ctx, args, hasked, hquery⟩ := h.renderer.queries browserId m q hhead hread
      refine h.browserStep sent (h.browser.onQueryMessage hk onQuery browserId q) (fun q' b query hr => ?_) hsub
        fun b id persistent a o hfits hsim => ?_
      · refine (h.browser.received_onQueryMessage hk onQuery browserId q hr).imp_right ?_
        rintro ⟨rfl, rfl⟩
        exact ⟨ctx, args, hasked, hquery⟩
      by_cases hkey : browserId = b ∧ q.id = id
      · obtain ⟨rfl, rfl⟩ := hkey
        have hcons := hup _ _ persistent a o hsim ⟨ctx, args, hasked⟩
        have hof : RendererSide.upOf config browserId q.id (browserId, m) = some .query := by
          rw [RendererSide.upOf, hread]
          exact if_pos ⟨rfl, rfl⟩
        rw [hof] at hcons
        have hidle : a.server = .idle := by
          by_contra hserved
          have := (hsim.inv.served hserved).1 .query (by rw [hcons]; exact .head _)
          cases this
        have hp : q.persistent = persistent := by
          rw [hquery]
          exact hfits ctx args hasked
        obtain ⟨a', o', hhandles, hserver⟩ :=
          hsim.server.onQueryMessage_self h.browser hk hsim.inv hidle hcons onQuery rfl hp
        exact ⟨a', o', hserver, hhandles.run, hhandles.client, hhandles.seen, fun _ => hhandles.up, hhandles.down,
          hhandles.asking⟩
      · obtain ⟨a', hserves, hserver⟩ := hsim.server.onQueryMessage_other config h.browser hk onQuery hkey
        refine ⟨a', o, hserver, hserves.run, hserves.client, hserves.seen, fun hask => ?_, hserves.down,
          fun ha => hsim.asking (hserves.asking.1 ha)⟩
        have hof : RendererSide.upOf config b id (browserId, m) = none := by
          rw [RendererSide.upOf, hread]
          exact if_neg hkey
        rw [hserves.up, hup b id persistent a o hsim hask, hof]
        rfl
    | cancel i =>
      obtain ⟨es, hc, -⟩ := BrowserSide.cancelPendingRequest_spec config s.browser browserId i
      refine h.browserStep sent ((h.browser.cancelsAll hc).mono (Nat.le_succ k))
        (fun q b query hr => .inl ((hc.calls.received q b query).1 hr)) hsub fun b id persistent a o _ hsim => ?_
      -- of a request that has not been made the server keeps nothing
      by_cases hkey : (browserId = b ∧ i.Covers id) ∧ s.Asked b id
      · obtain ⟨⟨rfl, hcovers⟩, hask⟩ := hkey
        have hcons := hup _ _ persistent a o hsim hask
        have hof : RendererSide.upOf config browserId id (browserId, m) = some .cancel := by
          rw [RendererSide.upOf, hread]
          exact if_pos ⟨rfl, hcovers⟩
        rw [hof] at hcons
        obtain ⟨a', hhandles, hserver⟩ := hsim.server.cancelPendingRequest_self h.browser hsim.asking hcons hcovers
        exact ⟨a', o, hserver, hhandles.run, hhandles.client, hhandles.seen, fun _ => hhandles.up, hhandles.down,
          hhandles.asking⟩
      · have hother : ¬ (browserId = b ∧ i.Covers id) ∨ a.server ≠ .pending := by
          by_cases hcov : browserId = b ∧ i.Covers id
          · refine .inr ?_
            rw [hsim.eq_init fun hask => hkey ⟨hcov, hask⟩]
            nofun
          · exact .inl hcov
        obtain ⟨hserves, hserver⟩ := hsim.server.cancelPendingRequest_other config h.browser hother
        refine ⟨a, o, hserver, hserves.run, hserves.client, hserves.seen, fun hask => ?_, hserves.down, hsim.asking⟩
        have hof : RendererSide.upOf config b id (browserId, m) = none := by
          rw [RendererSide.upOf, hread]
          exact if_neg fun hcov => hkey ⟨hcov, hask⟩
        rw [hup b id persistent a o hsim hask, hof]
        rfl

/-! ### Runs -/

def Label.executes : Label F → Nat
  | .execute .. => 1
  | _ => 0

def Label.receives : Label F → Nat
  | .browserReceives _ => 1
  | _ => 0

theorem Inv.step {l : Label F} (hv : config.Valid) (h : Inv config n k s) (hn : n + l.executes < 2 ^ 32)
    (hk : k + l.receives < 2 ^ 64) (hs : step config s l = some s') :
    Inv config (n + l.executes) (k + l.receives) s' := by
  unfold CefMessageRouter.step at hs
  cases l with
  | contextCreated c browserId frameId isMain =>
    simp only [Option.ite_none_left_eq_some, Option.some.injEq, Option.not_isSome_iff_eq_none] at hs
    obtain ⟨hc, rfl⟩ := hs
    exact h.takes (h.renderer.onContextCreated hc frameId isMain) (RendererSide.takes_onContextCreated config _ c _ _ _)
  | execute c name arguments =>
    obtain ⟨ctx, hc, rfl⟩ := Option.map_eq_some_iff.1 hs
    have hr := h.renderer.execute hv hn hn hc name arguments
    rcases h.renderer.asks_execute hv hn hn hc name arguments with ht | ⟨id, args, ht⟩
    exacts [h.takes hr ht, h.asks hr ht]
  | contextReleased c =>
    obtain ⟨ctx, hc, rfl⟩ := Option.map_eq_some_iff.1 hs
    exact h.takes (h.renderer.onContextReleased hv hn hc) (h.renderer.takes_onContextReleased hv hn c ctx)
  | rendererReceives =>
    dsimp only at hs
    split at hs
    · rename_i hsent
      cases hs
      exact h.rendererReceives hsent
    · cases hs
  | rendererTask =>
    dsimp only at hs
    split at hs
    · rename_i ht
      cases hs
      exact h.rendererTask ht
    · cases hs
  | browserReceives onQuery =>
    dsimp only at hs
    split at hs
    · rename_i hsent
      cases hs
      exact h.browserReceives hk hsent onQuery
    · cases hs
  | uiTask =>
    dsimp only at hs
    split at hs
    · rename_i ht
      cases hs
      exact h.uiTask ht
    · cases hs
  | perform action =>
    cases hs
    exact h.moves (BrowserSide.moves_perform config _ action)
  | beforeClose browserId =>
    cases hs
    exact h.moves (BrowserSide.moves_cancelPendingFor config _ _ _ _)
  | renderProcessTerminated browserId =>
    cases hs
    exact h.moves (BrowserSide.moves_cancelPendingFor config _ _ _ _)
  | beforeBrowse browserId isMain =>
    cases hs
    unfold BrowserSide.onBeforeBrowse
    split
    · exact h.moves (BrowserSide.moves_cancelPendingFor config _ _ _ _)
    · exact h.moves (BrowserSide.moves_refl config _)

def executes (es : List (Label F)) : Nat := (es.map Label.executes).sum

def receives (es : List (Label F)) : Nat := (es.map Label.receives).sum

theorem Inv.exec (hv : config.Valid) {es : List (Label F)} : ∀ {n k s}, Inv config n k s → n + executes es < 2 ^ 32 →
    k + receives es < 2 ^ 64 → Lts.exec (CefMessageRouter.step config) s es = some s' →
    Inv config (n + executes es) (k + receives es) s' := by
  induction es with
  | nil =>
    intro n k s h _ _ hs
    cases hs
    exact h
  | cons e es ih =>
    intro n k s h hn hk hs
    obtain ⟨s₁, hstep, hs⟩ := Option.bind_eq_some_iff.1 hs
    have hne : executes (e :: es) = e.executes + executes es := List.sum_cons
    have hke : receives (e :: es) = e.receives + receives es := List.sum_cons
    rw [hne, ← Nat.add_assoc] at hn ⊢
    rw [hke, ← Nat.add_assoc] at hk ⊢
    exact ih (h.step hv (by omega) (by omega) hstep) hn hk hs

/-- What has become of a request. -/
structure Followed (s : Router F) (b : Int32) (id : RequestId) (ctx : V8Context) (args : QueryArguments F) : Prop where
  /-- At most one query comes of it, that has what the page asked with. What the page is told is what the callback of
  the query has been executed with, in its order, up to some place, and perhaps that the query has been canceled. -/
  query : ∃ o : Option Int64, (∀ q, (∃ query, s.browser.Received q b query ∧ query.id = id) ↔ o = some q) ∧
    (∀ q query, s.browser.Received q b query → query.id = id → query = args.query ctx id) ∧
    ∃ p, p <+: s.browser.log.filterMap (BrowserSide.answerOf o) ∧
      s.renderer.log.filterMap (RendererSide.seenOf b id) <+: p ++ [canceled]
  /-- Nothing follows a failure, and nothing the success of a query that is not persistent. -/
  last : Request.OnlyLast (Reply.closing args.persistent) (s.renderer.log.filterMap (RendererSide.seenOf b id))
  executed : ∀ reply f, .replied b id reply f ∈ s.renderer.log → f = args.callback reply

theorem Inv.fits (h : Inv config n k s) {ctx : V8Context} {args : QueryArguments F} (hasked : s.renderer.Asked b id ctx args) :
    Fits s b id args.persistent := by
  intro ctx' args' hasked'
  obtain ⟨-, -, -, rfl⟩ := h.renderer.unique _ _ _ _ _ _ _ _ hasked hasked' rfl
  rfl

theorem followed_of_exec (hv : config.Valid) {es : List (Label F)} (hn : executes es < 2 ^ 32) (hk : receives es < 2 ^ 64)
    (hs : Lts.exec (step config) {} es = some s) {ctx : V8Context} {args : QueryArguments F}
    (hasked : s.renderer.Asked b id ctx args) : Followed s b id ctx args := by
  have h := Inv.init.exec hv (by rwa [Nat.zero_add]) (by rwa [Nat.zero_add]) hs
  obtain ⟨a, o, hsim⟩ := h.request b id args.persistent (h.fits hasked)
  have hseen := (hsim.client ⟨ctx, args, hasked⟩).seen
  refine ⟨⟨o, hsim.server.received, fun q query hr hid => ?_, ?_⟩, ?_, fun reply f hmem => ?_⟩
  · obtain ⟨ctx', args', hasked', hquery⟩ := h.received q b query hr
    rw [hid] at hasked' hquery
    obtain ⟨-, -, rfl, rfl⟩ := h.renderer.unique _ _ _ _ _ _ _ _ hasked hasked' rfl
    exact hquery
  · rw [← hseen, ← hsim.server.answers]
    exact hsim.inv.seen
  · rw [← hseen]
    exact hsim.inv.onlyLast_seen
  · obtain ⟨ctx', args', hasked', hf⟩ := h.renderer.executed b id reply f hmem
    obtain ⟨-, -, rfl, rfl⟩ := h.renderer.unique _ _ _ _ _ _ _ _ hasked hasked' rfl
    exact hf

/-- The names that are used if no others are given. -/
theorem config_valid : Config.Valid {} where
  query := by decide
  cancel := by decide
  ne := by decide

/-- Two queries, the first of them persistent. -/
def twoQueries : List (Label Nat) :=
  let call (persistent : Bool) : Label Nat := .execute 5 (lit "cefQuery") [.object
    [(kMemberRequest, .string (lit "q")), (kMemberOnSuccess, .function 1 []), (kMemberPersistent, .bool persistent)]]
  [.contextCreated 5 7 9 true, .perform (.addHandler 3 true), call true, call false,
    .browserReceives fun _ => ([.success 1 (lit "a")], true),
    .browserReceives fun _ => ([.success 2 (lit "b")], true),
    .uiTask, .uiTask, .perform (.success 1 (lit "c")), .uiTask,
    .rendererReceives, .rendererReceives, .rendererReceives, .rendererTask, .rendererTask, .rendererTask]

theorem followed_of_exec_two : ∃ s, Lts.exec (step {}) {} twoQueries = some s ∧
    Followed s 7 ⟨1, 1⟩ { browserId := 7, frameId := 9, isMain := true }
      { request := lit "q", successCallback := some 1, failureCallback := none, persistent := true } ∧
    s.renderer.log.filterMap (RendererSide.seenOf 7 ⟨1, 1⟩) = [.success (lit "a"), .success (lit "c")] := by
  have hn : executes twoQueries < 2 ^ 32 := by decide
  have hk : receives twoQueries < 2 ^ 64 := by decide
  exact ⟨_, rfl, followed_of_exec config_valid hn hk rfl (.head _), by decide⟩

/-- There is nothing left to receive or to do. -/
structure Quiet (s : Router F) : Prop where
  rendererSent : s.renderer.sent = []
  rendererTasks : s.renderer.tasks = []
  browserSent : s.browser.sent = []
  browserTasks : s.browser.tasks = []

/-- The two sides agree on the request, unless its query has been canceled with nobody told. -/
structure Agree (s : Router F) (b : Int32) (id : RequestId) : Prop where
  requests : ∀ info, (b, id, info) ∈ s.renderer.requests →
    (∃ q query, s.browser.Received q b query ∧ query.id = id ∧
      ∃ h f, .onQueryCanceled h b f q false ∈ s.browser.log) ∨
    ∃ q info', (b, q, info') ∈ s.browser.queries ∧ info'.id = id ∧ s.browser.Attached q
  queries : ∀ q info', (b, q, info') ∈ s.browser.queries → info'.id = id →
    ∃ info, (b, id, info) ∈ s.renderer.requests

theorem agree_of_quiet (hv : config.Valid) {es : List (Label F)} (hn : executes es < 2 ^ 32) (hk : receives es < 2 ^ 64)
    (hs : Lts.exec (step config) {} es = some s) (hquiet : Quiet s) (b : Int32) (id : RequestId) : Agree s b id := by
  have h := Inv.init.exec hv (by rwa [Nat.zero_add]) (by rwa [Nat.zero_add]) hs
  have hmain : s.Asked b id → Agree s b id := by
    rintro ⟨ctx, args, hasked⟩
    obtain ⟨a, o, hsim⟩ := h.request b id args.persistent (h.fits hasked)
    have hclient := hsim.client ⟨ctx, args, hasked⟩
    have hup : a.up = [] := by rw [hclient.up, hquiet.rendererSent]; rfl
    have hdown : a.down = [] := by
      rw [hsim.down, BrowserSide.down, hquiet.rendererTasks, hquiet.browserSent]
      rfl
    have hout : a.outbox = [] := by
      by_cases hd : a.server = .done
      · exact hsim.inv.outbox hd
      · rw [hsim.server.outbox hd, hquiet.browserTasks]
        rfl
    obtain ⟨hwaiting, hpending⟩ := hsim.inv.quiet hsim.asking hup hout hdown
    constructor
    · intro info hinfo
      rcases hwaiting (hclient.waiting.2 ⟨info, hinfo⟩) with hd | ⟨hp, hatt⟩
      · obtain ⟨q, h', f, ho, hmem⟩ := hsim.server.dropped hd
        obtain ⟨query, hr, hid⟩ := (hsim.server.received q).2 ho
        exact .inl ⟨q, query, hr, hid, h', f, hmem⟩
      · obtain ⟨q, info', ho, hmem, hid⟩ := hsim.server.entry hp
        obtain ⟨q', ho', hatt'⟩ := hsim.server.attached.1 hatt
        obtain rfl : q = q' := Option.some.inj (ho.symm.trans ho')
        exact .inr ⟨q, info', hmem, hid, hatt'⟩
    · intro q info' hmem hid
      exact hclient.waiting.1 (hpending (hsim.server.pending q info' hmem hid).2)
  constructor
  · intro info hinfo
    obtain ⟨⟨ctx, args, hasked, -⟩, -⟩ := h.renderer.kept b id info hinfo
    exact (hmain ⟨ctx, args, hasked⟩).requests info hinfo
  · intro q info' hmem hid
    obtain ⟨-, query, hr, hid', -⟩ := h.browser.kept b q info' hmem
    obtain ⟨ctx, args, hasked, -⟩ := h.received q b query hr
    rw [← hid', hid] at hasked
    exact (hmain ⟨ctx, args, hasked⟩).queries q info' hmem hid

theorem agree_of_quiet_two : ∃ s, Lts.exec (step {}) {} twoQueries = some s ∧ Agree s 7 ⟨1, 1⟩ ∧
    s.browser.queries.length = 1 := by
  have hn : executes twoQueries < 2 ^ 32 := by decide
  have hk : receives twoQueries < 2 ^ 64 := by decide
  exact ⟨_, rfl, agree_of_quiet config_valid hn hk rfl ⟨rfl, rfl, rfl, rfl⟩ _ _, by decide⟩

end CefMessageRouter

end NplBrowser
