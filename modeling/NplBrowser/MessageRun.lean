import NplBrowser.MessageHandlers
import NplBrowser.UrlRequestInv

/-!
# Runs of the message router's handlers

The queries, the operations that end and the closures that are posted come in any order. A query the
dialog or the URL request handler has accepted is answered, or its dialog is open or its request running
(`Settled`); the other handlers answer at once.
-/

namespace NplBrowser

/-! ### The URL request handler -/

namespace UrlRequest

/-- Every accepted query has been answered once, or its request is running. -/
def Handler.Settled (h : Handler) : Prop :=
  h.replies.map Prod.fst ++ h.urlrequest.toList = List.range h.queries

/-- What comes of an event: a query is accepted without an exception, and answered when its request
completes. -/
def Proper (h : Handler) (e : Event) : Prop :=
  (∀ isTestUrl request created, e = .onQuery isTestUrl request created → h.alive = true →
    (step h e).isSome = true) ∧
  ∀ h', step h e = some h' → h'.Settled ∧ h'.nullDeref = false ∧
    (h'.queries = h.queries + if e.accepted then 1 else 0) ∧
    ∀ q code, e = .onRequestComplete q code → q ∈ h'.replies.map Prod.fst

/-- The query names a URL, and a request is made for it. -/
def Regular (h : Handler) : Event → Prop
  | .onQuery isTestUrl request created => h.alive = true → isTestUrl = true → kTestMessageName <+: request →
    request ≠ kTestMessageName ∧ created = true
  | _ => True

/-- The request of the query that waits is running. -/
structure Handler.Waits (h : Handler) : Prop where
  inv : ∃ as, Inv as h
  running : h.urlrequest = h.callback

section
variable {h h' : Handler} {as : List Event} {q : Nat} {request : Bytes} {created : Bool}

theorem Inv.settled_iff (hi : Inv as h) : h.Settled ↔ h.urlrequest = h.callback := by
  unfold Handler.Settled
  rw [← hi.answered, List.append_cancel_left_eq]
  cases h.urlrequest <;> cases h.callback <;> simp

theorem step_onQuery {isTestUrl : Bool} (ha : h.alive = true) :
    step h (.onQuery isTestUrl request created) = h.onQuery isTestUrl request created := if_pos ha

theorem step_accept (ha : h.alive = true) (hpre : kTestMessageName <+: request) :
    step h (.onQuery true request created) = if request = kTestMessageName then none
      else some (h.accept (request.drop (kTestMessageName.length + 1)) created) := by
  rw [step_onQuery ha, Handler.onQuery, if_neg (by simp), if_pos (List.isPrefixOf_iff_prefix.2 hpre)]
  simp only [MessageRouter.eq_iff_length_lt hpre]

/-- A query that is not accepted. -/
theorem step_other {isTestUrl : Bool} (ha : h.alive = true)
    (hother : ¬ (isTestUrl = true ∧ kTestMessageName <+: request)) :
    step h (.onQuery isTestUrl request created) = some h := by
  rw [step_onQuery ha, Handler.onQuery]
  rcases isTestUrl with _ | _
  · rfl
  · rw [if_neg (by simp), if_neg]
    rw [List.isPrefixOf_iff_prefix]
    exact fun hpre => hother ⟨rfl, hpre⟩

theorem running_accept (h : Handler) (loadUrl : Bytes) (created : Bool) :
    (h.accept loadUrl created).urlrequest = (h.accept loadUrl created).callback ↔ created = true := by
  cases created <;> simp [Handler.accept]

theorem running_clientComplete (hi : Inv as h) (hs : h.started q = true) (hw : h.urlrequest = h.callback)
    (code : Int) : (h.clientComplete q code).urlrequest = (h.clientComplete q code).callback := by
  by_cases hb : (h.client q).callback = true
  · obtain ⟨ha, hcb⟩ := hi.alive_of_bound hs hb
    rw [Handler.clientComplete_pending ha hcb hb]
  · unfold Handler.clientComplete
    rwa [if_neg hb]

/-- No step but that of a query leaves a query without a request. -/
theorem Handler.Waits.step_running {e : Event} (hw : h.Waits) (hr : Regular h e) (hs : step h e = some h') :
    h'.urlrequest = h'.callback := by
  obtain ⟨as, hi⟩ := hw.inv
  rcases step_cases hs with ⟨isTestUrl, request, created, rfl, ha, -⟩ | ⟨q, data, rfl, -, rfl⟩ |
    ⟨q, code, rfl, hq, rfl⟩ | ⟨rfl, -, rfl⟩
  · by_cases haccepted : isTestUrl = true ∧ kTestMessageName <+: request
    · obtain ⟨rfl, hpre⟩ := haccepted
      obtain ⟨hname, hcreated⟩ := hr ha rfl hpre
      rw [step_accept ha hpre, if_neg hname] at hs
      cases hs
      exact (running_accept h _ _).2 hcreated
    · rw [step_other ha haccepted] at hs
      cases hs
      exact hw.running
  · exact hw.running
  · exact running_clientComplete hi hq hw.running code
  · rw [Handler.destroy, Handler.cancelPendingRequest_eq]

theorem Handler.Waits.step {e : Event} (hw : h.Waits) (hr : Regular h e) (hs : UrlRequest.step h e = some h') :
    h'.Waits := by
  obtain ⟨as, hi⟩ := hw.inv
  exact ⟨⟨_, hi.step hs⟩, hw.step_running hr hs⟩

theorem proper_iff (hw : h.Waits) (e : Event) : Proper h e ↔ Regular h e := by
  obtain ⟨as, hi⟩ := hw.inv
  constructor
  · rintro ⟨hquery, hafter⟩
    rcases e with ⟨isTestUrl, request, created⟩ | _ | _ | _
    · rintro ha rfl hpre
      have hsome := hquery true request created rfl ha
      rw [step_accept ha hpre] at hsome hafter
      by_cases hname : request = kTestMessageName
      · rw [if_pos hname] at hsome
        cases hsome
      · rw [if_neg hname] at hafter
        have hi' := hi.accept ha (request.drop (kTestMessageName.length + 1)) created
        have hsettled := (hafter _ rfl).1
        rw [hi'.settled_iff, running_accept] at hsettled
        exact ⟨hname, hsettled⟩
    all_goals trivial
  · intro hr
    refine ⟨?_, fun h' hs => ?_⟩
    · rintro isTestUrl request created rfl ha
      by_cases haccepted : isTestUrl = true ∧ kTestMessageName <+: request
      · obtain ⟨rfl, hpre⟩ := haccepted
        rw [step_accept ha hpre, if_neg (hr ha rfl hpre).1]
        rfl
      · rw [step_other ha haccepted]
        rfl
    · have hi' := hi.step hs
      refine ⟨hi'.settled_iff.2 (hw.step_running hr hs), hi'.nullDeref, queries_step hs, ?_⟩
      rintro q code rfl
      exact hi'.completed_answered (List.mem_append_right _ (.head _))

theorem waits_start : Handler.Waits {} := ⟨⟨[], inv_start⟩, rfl⟩

end

end UrlRequest

/-! ### The dialog handler -/

namespace DialogTest

/-- Every accepted query has been answered once, or its dialog is open. -/
def Handler.Settled (h : Handler) : Prop :=
  (h.replies.map Prod.fst ++ h.dialogs.map Dialog.query).Perm (List.range h.queries)

/-- What comes of an event: a query is answered when its dialog is dismissed. -/
def Answers (h : Handler) : Event → Prop
  | .onQuery isTestUrl request => (h.onQuery isTestUrl request).1.Settled ∧
    (h.onQuery isTestUrl request).1.queries = h.queries + if (h.onQuery isTestUrl request).2 then 1 else 0
  | .onFileDialogDismissed q lastSelectedFilter filePaths => (∃ d ∈ h.dialogs, d.query = q) →
    ∃ h', step h (.onFileDialogDismissed q lastSelectedFilter filePaths) = some h' ∧ h'.Settled ∧
      q ∈ h'.replies.map Prod.fst

/-- The query names a dialog, and in the mode of a folder the first name is not empty. -/
def Known (h : Handler) : Event → Prop
  | .onQuery isTestUrl request => isTestUrl = true → message request ≠ none
  | .onFileDialogDismissed q _ filePaths => (∃ d ∈ h.dialogs, d.query = q) → h.state.mode = .openFolder →
    filePaths.head? ≠ some []

section
variable {h h' : Handler} {d : Dialog}

theorem Handler.Settled.length (hs : h.Settled) : h.replies.length + h.dialogs.length = h.queries := by
  have hlength := List.Perm.length_eq hs
  simpa using hlength

theorem Handler.Settled.open (hs : h.Settled) (hd : d.query = h.queries)
    (hqueries : h'.queries = h.queries + 1) (hreplies : h'.replies = h.replies)
    (hdialogs : h'.dialogs = h.dialogs ++ [d]) : h'.Settled := by
  unfold Settled at *
  rw [hqueries, hreplies, hdialogs, List.map_append, List.map_singleton, hd, List.range_succ,
    ← List.append_assoc]
  exact hs.append_right _

/-- The dialogs but the one that is dismissed. -/
theorem Handler.Settled.dismiss (hs : h.Settled) (hd : d ∈ h.dialogs) (hqueries : h'.queries = h.queries)
    (hreplies : h'.replies.map Prod.fst = h.replies.map Prod.fst ++ [d.query])
    (hdialogs : h'.dialogs = h.dialogs.filter (·.query ≠ d.query)) : h'.Settled := by
  have hnodup : (h.dialogs.map Dialog.query).Nodup :=
    (List.nodup_append.1 (hs.nodup_iff.2 List.nodup_range)).2.1
  have hmem : d.query ∈ h.dialogs.map Dialog.query := List.mem_map_of_mem hd
  have hrest : h'.dialogs.map Dialog.query = (h.dialogs.map Dialog.query).erase d.query := by
    rw [hnodup.erase_eq_filter, hdialogs, List.filter_map]
    congr 2
    funext d'
    exact decide_not
  unfold Settled
  rw [hqueries, hreplies, hrest, List.append_assoc, List.singleton_append]
  exact ((List.perm_cons_erase hmem).symm.append_left _).trans hs

theorem Handler.find_dialog {q : Nat} (h : Handler) (hq : ∃ d ∈ h.dialogs, d.query = q) :
    ∃ d ∈ h.dialogs, d.query = q ∧ h.dialogs.find? (·.query = q) = some d := by
  obtain ⟨d, hd, rfl⟩ := hq
  cases hfind : h.dialogs.find? (·.query = d.query) with
  | none => exact absurd (List.find?_eq_none.1 hfind d hd) (by simp)
  | some d' => exact ⟨d', List.mem_of_find?_eq_some hfind, by simpa using List.find?_some hfind, rfl⟩

theorem answers_iff (hs : h.Settled) (e : Event) : Answers h e ↔ Known h e := by
  rcases e with ⟨isTestUrl, request⟩ | ⟨q, filter, filePaths⟩
  · rcases h.onQuery_cases isTestUrl request with
      ⟨hother, heq⟩ | ⟨htest, hnone, heq⟩ | ⟨mode, title, -, hmessage, heq⟩
    · rw [Answers, Known, heq, hother]
      exact iff_of_true ⟨hs, rfl⟩ fun htest => by cases htest
    · -- the query has been accepted, and there is no dialog
      rw [Answers, heq]
      refine iff_of_false (fun ha => ?_) fun hk => hk htest hnone
      have hlength := Handler.Settled.length ha.1
      have := hs.length
      dsimp only at hlength
      omega
    · rw [Answers, Known, heq, hmessage]
      exact iff_of_true ⟨hs.open (d := h.dialog mode title) rfl rfl rfl rfl, rfl⟩ fun _ => by simp
  · by_cases hq : ∃ d ∈ h.dialogs, d.query = q
    · obtain ⟨d, hd, hdq, hfind⟩ := h.find_dialog hq
      have hstep : step h (.onFileDialogDismissed q filter filePaths) =
          h.onFileDialogDismissed d filter filePaths := by
        unfold step
        dsimp only
        rw [hfind, Option.bind_some]
      rw [Answers, Known, forall_prop_of_true hq, forall_prop_of_true hq, hstep, h.onFileDialogDismissed_eq]
      by_cases hempty : h.state.mode = .openFolder ∧ filePaths.head? = some []
      · rw [if_pos hempty]
        refine iff_of_false ?_ fun hk => hk hempty.1 hempty.2
        rintro ⟨_, hnone, -⟩
        cases hnone
      · rw [if_neg hempty]
        refine iff_of_true ⟨_, rfl, hs.dismiss hd rfl ?_ rfl, ?_⟩ fun hfolder hhead => hempty ⟨hfolder, hhead⟩
        · simp
        · simp [hdq]
    · exact iff_of_true (fun h => absurd h hq) fun h => absurd h hq

theorem Handler.Settled.step (hs : h.Settled) {e : Event} (hk : Known h e)
    (hstep : DialogTest.step h e = some h') : h'.Settled := by
  have ha := (answers_iff hs e).2 hk
  rcases e with ⟨isTestUrl, request⟩ | ⟨q, filter, filePaths⟩
  · cases hstep
    exact ha.1
  · have hq : ∃ d ∈ h.dialogs, d.query = q := by
      obtain ⟨d, hfind, -⟩ := Option.bind_eq_some_iff.1 hstep
      exact ⟨d, List.mem_of_find?_eq_some hfind, by simpa using List.find?_some hfind⟩
    obtain ⟨h'', hstep', hs', -⟩ := ha hq
    rw [hstep, Option.some.injEq] at hstep'
    exact hstep' ▸ hs'

theorem settled_start : Handler.Settled {} := List.Perm.refl _

end

end DialogTest

/-! ### All handlers -/

namespace MessageRouter

/-- What the handlers keep, and the closures posted by `SetDSF`, each with the browser it was asked for. -/
structure Handlers where
  urlRequest : UrlRequest.Handler := {}
  dialog : DialogTest.Handler := {}
  tasks : List (Nat × Double) := []
  /-- The browsers `RootWindow::GetForBrowser` finds a window of. -/
  windows : List Nat := []

inductive Event
  | bindingQuery (isTestUrl : Bool) (request : Bytes)
  | windowQuery (runner : WindowTest.Runner) (isTestUrl : Bool) (request : Bytes)
  | promptQuery (browser : Nat) (windowlessFrameRate : Int) (request : Bytes)
  | urlRequest (e : UrlRequest.Event)
  | dialog (e : DialogTest.Event)
  /-- The first of the closures runs. -/
  | setDSFOnMainThread
  | rootWindowCreated (browser : Nat)
  | rootWindowDestroyed (browser : Nat)

/-- `none`: it cannot happen, something is thrown or a null pointer is dereferenced. -/
def step (h : Handlers) : Event → Option Handlers
  | .bindingQuery isTestUrl request => (BindingTest.onQuery isTestUrl request).toOption.map fun _ => h
  | .windowQuery runner isTestUrl request => (WindowTest.onQuery runner isTestUrl request).toOption.map fun _ => h
  | .promptQuery browser windowlessFrameRate request =>
    (PromptHandler.onQuery windowlessFrameRate request).toOption.map fun answer =>
      { h with
        tasks := h.tasks ++ answer.calls.filterMap fun
          | .setDSF dsf => some (browser, dsf)
          | _ => none }
  | .urlRequest e => (UrlRequest.step h.urlRequest e).map fun urlRequest => { h with urlRequest }
  | .dialog e => (DialogTest.step h.dialog e).map fun dialog => { h with dialog }
  | .setDSFOnMainThread =>
    match h.tasks with
    | [] => none
    | (browser, _) :: tasks => if browser ∈ h.windows then some { h with tasks } else none
  | .rootWindowCreated browser => some { h with windows := browser :: h.windows }
  | .rootWindowDestroyed browser => some { h with windows := h.windows.filter (· ≠ browser) }

/-- Nothing is thrown and no null pointer dereferenced, and every query that is accepted is answered once,
at once or when its operation ends. -/
def Proper (h : Handlers) : Event → Prop
  | .bindingQuery isTestUrl request => AnsweredOnce (BindingTest.onQuery isTestUrl request)
  | .windowQuery runner isTestUrl request => AnsweredOnce (WindowTest.onQuery runner isTestUrl request)
  | .promptQuery _ windowlessFrameRate request => AnsweredOnce (PromptHandler.onQuery windowlessFrameRate request)
  | .urlRequest e => UrlRequest.Proper h.urlRequest e
  | .dialog e => DialogTest.Answers h.dialog e
  | .setDSFOnMainThread => h.tasks ≠ [] → (step h .setDSFOnMainThread).isSome = true
  | .rootWindowCreated _ | .rootWindowDestroyed _ => True

/-- No message is a bare name, a dialog is one that is known, a request can be made for a URL, and a window
that is asked for is there. -/
def Regular (h : Handlers) : Event → Prop
  | .bindingQuery isTestUrl request => isTestUrl = true → request ≠ BindingTest.kTestMessageName
  | .windowQuery runner isTestUrl request => isTestUrl = true → request ≠ WindowTest.kMessagePositionName ∧
    (runner = .views false → WindowTest.parse request = .ok none)
  | .urlRequest e => UrlRequest.Regular h.urlRequest e
  | .dialog e => DialogTest.Known h.dialog e
  | .setDSFOnMainThread => ∀ task ∈ h.tasks.head?, task.1 ∈ h.windows
  | .promptQuery .. | .rootWindowCreated _ | .rootWindowDestroyed _ => True

structure Handlers.Inv (h : Handlers) : Prop where
  urlRequest : h.urlRequest.Waits
  dialog : h.dialog.Settled

section
variable {h h' : Handlers}

theorem proper_iff (hi : h.Inv) (e : Event) : Proper h e ↔ Regular h e := by
  cases e with
  | bindingQuery isTestUrl request => exact BindingTest.answeredOnce_iff isTestUrl request
  | windowQuery runner isTestUrl request => exact WindowTest.answeredOnce_iff runner isTestUrl request
  | promptQuery browser windowlessFrameRate request =>
    exact iff_of_true (PromptHandler.answeredOnce windowlessFrameRate request) trivial
  | urlRequest e => exact UrlRequest.proper_iff hi.urlRequest e
  | dialog e => exact DialogTest.answers_iff hi.dialog e
  | setDSFOnMainThread =>
    rw [Proper, Regular, step]
    rcases htasks : h.tasks with _ | ⟨⟨browser, dsf⟩, tasks⟩
    · simp
    · simp
  | rootWindowCreated browser => exact Iff.rfl
  | rootWindowDestroyed browser => exact Iff.rfl

theorem Handlers.Inv.step {e : Event} (hi : h.Inv) (hr : Regular h e) (hs : MessageRouter.step h e = some h') :
    h'.Inv := by
  cases e with
  | urlRequest e =>
    obtain ⟨u, hu, rfl⟩ := Option.map_eq_some_iff.1 hs
    exact ⟨hi.urlRequest.step hr hu, hi.dialog⟩
  | dialog e =>
    obtain ⟨d, hd, rfl⟩ := Option.map_eq_some_iff.1 hs
    exact ⟨hi.urlRequest, hi.dialog.step hr hd⟩
  | setDSFOnMainThread =>
    unfold MessageRouter.step at hs
    dsimp only at hs
    split at hs
    · cases hs
    · split at hs <;> cases hs
      exact ⟨hi.urlRequest, hi.dialog⟩
  | rootWindowCreated browser | rootWindowDestroyed browser =>
    cases hs
    exact ⟨hi.urlRequest, hi.dialog⟩
  | bindingQuery isTestUrl request | windowQuery runner isTestUrl request
  | promptQuery browser windowlessFrameRate request =>
    obtain ⟨answer, -, rfl⟩ := Option.map_eq_some_iff.1 hs
    exact ⟨hi.urlRequest, hi.dialog⟩

end

/-- In every run of the handlers nothing is thrown, no null pointer is dereferenced and each accepted query
is answered once, just when no message is a bare name, no dialog unknown, no URL without a request, no
window gone, and no folder's name empty. -/
theorem queries_total_iff (as : List Event) : Lts.Meets step Proper {} as ↔ Lts.Meets step Regular {} as :=
  Lts.meets_congr (I := Handlers.Inv) (fun _ _ _ hi hr hs => hi.step hr hs) (fun _ e hi => proper_iff hi e)
    ⟨UrlRequest.waits_start, DialogTest.settled_start⟩

/-- Bare names, a URL no request is made for, an unknown dialog, and a window that is closed before its
scale factor is set. -/
theorem not_queries_total :
    ¬ Lts.Meets step Proper {} [.bindingQuery true (lit "BindingTest")] ∧
    ¬ Lts.Meets step Proper {} [.windowQuery .win true (lit "WindowTest.Position")] ∧
    ¬ Lts.Meets step Proper {} [.urlRequest (.onQuery true (lit "URLRequestTest") true)] ∧
    ¬ Lts.Meets step Proper {} [.urlRequest (.onQuery true (lit "URLRequestTest:") false)] ∧
    ¬ Lts.Meets step Proper {} [.dialog (.onQuery true (lit "DialogTest.Other"))] ∧
    ¬ Lts.Meets step Proper {} [.rootWindowCreated 1, .promptQuery 1 30 (lit "Prompt.DSF:2"),
      .rootWindowDestroyed 1, .setDSFOnMainThread] := by
  refine ⟨fun h => ?_, fun h => ?_, fun h => ?_, fun h => ?_, fun h => ?_, fun h => ?_⟩
  · exact (BindingTest.answeredOnce_iff true _).1 h.1 rfl rfl
  · exact ((WindowTest.answeredOnce_iff .win true _).1 h.1 rfl).1 rfl
  · exact absurd (h.1.1 true _ true rfl rfl) (by decide)
  · have hsettled := (h.1.2 _ rfl).1
    rw [UrlRequest.Handler.Settled] at hsettled
    exact absurd hsettled (by decide)
  · have hlength := List.Perm.length_eq h.1.1
    exact absurd hlength (by decide)
  · have hclosure := (((h.2 _ rfl).2 _ rfl).2 _ rfl).1 (by decide)
    exact absurd hclosure (by decide)

end MessageRouter

end NplBrowser
