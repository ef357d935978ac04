import NplBrowser.Lib.Run
import Mathlib.Data.List.Perm.Basic

/-!
# The main message loop

`MainMessageLoopMultithreadedWin` runs tasks that any thread posts on the main thread. Before `Run`
has made the message window they wait in `queued_tasks_`, afterwards they travel as messages of the
window, each with a reference that `MessageWndProc` releases. Every function that touches the queue
or the window's handle holds the lock, so each is one step.

Tasks are numbered by the calls of `PostTask`, in the order of the lock. A task may run a message
loop of its own, in which further ones are executed: `running` is the stack of those that have not
returned.
-/

namespace NplBrowser

inductive LoopPhase
  | created
  | running
  /-- `GetMessage` has yielded `WM_QUIT`. -/
  | gotQuit
  /-- `Run` has returned. -/
  | returned
  | destroyed
  deriving DecidableEq

structure MainMessageLoop where
  threadId : Nat
  phase : LoopPhase := .created
  /-- The thread of the message window, when there is one. -/
  messageHwnd : Option Nat := none
  queuedTasks : List Nat := []
  /-- The task messages in the queue of the window's thread. -/
  messages : List Nat := []
  /-- The tasks whose `Execute` has been called, with the thread. -/
  executed : List (Nat × Nat) := []
  running : List Nat := []
  /-- The references added for messages, and those released. -/
  addRefs : List Nat := []
  released : List Nat := []
  posts : Nat := 0
  /-- `PostQuitMessage` has been called. -/
  quit : Bool := false

namespace MainMessageLoop

def postTaskInternal (s : MainMessageLoop) (task : Nat) : MainMessageLoop :=
  match s.messageHwnd with
  | none => { s with queuedTasks := s.queuedTasks ++ [task] }
  | some _ => { s with addRefs := s.addRefs ++ [task], messages := s.messages ++ [task] }

def postTask (s : MainMessageLoop) : MainMessageLoop :=
  { s.postTaskInternal s.posts with posts := s.posts + 1 }

/-- The loop of `Run` over the tasks queued by then. -/
def postQueued (s : MainMessageLoop) : List Nat → MainMessageLoop
  | [] => s
  | task :: l =>
    let s := s.postTaskInternal task
    { s with queuedTasks := s.queuedTasks.tail }.postQueued l

/-- The first locked block of `Run`. -/
def startRun (s : MainMessageLoop) : MainMessageLoop :=
  { s with messageHwnd := some s.threadId, phase := .running }.postQueued s.queuedTasks

/-- The last locked block of `Run`. Messages of a destroyed window are dropped. -/
def endRun (s : MainMessageLoop) : MainMessageLoop :=
  { s with messageHwnd := none, messages := [], phase := .returned }

inductive Event
  | postTask
  | startRun
  /-- `MessageWndProc` takes a task and calls its `Execute`. -/
  | execute
  /-- `Execute` returns and the task is released. -/
  | release
  /-- On the main thread, by a task of `Quit` or otherwise. -/
  | postQuitMessage
  /-- `GetMessage` yields `WM_QUIT` to `Run`. -/
  | getQuit
  | endRun
  | destroy

def step (s : MainMessageLoop) : Event → Option MainMessageLoop
  | .postTask => if s.phase ≠ .destroyed then some s.postTask else none
  | .startRun => if s.phase = .created then some s.startRun else none
  | .execute =>
    match s.phase, s.messageHwnd, s.messages with
    | .running, some thread, task :: l =>
      some { s with
        messages := l
        executed := s.executed ++ [(task, thread)]
        running := task :: s.running }
    | _, _, _ => none
  | .release =>
    match s.running with
    | task :: l => some { s with running := l, released := s.released ++ [task] }
    | [] => none
  | .postQuitMessage => if s.phase = .running then some { s with quit := true } else none
  | .getQuit =>
    if s.phase = .running ∧ s.quit = true ∧ s.running = [] then some { s with phase := .gotQuit }
    else none
  | .endRun => if s.phase = .gotQuit then some s.endRun else none
  | .destroy => if s.phase = .returned then some { s with phase := .destroyed } else none

/-- `WM_QUIT` comes after the tasks that have been posted, as Windows has it, and none is posted
after it. -/
def Ready (s : MainMessageLoop) : Event → Prop
  | .postTask => s.phase = .created ∨ s.phase = .running
  | .getQuit => s.messages = []
  | _ => True

instance (s : MainMessageLoop) : (e : Event) → Decidable (Ready s e)
  | .postTask => inferInstanceAs (Decidable (s.phase = .created ∨ s.phase = .running))
  | .getQuit => inferInstanceAs (Decidable (s.messages = []))
  | .startRun | .execute | .release | .postQuitMessage | .endRun | .destroy => isTrue trivial

/-! ### The invariant -/

structure Inv (s : MainMessageLoop) : Prop where
  order : s.executed.map Prod.fst ++ s.messages ++ s.queuedTasks = List.range s.posts
  thread : ∀ e ∈ s.executed, e.2 = s.threadId
  refs : s.addRefs = s.executed.map Prod.fst ++ s.messages
  released : (s.released ++ s.running).Perm (s.executed.map Prod.fst)
  created : s.phase = .created → s.messageHwnd = none ∧ s.executed = [] ∧ s.messages = []
  running : s.phase = .running → s.messageHwnd = some s.threadId ∧ s.queuedTasks = []
  ended : s.phase ≠ .created → s.phase ≠ .running →
    s.messages = [] ∧ s.queuedTasks = [] ∧ s.running = []

variable {s s' : MainMessageLoop} {e : Event} {as : List Event}

theorem inv_start (threadId : Nat) : Inv { threadId } := by
  refine ⟨rfl, ?_, rfl, .nil, fun _ => ⟨rfl, rfl, rfl⟩, ?_, ?_⟩
  · intro e he
    cases he
  · intro h
    cases h
  · intro h
    exact absurd rfl h

theorem postTaskInternal_of_hwnd {thread : Nat} (hwnd : s.messageHwnd = some thread) (task : Nat) :
    s.postTaskInternal task =
      { s with addRefs := s.addRefs ++ [task], messages := s.messages ++ [task] } := by
  unfold postTaskInternal
  rw [hwnd]

theorem postTaskInternal_of_none (hwnd : s.messageHwnd = none) (task : Nat) :
    s.postTaskInternal task = { s with queuedTasks := s.queuedTasks ++ [task] } := by
  unfold postTaskInternal
  rw [hwnd]

/-- The hand-over: what was queued becomes messages, in its order. -/
theorem postQueued_eq {t : Nat} {l : List Nat} (hwnd : s.messageHwnd = some t)
    (hl : s.queuedTasks = l) : s.postQueued l =
      { s with addRefs := s.addRefs ++ l, messages := s.messages ++ l, queuedTasks := [] } := by
  induction l generalizing s with
  | nil =>
    rw [postQueued, List.append_nil, List.append_nil, ← hl]
  | cons task l ih =>
    rw [postQueued, postTaskInternal_of_hwnd hwnd]
    refine (ih ?_ ?_).trans ?_
    · exact hwnd
    · show s.queuedTasks.tail = l
      rw [hl, List.tail_cons]
    · simp only [List.append_assoc, List.singleton_append]

theorem Inv.postTask (hi : Inv s) (hready : s.phase = .created ∨ s.phase = .running) :
    Inv s.postTask := by
  unfold MainMessageLoop.postTask
  rcases hready with hp | hp
  · obtain ⟨hwnd, hexecuted, hmessages⟩ := hi.created hp
    rw [postTaskInternal_of_none hwnd]
    refine ⟨?_, hi.thread, hi.refs, hi.released, hi.created, ?_, ?_⟩
    · show _ ++ _ ++ (s.queuedTasks ++ [s.posts]) = _
      rw [← List.append_assoc, hi.order, List.range_succ]
    · intro h
      rw [show s.phase = .running from h] at hp
      cases hp
    · intro h
      exact absurd hp h
  · obtain ⟨hwnd, hqueued⟩ := hi.running hp
    rw [postTaskInternal_of_hwnd hwnd]
    refine ⟨?_, hi.thread, ?_, hi.released, ?_, hi.running, ?_⟩
    · show _ ++ (s.messages ++ [s.posts]) ++ s.queuedTasks = _
      have horder := hi.order
      rw [hqueued, List.append_nil] at horder ⊢
      rw [← List.append_assoc, horder, List.range_succ]
    · show s.addRefs ++ [s.posts] = _ ++ (s.messages ++ [s.posts])
      rw [hi.refs, List.append_assoc]
    · intro h
      rw [show s.phase = .created from h] at hp
      cases hp
    · intro _ h
      exact absurd hp h

theorem Inv.startRun (hi : Inv s) (hp : s.phase = .created) : Inv s.startRun := by
  obtain ⟨-, hexecuted, hmessages⟩ := hi.created hp
  have hrefs : s.addRefs = [] := by
    rw [hi.refs, hexecuted, hmessages]
    rfl
  unfold MainMessageLoop.startRun
  rw [postQueued_eq (t := s.threadId) rfl rfl]
  refine ⟨?_, hi.thread, ?_, hi.released, ?_, fun _ => ⟨rfl, rfl⟩, ?_⟩
  · show _ ++ (s.messages ++ s.queuedTasks) ++ [] = _
    rw [List.append_nil, ← List.append_assoc]
    exact hi.order
  · show s.addRefs ++ s.queuedTasks = _ ++ (s.messages ++ s.queuedTasks)
    rw [hrefs, hexecuted, hmessages]
    rfl
  · intro h
    cases h
  · intro _ h
    exact absurd rfl h

theorem Inv.execute {thread task : Nat} {l : List Nat} (hi : Inv s) (hp : s.phase = .running)
    (hwnd : s.messageHwnd = some thread) (hm : s.messages = task :: l) :
    Inv { s with
      messages := l
      executed := s.executed ++ [(task, thread)]
      running := task :: s.running } := by
  have hmove : (s.executed ++ [(task, thread)]).map Prod.fst ++ l =
      s.executed.map Prod.fst ++ s.messages := by
    rw [hm, List.map_append, List.append_assoc]
    rfl
  refine ⟨?_, ?_, hi.refs.trans hmove.symm, ?_, ?_, hi.running, ?_⟩
  · show _ ++ s.queuedTasks = _
    rw [hmove, hi.order]
  · intro e he
    rcases List.mem_append.1 he with he | he
    · exact hi.thread e he
    · rw [List.mem_singleton.1 he]
      rw [(hi.running hp).1] at hwnd
      exact (Option.some.inj hwnd).symm
  · show (s.released ++ task :: s.running).Perm ((s.executed ++ [(task, thread)]).map Prod.fst)
    rw [List.map_append]
    exact List.perm_middle.trans ((hi.released.cons task).trans (List.perm_append_singleton _ _).symm)
  · intro h
    rw [show s.phase = .created from h] at hp
    cases hp
  · intro _ h
    exact absurd hp h

theorem Inv.release {task : Nat} {l : List Nat} (hi : Inv s) (hr : s.running = task :: l) :
    Inv { s with running := l, released := s.released ++ [task] } := by
  refine ⟨hi.order, hi.thread, hi.refs, ?_, hi.created, hi.running, ?_⟩
  · have hperm := hi.released
    rwa [hr, ← List.singleton_append, ← List.append_assoc] at hperm
  · intro hc hrun
    obtain ⟨-, -, hnone⟩ := hi.ended hc hrun
    rw [hr] at hnone
    cases hnone

theorem Inv.step (hi : Inv s) (hready : Ready s e) (hs : MainMessageLoop.step s e = some s') :
    Inv s' := by
  unfold MainMessageLoop.step at hs
  split at hs
  · split at hs <;> cases hs
    exact hi.postTask hready
  · split at hs <;> cases hs
    exact hi.startRun ‹_›
  · split at hs <;> cases hs
    exact hi.execute ‹_› ‹_› ‹_›
  · split at hs <;> cases hs
    exact hi.release ‹_›
  · split at hs <;> cases hs
    exact ⟨hi.order, hi.thread, hi.refs, hi.released, hi.created, hi.running, hi.ended⟩
  · split at hs <;> cases hs
    rename_i h
    obtain ⟨hp, -, hstack⟩ := h
    refine ⟨hi.order, hi.thread, hi.refs, hi.released, ?_, ?_, ?_⟩
    · intro h
      cases h
    · intro h
      cases h
    · exact fun _ _ => ⟨hready, (hi.running hp).2, hstack⟩
  · split at hs <;> cases hs
    rename_i hp
    obtain ⟨hmessages, hqueued, hstack⟩ := hi.ended (by simp [hp]) (by simp [hp])
    refine ⟨?_, hi.thread, ?_, hi.released, ?_, ?_, ?_⟩
    · show _ ++ [] ++ s.queuedTasks = List.range s.posts
      rw [← hmessages, ← hi.order]
      rfl
    · show s.addRefs = _ ++ []
      rw [← hmessages, hi.refs]
      rfl
    · intro h
      cases h
    · intro h
      cases h
    · exact fun _ _ => ⟨rfl, hqueued, hstack⟩
  · split at hs <;> cases hs
    rename_i hp
    refine ⟨hi.order, hi.thread, hi.refs, hi.released, ?_, ?_, ?_⟩
    · intro h
      cases h
    · intro h
      cases h
    · exact fun _ _ => hi.ended (by simp [hp]) (by simp [hp])

/-- What is promised to who posts: the tasks are executed once each, on the main thread and in the
order of the calls, those that are not yet wait in that order, and from the time of `WM_QUIT` on all
have been; the references added are those of the tasks that have travelled, and by then each has
been released once; and the queue is empty at the end. -/
structure Delivery (s : MainMessageLoop) : Prop where
  order : s.executed.map Prod.fst ++ s.messages ++ s.queuedTasks = List.range s.posts
  thread : ∀ e ∈ s.executed, e.2 = s.threadId
  complete : s.phase ≠ .created → s.phase ≠ .running →
    s.executed.map Prod.fst = List.range s.posts
  references : (s.released ++ s.running ++ s.messages).Perm s.addRefs
  released : s.phase ≠ .created → s.phase ≠ .running → s.released.Perm (List.range s.posts)
  emptied : s.phase = .destroyed → s.queuedTasks = []

theorem Inv.delivery (hi : Inv s) : Delivery s := by
  have hcomplete : s.phase ≠ .created → s.phase ≠ .running →
      s.executed.map Prod.fst = List.range s.posts := by
    intro hc hrun
    obtain ⟨hmessages, hqueued, -⟩ := hi.ended hc hrun
    rw [← hi.order, hmessages, hqueued, List.append_nil, List.append_nil]
  refine ⟨hi.order, hi.thread, hcomplete, ?_, ?_, ?_⟩
  · rw [hi.refs]
    exact hi.released.append_right _
  · intro hc hrun
    have hperm := hi.released
    rwa [(hi.ended hc hrun).2.2, List.append_nil, hcomplete hc hrun] at hperm
  · intro hp
    exact (hi.ended (by simp [hp]) (by simp [hp])).2.1

theorem tasks_delivered {threadId : Nat}
    (hr : Lts.Run MainMessageLoop.step Ready { threadId } as s) : Delivery s :=
  (hr.inv (I := Inv) (fun _ _ _ hi hready hs => hi.step hready hs) (inv_start threadId)).delivery

/-- One task before `Run` and two while it runs, the last in a message loop of the second. -/
theorem tasks_delivered_nested : ∃ s, Lts.Run MainMessageLoop.step Ready { threadId := 7 }
      [.postTask, .startRun, .postTask, .execute, .release, .execute, .postTask, .execute, .release,
        .postQuitMessage, .release, .getQuit, .endRun, .destroy] s ∧
    s.executed = [(0, 7), (1, 7), (2, 7)] ∧ s.released = [0, 2, 1] ∧ Delivery s := by
  obtain ⟨s, hs, hexecuted, hreleased⟩ :
      ∃ s, Lts.exec (Lts.checked MainMessageLoop.step Ready) { threadId := 7 }
        [.postTask, .startRun, .postTask, .execute, .release, .execute, .postTask, .execute, .release,
          .postQuitMessage, .release, .getQuit, .endRun, .destroy] = some s ∧
      s.executed = [(0, 7), (1, 7), (2, 7)] ∧ s.released = [0, 2, 1] := ⟨_, rfl, rfl, rfl⟩
  have hr := Lts.run_of_checked hs
  exact ⟨s, hr, hexecuted, hreleased, tasks_delivered hr⟩

/-- A task posted after `GetMessage` has yielded `WM_QUIT` is lost with its reference, one posted
after `Run` stays in the queue. -/
theorem late_task_lost : ¬ ∀ as s,
    Lts.Run MainMessageLoop.step Lts.Any { threadId := 7 } as s → Delivery s := by
  intro h
  obtain ⟨s, hs, hp, hq⟩ : ∃ s, Lts.exec MainMessageLoop.step { threadId := 7 }
      [.startRun, .postQuitMessage, .getQuit, .postTask, .endRun, .postTask, .destroy] = some s ∧
      s.phase = .destroyed ∧ s.queuedTasks = [1] := ⟨_, rfl, rfl, rfl⟩
  have hempty := (h _ s (Lts.run_of_exec hs)).emptied hp
  rw [hq] at hempty
  cases hempty

end MainMessageLoop

end NplBrowser
