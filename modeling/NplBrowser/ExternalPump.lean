import Mathlib.Tactic.Ring
import NplBrowser.Lib.Run

/-!
# The external message pump

`MainMessageLoopExternalPumpWin` calls `CefDoMessageLoopWork` from the host's message loop. CEF asks
for a call on any thread, through a `kMsgHaveWork` message that carries the delay; a native timer
does the rest. `CefDoMessageLoopWork` may dispatch messages itself, and so run the handlers again
while it is on the stack: their calls are discarded then, and made up for when it returns.

A handler is one step up to where it calls `CefDoMessageLoopWork`, and what follows the call is
another: nothing in between dispatches a message, and what other threads do is to post one. Messages
may be dispatched in any order. An `LPARAM` has `w` bits. A timer that is killed may have posted its
`WM_TIMER` before.
-/

namespace NplBrowser

structure ExternalPump where
  isActive : Bool := false
  reentrancyDetected : Bool := false
  timerPending : Bool := false
  /-- The native timer and its delay. -/
  nativeTimer : Option Nat := none
  /-- The delays of the `kMsgHaveWork` messages in the queue. -/
  messages : List Int := []
  wmTimers : Nat := 0
  /-- The calls of `CefDoMessageLoopWork` on the stack. -/
  working : Nat := 0
  /-- A call has been asked for. -/
  requested : Bool := false
  /-- `GetMessage` has yielded `WM_QUIT`. -/
  quit : Bool := false
  /-- A call has been discarded, and no other posted in its place yet. -/
  discarded : Bool := false
  /-- `SetTimer` has been called with a timer pending. -/
  timerReset : Bool := false

namespace ExternalPump

def timerDelayPlaceholder : Int := 2 ^ 31 - 1

def maxTimerDelay : Int := 1000 / 30

inductive Event
  /-- By CEF, on any thread. -/
  | scheduleWork (delayMs : Int)
  /-- Dispatches the `i`-th `kMsgHaveWork` message. -/
  | haveWork (i : Nat)
  /-- The native timer posts a `WM_TIMER`. -/
  | timerFires
  | wmTimer
  | workReturns
  | quit
deriving DecidableEq

/-- `OnScheduleMessagePumpWork`: through an `LPARAM` and back. -/
def onScheduleMessagePumpWork (w : Nat) (s : ExternalPump) (delayMs : Int) : ExternalPump :=
  { s with messages := s.messages ++ [delayMs.bmod (2 ^ w)] }

def setTimer (s : ExternalPump) (delayMs : Int) : ExternalPump :=
  { s with
    timerReset := s.timerReset || s.timerPending
    timerPending := true
    nativeTimer := some delayMs.toNat }

def killTimer (s : ExternalPump) : ExternalPump :=
  if s.timerPending then { s with nativeTimer := none, timerPending := false } else s

/-- The end of `DoWork`. -/
def postWork (w : Nat) (s : ExternalPump) (wasReentrant : Bool) : ExternalPump :=
  if wasReentrant then { s with discarded := false }.onScheduleMessagePumpWork w 0
  else if s.timerPending then s
  else s.onScheduleMessagePumpWork w timerDelayPlaceholder

/-- `DoWork`, up to the call of `CefDoMessageLoopWork` if `PerformMessageLoopWork` makes it. -/
def doWork (w : Nat) (s : ExternalPump) : ExternalPump :=
  if s.isActive then { s with reentrancyDetected := true, discarded := true }.postWork w false
  else { s with reentrancyDetected := false, isActive := true, working := s.working + 1 }

/-- What follows the call. -/
def workReturns (w : Nat) (s : ExternalPump) : ExternalPump :=
  { s with isActive := false, working := s.working - 1 }.postWork w s.reentrancyDetected

def onScheduleWork (w : Nat) (s : ExternalPump) (delayMs : Int) : ExternalPump :=
  if delayMs = timerDelayPlaceholder ∧ s.timerPending then s
  else if delayMs ≤ 0 then s.killTimer.doWork w
  else s.killTimer.setTimer (if maxTimerDelay < delayMs then maxTimerDelay else delayMs)

def onTimerTimeout (w : Nat) (s : ExternalPump) : ExternalPump := s.killTimer.doWork w

/-- Up to `WM_QUIT`. -/
def step (w : Nat) (s : ExternalPump) (e : Event) : Option ExternalPump :=
  if s.quit then none else
  match e with
  | .scheduleWork delayMs => some { s.onScheduleMessagePumpWork w delayMs with requested := true }
  | .haveWork i =>
    (s.messages[i]?).map fun delayMs => { s with messages := s.messages.eraseIdx i }.onScheduleWork w delayMs
  | .timerFires => if s.nativeTimer.isSome then some { s with wmTimers := s.wmTimers + 1 } else none
  | .wmTimer => if s.wmTimers = 0 then none else some ({ s with wmTimers := s.wmTimers - 1 }.onTimerTimeout w)
  | .workReturns => if s.working = 0 then none else some (s.workReturns w)
  | .quit => if s.working = 0 then some { s.killTimer with quit := true } else none

/-- A timer of at most 33 ms is armed, and `timer_pending_` set exactly then, or a message waits. -/
def Alive (s : ExternalPump) : Prop :=
  (s.timerPending = true ↔ ∃ n, s.nativeTimer = some n) ∧ (∀ n, s.nativeTimer = some n → n ≤ 33) ∧
    ((∃ n, s.nativeTimer = some n) ∨ s.messages ≠ [])

/-! ## The invariant -/

/-- Of the timer, which every function keeps. -/
structure TimerInv (s : ExternalPump) : Prop where
  pending : s.timerPending = true ↔ ∃ n, s.nativeTimer = some n
  bound : ∀ n, s.nativeTimer = some n → n ≤ 33
  reset : s.timerReset = false

/-- While a handler runs. Nothing is dispatched before the first request. -/
structure Running (s : ExternalPump) : Prop extends TimerInv s where
  requested : s.requested = true
  working : s.working = if s.isActive then 1 else 0
  discarded : s.discarded = true → s.isActive = true ∧ s.reentrancyDetected = true

structure Inv (s : ExternalPump) : Prop where
  running : s.requested = true → s.Running
  alive : s.requested = true → s.isActive = false → s.quit = false → s.timerPending = true ∨ s.messages ≠ []
  fresh : s.requested = false → ∃ quit, s = { quit }

section
variable {s s' : ExternalPump} {w : Nat} {delayMs : Int}

theorem Inv.init : Inv {} where
  running h := by simp at h
  alive h := by simp at h
  fresh _ := ⟨false, rfl⟩

theorem Running.inv (h : s.Running) (halive : s.isActive = false → s.timerPending = true ∨ s.messages ≠ []) :
    Inv s where
  running _ := h
  alive _ ha _ := halive ha
  fresh hr := by simp [h.requested] at hr

/-! ### The timer -/

theorem Running.killTimer (h : s.Running) : s.killTimer.Running ∧ s.killTimer.timerPending = false := by
  unfold ExternalPump.killTimer
  split
  · exact ⟨{ h with pending := by simp, bound := by simp }, rfl⟩
  · rename_i hp
    exact ⟨h, by simpa using hp⟩

/-- A timer is set when none is pending. -/
theorem Running.setTimer (h : s.Running) (hp : s.timerPending = false) (hd : delayMs ≤ maxTimerDelay) :
    (s.setTimer delayMs).Running := by
  unfold maxTimerDelay at hd
  refine { h with pending := ?_, bound := ?_, reset := ?_ }
  · exact iff_of_true rfl ⟨_, rfl⟩
  · intro n hn
    cases hn
    omega
  · show (s.timerReset || s.timerPending) = false
    rw [h.reset, hp]
    rfl

theorem Running.post (h : s.Running) : (s.onScheduleMessagePumpWork w delayMs).Running := { h with }

theorem messages_post : (s.onScheduleMessagePumpWork w delayMs).messages ≠ [] := by
  unfold onScheduleMessagePumpWork
  simp

/-! ### The work -/

/-- The call is made, or discarded by one that is on the stack. -/
theorem Running.doWork (h : s.Running) : Inv (s.doWork w) := by
  unfold ExternalPump.doWork
  split
  · rename_i ha
    have hdiscard : Running { s with reentrancyDetected := true, discarded := true } :=
      { h with discarded := fun _ => ⟨ha, rfl⟩ }
    unfold postWork
    rw [if_neg Bool.false_ne_true]
    split
    · exact hdiscard.inv fun hnot => absurd (ha.symm.trans hnot) (by simp)
    · exact hdiscard.post.inv fun hnot => absurd (ha.symm.trans hnot) (by simp)
  · rename_i ha
    have hworking := h.working
    rw [if_neg ha] at hworking
    refine Running.inv { h with working := ?_, discarded := ?_ } fun hnot => absurd hnot (by simp)
    · show s.working + 1 = 1
      rw [hworking]
    · exact fun hd => absurd (h.discarded hd).1 ha

/-- When the call returns there is a request for every one it has discarded. -/
theorem Running.workReturns (h : s.Running) (hw : s.working ≠ 0) :
    Inv (s.workReturns w) ∧ (s.workReturns w).discarded = false ∧ (s.workReturns w).working = 0 ∧
      (s.discarded = true → (s.workReturns w).messages = s.messages ++ [0]) := by
  have hworking := h.working
  have ha : s.isActive = true := by
    by_contra ha
    rw [if_neg ha] at hworking
    exact hw hworking
  rw [if_pos ha] at hworking
  have hzero : s.working - 1 = 0 := by omega
  unfold ExternalPump.workReturns postWork
  split
  · have hrun : Running { s with isActive := false, working := s.working - 1, discarded := false } :=
      { h with working := hzero, discarded := fun hd => by cases hd }
    refine ⟨hrun.post.inv fun _ => .inr messages_post, rfl, hzero, fun _ => ?_⟩
    show s.messages ++ [Int.bmod 0 (2 ^ w)] = _
    rw [Int.zero_bmod]
  · rename_i hr
    have hd : s.discarded = false := by
      by_contra hd
      exact hr (h.discarded (by simpa using hd)).2
    have hnot : ∀ {P : Prop}, s.discarded = true → P := fun hd' => by
      rw [hd] at hd'
      cases hd'
    have hrun : Running { s with isActive := false, working := s.working - 1 } :=
      { h with working := hzero, discarded := hnot }
    split
    · exact ⟨hrun.inv fun _ => .inl ‹_›, hd, hzero, hnot⟩
    · exact ⟨hrun.post.inv fun _ => .inr messages_post, hd, hzero, hnot⟩

/-! ### The handlers -/

theorem Running.onScheduleWork (h : s.Running) (delayMs : Int) : Inv (s.onScheduleWork w delayMs) := by
  obtain ⟨hkill, hpending⟩ := h.killTimer
  unfold ExternalPump.onScheduleWork
  split
  · rename_i hplaceholder
    exact h.inv fun _ => .inl hplaceholder.2
  · split
    · exact hkill.doWork
    · refine (hkill.setTimer hpending ?_).inv fun _ => .inl rfl
      split <;> omega

theorem Running.onTimerTimeout (h : s.Running) : Inv (s.onTimerTimeout w) := h.killTimer.1.doWork

theorem Inv.step {e : Event} (h : s.Inv) (hs : s.step w e = some s') : s'.Inv := by
  unfold ExternalPump.step at hs
  rw [Option.ite_none_left_eq_some] at hs
  obtain ⟨hquit, hs⟩ := hs
  cases hr : s.requested with
  | false =>
    obtain ⟨quit, rfl⟩ := h.fresh hr
    cases e with
    | scheduleWork delayMs =>
      cases hs
      refine Running.inv ?_ fun _ => .inr messages_post
      exact { pending := by simp [onScheduleMessagePumpWork], bound := nofun, reset := rfl, requested := rfl,
              working := rfl, discarded := nofun }
    | quit =>
      cases hs
      exact ⟨nofun, nofun, fun _ => ⟨true, rfl⟩⟩
    | _ => simp at hs
  | true =>
    have hrun := h.running hr
    cases e with
    | scheduleWork delayMs =>
      cases hs
      exact Running.inv { hrun with requested := rfl } fun _ => .inr messages_post
    | haveWork i =>
      obtain ⟨delayMs, -, rfl⟩ := Option.map_eq_some_iff.1 hs
      have hrun' : Running { s with messages := s.messages.eraseIdx i } := { hrun with }
      exact hrun'.onScheduleWork delayMs
    | timerFires =>
      obtain ⟨-, hs⟩ := Option.ite_none_right_eq_some.1 hs
      cases hs
      exact Running.inv { hrun with } fun ha => h.alive hr ha (by simpa using hquit)
    | wmTimer =>
      obtain ⟨-, hs⟩ := Option.ite_none_left_eq_some.1 hs
      cases hs
      have hrun' : Running { s with wmTimers := s.wmTimers - 1 } := { hrun with }
      exact hrun'.onTimerTimeout
    | workReturns =>
      obtain ⟨hw, hs⟩ := Option.ite_none_left_eq_some.1 hs
      cases hs
      exact (hrun.workReturns hw).1
    | quit =>
      obtain ⟨-, hs⟩ := Option.ite_none_right_eq_some.1 hs
      cases hs
      have hkill := hrun.killTimer.1
      exact ⟨fun _ => { hkill with }, nofun, fun hr' => by
        have := hkill.requested
        simp_all⟩

theorem inv_run {es : List Event} (h : Lts.Run (step w) Lts.Any {} es s) : s.Inv :=
  h.inv (fun _ _ _ hi _ hs => hi.step hs) .init

theorem Inv.isActive (h : s.Inv) (hw : s.working = 0) : s.isActive = false := by
  cases hr : s.requested with
  | false =>
    obtain ⟨quit, rfl⟩ := h.fresh hr
    rfl
  | true =>
    have hworking := (h.running hr).working
    by_contra ha
    rw [if_pos (by simpa using ha)] at hworking
    omega

theorem Inv.aliveAt (h : s.Inv) (hr : s.requested = true) (hq : s.quit = false) (hw : s.working = 0) :
    s.Alive := by
  have hrun := h.running hr
  refine ⟨hrun.pending, hrun.bound, ?_⟩
  rcases h.alive hr (h.isActive hw) hq with hp | hm
  exacts [.inl (hrun.pending.1 hp), .inr hm]

theorem Inv.owed (h : s.Inv) (hd : s.discarded = true) : s.Running ∧ s.isActive = true := by
  cases hr : s.requested with
  | false =>
    obtain ⟨quit, rfl⟩ := h.fresh hr
    cases hd
  | true => exact ⟨h.running hr, ((h.running hr).discarded hd).1⟩

end

/-- In every run: while a call has been asked for and the loop has not quit, the pump is alive whenever
no handler runs; a call that was discarded has been made up for by a request without delay once the
call that discarded it has returned; and no timer is set while one is pending. -/
theorem alive_run (w : Nat) (es : List Event) (s : ExternalPump) (h : Lts.Run (step w) Lts.Any {} es s) :
    (s.requested = true → s.quit = false → s.working = 0 → s.Alive) ∧
      (s.working = 0 → s.discarded = false) ∧
      (∀ s', s.discarded = true → s.step w .workReturns = some s' →
        s'.working = 0 ∧ s'.messages = s.messages ++ [0]) ∧
      s.timerReset = false := by
  have hi := inv_run h
  refine ⟨hi.aliveAt, ?_, ?_, ?_⟩
  · intro hw
    by_contra hd
    have ha := (hi.owed (by simpa using hd)).2
    rw [hi.isActive hw] at ha
    cases ha
  · intro s' hd hs
    have hrun := (hi.owed hd).1
    unfold step at hs
    obtain ⟨-, hs⟩ := Option.ite_none_left_eq_some.1 hs
    obtain ⟨hw, hs⟩ := Option.ite_none_left_eq_some.1 hs
    cases hs
    have hreturn := hrun.workReturns (w := w) hw
    exact ⟨hreturn.2.2.1, hreturn.2.2.2 hd⟩
  · cases hr : s.requested with
    | false =>
      obtain ⟨quit, rfl⟩ := hi.fresh hr
      rfl
    | true => exact (hi.running hr).reset

/-- Work that asks for more work, without delay, and dispatches the request itself. -/
theorem alive_run_reentrant :
    ∃ s, Lts.Run (step 64) Lts.Any {} [.scheduleWork 0, .haveWork 0, .scheduleWork 0, .haveWork 0, .workReturns] s ∧
      s.Alive ∧ s.timerReset = false := by
  obtain ⟨s, hs, hr, hq, hw⟩ : ∃ s, Lts.exec (step 64) {} [.scheduleWork 0, .haveWork 0, .scheduleWork 0,
      .haveWork 0, .workReturns] = some s ∧ s.requested = true ∧ s.quit = false ∧ s.working = 0 :=
    ⟨_, rfl, rfl, rfl, rfl⟩
  have hrun := Lts.run_of_exec hs
  have hall := alive_run 64 _ s hrun
  exact ⟨s, hrun, hall.1 hr hq hw, hall.2.2.2⟩

end ExternalPump
end NplBrowser
