import NplBrowser.Codec

/-!
# Commands in a run

What becomes of the commands a window is sent. `process` is one message by itself, both halves:
nothing is thrown into the message loop, and a malformed command changes nothing, exactly if the
first half lets no command through that the second one cannot convert, and the config store is usable
where `CheckCefWindow` needs it.

`CommandSys` adds the queues: the main queue, in which the tasks of the commands wait with the news
that the browser has been created, and the `ModifyZoom` tasks of the UI thread. A command whose task
runs before the browser is there is dropped; in the runs in which this happens to none that would do
something, the window ends up as the last commands of each kind say.
-/

namespace NplBrowser

/-! ### One message -/

/-- `HandleCustomMsg`, and then the task if it posts one. `lpData` is the memory from the pointer on, to
the end of what can be read; a NULL pointer, which a message without data has, is left out. -/
def process (parse : Bytes → Option Json) (lpData : Bytes) (s : Client) :
    Client × Except JsonError Unit :=
  match handleCustomMsg parse lpData with
  | none => (s, .ok ())
  | some input => handleCustomTask input s

/-- Not JSON, not an object, or a field is missing or of the wrong type. -/
def Malformed (parse : Bytes → Option Json) (lpData : Bytes) : Prop :=
  ∀ input, parse (cString lpData) = some input → ∀ c, ¬ Decodes input c

/-- No exception escapes, and a malformed command leaves everything as it was. -/
structure HandledSafely (parse : Bytes → Option Json) (lpData : Bytes) (s : Client) : Prop where
  returns : (process parse lpData s).2 = .ok ()
  unchanged : Malformed parse lpData → (process parse lpData s).1 = s

def Client.hasBrowser (s : Client) : Bool := s.window.browserWindow && s.window.browser

theorem handleCustomTask_ok_iff {input : Json} {s : Client} :
    (handleCustomTask input s).2 = .ok () ↔ ∃ c, Decodes input c ∧
      (c.cmd = lit "CheckCefWindow" → s.hasBrowser = true →
        s.StoreUsable c.cefclientConfigFilename c.pid) := by
  unfold handleCustomTask
  cases hr : readCommand input with
  | error e =>
    simp only [reduceCtorEq, false_iff, not_exists, not_and]
    intro c hc
    rw [readCommand_eq_ok_iff.2 hc] at hr
    cases hr
  | ok c =>
    have hc := readCommand_eq_ok_iff.1 hr
    have hone : ∀ P : Command → Prop, (∃ c', Decodes input c' ∧ P c') ↔ P c := fun P =>
      ⟨fun ⟨c', hc', h⟩ => hc.unique hc' ▸ h, fun h => ⟨c, hc, h⟩⟩
    rw [hone]
    dsimp only
    by_cases hcmd : c.cmd = lit "CheckCefWindow"
    · rw [if_pos hcmd]
      by_cases hb : (RootWindowWin.getBrowser.run s.window).1 = true
      · rw [if_pos hb]
        refine Iff.trans checkCefWindow_ok_iff ?_
        exact ⟨fun h _ _ => h, fun h => h hcmd hb⟩
      · rw [if_neg hb]
        exact iff_of_true rfl fun _ h => absurd h hb
    · rw [if_neg hcmd]
      refine iff_of_true ?_ fun h => absurd h hcmd
      split <;> rfl

/-- A message is handled safely exactly if every command the first half lets through converts, and
the store is usable if it is a `CheckCefWindow` on a window with a browser. -/
theorem process_handledSafely_iff {parse : Bytes → Option Json} {lpData : Bytes} {s : Client} :
    HandledSafely parse lpData s ↔
      ∀ input, parse (cString lpData) = some input →
        (∃ cmd, input.find (lit "cmd") = some (.string cmd)) →
        ∃ c, Decodes input c ∧ (c.cmd = lit "CheckCefWindow" → s.hasBrowser = true →
          s.StoreUsable c.cefclientConfigFilename c.pid) := by
  cases hm : handleCustomMsg parse lpData with
  | none =>
    have hproc : process parse lpData s = (s, .ok ()) := by simp only [process, hm]
    refine iff_of_true ⟨by rw [hproc], fun _ => by rw [hproc]⟩ fun input hp hcmd => ?_
    rw [handleCustomMsg_eq_some_iff.2 ⟨hp, hcmd⟩] at hm
    cases hm
  | some input =>
    obtain ⟨hp, hcmd⟩ := handleCustomMsg_eq_some_iff.1 hm
    have hproc : process parse lpData s = handleCustomTask input s := by simp only [process, hm]
    have hone : ∀ P : Json → Prop, (∀ i, parse (cString lpData) = some i → P i) ↔ P input := by
      intro P
      rw [hp]
      exact ⟨fun h => h input rfl, fun h i hi => by cases hi; exact h⟩
    rw [hone]
    constructor
    · intro h _
      rw [← handleCustomTask_ok_iff, ← hproc]
      exact h.returns
    · intro h
      have hok := handleCustomTask_ok_iff.2 (h hcmd)
      refine ⟨by rw [hproc]; exact hok, fun hmal => ?_⟩
      obtain ⟨c, hc, -⟩ := h hcmd
      exact absurd hc (hmal input hp c)

/-- `{"cmd":"Quit"}` gets through the first half and throws in the second. -/
theorem process_quit_only :
    let text := lit "\x7b\"cmd\":\"Quit\"\x7d"
    ¬ HandledSafely parseText (text ++ [0]) { window := {}, files := fun _ => none } := by
  intro text h
  let input : Json := .object [(lit "cmd", .string (lit "Quit"))]
  have hdump : input.dump (fun _ => []) = some text := by decide +kernel
  have hread : Json.Every (Json.Readable atof fun _ => []) input := by
    refine Json.readable_object (List.pairwise_singleton _ _) (List.forall_mem_singleton.2 ?_)
    exact Json.readable_leaf rfl rfl (by simp)
  have hmsg : handleCustomMsg parseText (text ++ [0]) = some input := by
    refine handleCustomMsg_eq_some_iff.2 ⟨?_, _, rfl⟩
    rw [cString_append_nul (Json.zero_notMem_dump (by simp) _ _ hdump)]
    exact parseText_dump hdump hread
  have hreturns := h.returns
  simp only [process, hmsg] at hreturns
  cases hreturns

/-! ### What the commands ask for -/

namespace Command

variable (c : Command)

def shows : Option Bool :=
  if c.cmd = lit "Show" then some c.visible
  else if c.cmd = lit "Open" ∧ c.visible = true then some true else none

def moves : Option (Int32 × Int32 × Int32 × Int32) :=
  if c.cmd = lit "ChangePosSize" ∨ (c.cmd = lit "Open" ∧ c.resize = true) then
    some (c.x, c.y, c.width, c.height)
  else none

def enables : Option Bool := if c.cmd = lit "EnableWindow" then some c.enabled else none

def loads : Option Bytes := if c.cmd = lit "Open" ∧ c.url ≠ [] then some c.url else none

def zooms : Option Double :=
  if c.cmd = lit "Zoom" ∨ ((c.cmd = lit "Open" ∨ c.cmd = lit "Show") ∧ c.visible = true) then
    some c.zoom
  else none

/-- The command asks for nothing. -/
def Idle : Prop :=
  c.shows = none ∧ c.moves = none ∧ c.enables = none ∧ c.loads = none ∧ c.zooms = none ∧
    c.cmd ≠ lit "Quit"

/-- The look the command asks for; the zoom level goes through the UI thread. -/
def look (l : Look) : Look where
  visible := c.shows.getD l.visible
  bounds := c.moves.getD l.bounds
  enabled := c.enables.getD l.enabled
  url := c.loads.getD l.url
  zoom := l.zoom

end Command

/-- What the last of the commands that set an attribute sets it to, or the old value. -/
def lastSet {α : Type} (f : Command → Option α) (cs : List Command) (old : α) : α :=
  (cs.filterMap f).getLast?.getD old

theorem lastSet_snoc {α : Type} (f : Command → Option α) (cs : List Command) (c : Command) (old : α) :
    lastSet f (cs ++ [c]) old = (f c).getD (lastSet f cs old) := by
  cases h : f c <;> simp [lastSet, h]

open RootWindowWin in
/-- A command other than Quit, on a window that is there. -/
theorem carryOut_run {c : Command} {w : RootWindowWin} (h : w.freed = false) (hh : w.hwnd = true)
    (hc : c.cmd ≠ lit "Quit") : (carryOut c).run w = (c.zooms, { w with look := c.look w.look }) := by
  have hn := freed_eq_false h
  obtain ⟨_, _, _, _, _, _, _, _, _, _, _, _⟩ := w
  cases hn
  cases hh
  by_cases hopen : c.cmd = lit "Open"
  · by_cases hurl : c.url = [] <;> cases hr : c.resize <;> cases hv : c.visible <;>
      simp +decide [carryOut, Command.look, Command.shows, Command.moves, Command.enables,
        Command.loads, Command.zooms, hopen, hurl, hr, hv, setBounds, showNormal, member_run_nil]
  by_cases hshow : c.cmd = lit "Show"
  · cases hv : c.visible <;>
      simp +decide [carryOut, Command.look, Command.shows, Command.moves, Command.enables,
        Command.loads, Command.zooms, hshow, hv, hide, showNormal, member_run_nil]
  by_cases hmove : c.cmd = lit "ChangePosSize"
  · simp +decide [carryOut, Command.look, Command.shows, Command.moves, Command.enables,
      Command.loads, Command.zooms, hmove, setBounds, member_run_nil]
  by_cases hzoom : c.cmd = lit "Zoom"
  · simp +decide [carryOut, Command.look, Command.shows, Command.moves, Command.enables,
      Command.loads, Command.zooms, hzoom]
  by_cases henable : c.cmd = lit "EnableWindow"
  · simp +decide [carryOut, Command.look, Command.shows, Command.moves, Command.enables,
      Command.loads, Command.zooms, henable, enableWindow, member_run_nil]
  -- Start, or a command the handler does not know
  simp [carryOut, Command.look, Command.shows, Command.moves, Command.enables, Command.loads,
    Command.zooms, hopen, hshow, hmove, hzoom, henable, hc]

open RootWindowWin in
/-- Any command on a window that is gone: at most the URL of the browser changes. -/
theorem carryOut_run_gone {w : RootWindowWin} (c : Command) (h : w.freed = false)
    (hh : w.hwnd = false) : ∃ l, ((carryOut c).run w).2 = { w with look := l } := by
  have hn := freed_eq_false h
  obtain ⟨_, _, _, _, _, _, _, _, _, l, _, _⟩ := w
  cases hn
  cases hh
  by_cases hopen : c.cmd = lit "Open"
  · by_cases hurl : c.url = []
    · refine ⟨l, ?_⟩
      cases hr : c.resize <;> cases hv : c.visible <;>
        simp +decide [carryOut, hopen, hurl, hr, hv, setBounds, showNormal, member_run_nil]
    · refine ⟨{ l with url := c.url }, ?_⟩
      cases hr : c.resize <;> cases hv : c.visible <;>
        simp +decide [carryOut, hopen, hurl, hr, hv, setBounds, showNormal, member_run_nil]
  · refine ⟨l, ?_⟩
    simp only [carryOut, if_neg hopen, M.run_ite]
    split_ifs <;> simp [setBounds, hide, showNormal, enableWindow, close, member_run_nil]

open RootWindowWin in
theorem carryOut_run_quit {c : Command} {w : RootWindowWin} (h : w.freed = false)
    (hh : w.hwnd = true) (hn : w.native = .alive) (hc : c.cmd = lit "Quit") :
    (carryOut c).run w = (none, (ncDestroy.run w).2) := by
  simp +decide [carryOut, hc, close_run h, hh, hn]

/-! ### A sequence of commands -/

inductive ClientTask
  | notifyBrowserCreated
  | handleCustomTask (input : Json)

/-- One window with the two queues it depends on; `client.zooms` is the one of the UI thread. -/
structure CommandSys where
  client : Client
  mainQueue : List ClientTask := []
  /-- The UI thread has posted that the browser is created. -/
  announced : Bool := false
  /-- An exception has left the message loop. -/
  crashed : Bool := false

inductive CommandEvent
  | copyData (lpData : Bytes)
  | browserCreated
  | runMain
  | runUi

namespace CommandSys

def step (parse : Bytes → Option Json) (s : CommandSys) (e : CommandEvent) : Option CommandSys :=
  if s.crashed then none else
  match e with
  | .copyData lpData =>
    match handleCustomMsg parse lpData with
    | some input => some { s with mainQueue := s.mainQueue ++ [.handleCustomTask input] }
    | none => some s
  | .browserCreated =>
    if s.client.window.page = .creating ∧ s.announced = false then
      some { s with mainQueue := s.mainQueue ++ [.notifyBrowserCreated], announced := true }
    else none
  | .runMain =>
    match s.mainQueue with
    | [] => none
    | .notifyBrowserCreated :: q =>
      (s.client.window.step .browserCreated).map fun w =>
        { s with client := { s.client with window := w }, mainQueue := q }
    | .handleCustomTask input :: q =>
      match handleCustomTask input s.client with
      | (client, .ok ()) => some { s with client, mainQueue := q }
      | (client, .error _) => some { s with client, mainQueue := q, crashed := true }
  | .runUi =>
    match s.client.zooms with
    | [] => none
    | zoom :: zooms =>
      let w := s.client.window
      some { s with client := { s.client with
        window := { w with look := { w.look with zoom } }, zooms } }

/-- Every message is a well-formed command, and when its task runs the browser is there (or the
command asks for nothing), and so is a usable store (or it is not a `CheckCefWindow`). -/
def Heard (parse : Bytes → Option Json) (s : CommandSys) : CommandEvent → Prop
  | .copyData lpData => ∃ input c, parse (cString lpData) = some input ∧ Decodes input c
  | .runMain => ∀ input q, s.mainQueue = .handleCustomTask input :: q → ∀ c, Decodes input c →
      (s.client.hasBrowser = true ∨ c.Idle) ∧
        (c.cmd = lit "CheckCefWindow" → s.client.hasBrowser = true →
          s.client.StoreUsable c.cefclientConfigFilename c.pid)
  | _ => True

end CommandSys

/-- The command in a message. -/
def CommandEvent.command (parse : Bytes → Option Json) : CommandEvent → Option Command
  | .copyData lpData => (parse (cString lpData)).bind fun input => (readCommand input).toOption
  | _ => none

/-- The command in a task. -/
def ClientTask.command : ClientTask → Option Command
  | .handleCustomTask input => (readCommand input).toOption
  | .notifyBrowserCreated => none

/-- The look after the commands `cs`, each attribute as the last command that sets it has it. -/
structure Seen (old : Look) (cs : List Command) (l : Look) : Prop where
  visible : l.visible = lastSet Command.shows cs old.visible
  bounds : l.bounds = lastSet Command.moves cs old.bounds
  enabled : l.enabled = lastSet Command.enables cs old.enabled
  url : l.url = lastSet Command.loads cs old.url
  zoom : l.zoom = lastSet Command.zooms cs old.zoom

/-- The look with the zoom level that is on its way to it. -/
def Client.settled (s : Client) : Look :=
  { s.window.look with zoom := s.zooms.getLast?.getD s.window.look.zoom }

/-- The command with its zoom level. -/
def Command.settle (c : Command) (l : Look) : Look :=
  { c.look l with zoom := c.zooms.getD l.zoom }

/-- After what the handler does on a window with a browser. -/
def Client.carried (s : Client) (c : Command) : Client :=
  { s with window := ((carryOut c).run s.window).2,
           zooms := s.zooms ++ ((carryOut c).run s.window).1.toList }

theorem Seen.snoc {old l : Look} {cs : List Command} (h : Seen old cs l) (c : Command) :
    Seen old (cs ++ [c]) (c.settle l) := by
  constructor <;> rw [lastSet_snoc]
  · rw [← h.visible]; rfl
  · rw [← h.bounds]; rfl
  · rw [← h.enabled]; rfl
  · rw [← h.url]; rfl
  · rw [← h.zoom]; rfl

theorem Command.Idle.settle {c : Command} (h : c.Idle) (l : Look) : c.settle l = l := by
  obtain ⟨h₁, h₂, h₃, h₄, h₅, -⟩ := h
  simp [Command.settle, Command.look, h₁, h₂, h₃, h₄, h₅]

theorem Command.idle_of_checkCefWindow {c : Command} (h : c.cmd = lit "CheckCefWindow") : c.Idle := by
  refine ⟨?_, ?_, ?_, ?_, ?_, ?_⟩ <;>
    simp +decide [Command.shows, Command.moves, Command.enables, Command.loads, Command.zooms, h]

theorem checkCefWindow_fst (c : Command) (s : Client) :
    (checkCefWindow c s).1.window = s.window ∧ (checkCefWindow c s).1.zooms = s.zooms := by
  unfold checkCefWindow
  generalize hread : s.withInstance c.cefclientConfigFilename c.pid (readJsonValue c.key false) = out
  have hw : out.1.window = s.window ∧ out.1.zooms = s.zooms := by
    rw [← hread]; exact ⟨rfl, rfl⟩
  obtain ⟨s', _ | b⟩ := out
  · exact hw
  · cases b <;> exact hw

section
variable {input : Json} {c : Command} {s : Client}

/-- The task of a command that is heard, by the way the handler takes: it does nothing, or what the
command says on a window with a browser. -/
theorem handleCustomTask_heard (hdec : Decodes input c) (hw : s.window.Inv)
    (hpage : s.window.page ≠ .closed) (hidle : s.hasBrowser = true ∨ c.Idle)
    (hstore : c.cmd = lit "CheckCefWindow" → s.hasBrowser = true →
      s.StoreUsable c.cefclientConfigFilename c.pid) :
    ∃ s', handleCustomTask input s = (s', .ok ()) ∧
      ((c.Idle ∧ s'.window = s.window ∧ s'.zooms = s.zooms) ∨ s' = s.carried c) := by
  have hfreed : s.window.freed = false := by
    rw [hw.freed, decide_eq_false_iff_not]; exact fun h => hpage h.2
  have hget : RootWindowWin.getBrowser.run s.window = (s.hasBrowser, s.window) :=
    RootWindowWin.member_run _ hfreed
  have hok := handleCustomTask_ok_iff.2 ⟨c, hdec, hstore⟩
  refine ⟨(handleCustomTask input s).1, Prod.ext rfl hok, ?_⟩
  simp only [handleCustomTask, readCommand_eq_ok_iff.2 hdec, hget]
  by_cases hcmd : c.cmd = lit "CheckCefWindow"
  · rw [if_pos hcmd]
    refine .inl ⟨Command.idle_of_checkCefWindow hcmd, ?_⟩
    split
    · exact checkCefWindow_fst c s
    · exact ⟨rfl, rfl⟩
  · rw [if_neg hcmd]
    cases hb : s.hasBrowser with
    | true => exact .inr rfl
    | false => exact .inl ⟨hidle.resolve_left (by simp [hb]), rfl, rfl⟩

end

namespace CommandSys

/-- The window after the commands in `done`: gone if one of them was Quit, otherwise with the look
they ask for. -/
structure Inv (old : Look) (done : List Command) (s : CommandSys) : Prop where
  crashed : s.crashed = false
  tasks : ∀ input, .handleCustomTask input ∈ s.mainQueue → ∃ c, Decodes input c
  window : s.client.window.Inv
  page : s.client.window.page ≠ .closed
  gone : (∃ c ∈ done, c.cmd = lit "Quit") → s.client.window.native = .gone
  seen : (∀ c ∈ done, c.cmd ≠ lit "Quit") →
    s.client.window.native = .alive ∧ Seen old done s.client.settled

/-- The commands that are still waiting. -/
def pending (s : CommandSys) : List Command := s.mainQueue.filterMap ClientTask.command

/-! #### One command -/

section
variable {old : Look} {done : List Command} {s : CommandSys} {c : Command} {q : List ClientTask}

theorem Inv.freed (h : s.Inv old done) : s.client.window.freed = false := by
  rw [h.window.freed, decide_eq_false_iff_not]
  exact fun hc => h.page hc.2

theorem Inv.rest (h : s.Inv old done) (hq : ∀ t ∈ q, t ∈ s.mainQueue) (input : Json)
    (hi : .handleCustomTask input ∈ q) : ∃ c, Decodes input c :=
  h.tasks input (hq _ hi)

theorem Inv.task_idle {s' : Client} (h : s.Inv old done) (hq : ∀ t ∈ q, t ∈ s.mainQueue)
    (hidle : c.Idle) (hwin : s'.window = s.client.window) (hzooms : s'.zooms = s.client.zooms) :
    Inv old (done ++ [c]) { s with client := s', mainQueue := q } := by
  have hsettled : s'.settled = c.settle s.client.settled := by
    rw [hidle.settle, Client.settled, hwin, hzooms]; rfl
  refine ⟨h.crashed, h.rest hq, hwin ▸ h.window, hwin ▸ h.page, ?_, fun hd => ?_⟩
  · rintro ⟨d, hmem, hd⟩
    rcases List.mem_append.1 hmem with hmem | hmem
    · rw [hwin]; exact h.gone ⟨d, hmem, hd⟩
    · cases List.mem_singleton.1 hmem; exact absurd hd hidle.2.2.2.2.2
  · obtain ⟨halive, hseen⟩ := h.seen fun d hmem => hd d (List.mem_append_left _ hmem)
    refine ⟨by rw [hwin]; exact halive, ?_⟩
    show Seen old (done ++ [c]) s'.settled
    rw [hsettled]
    exact hseen.snoc c

/-- A command at a window that a Quit has closed. -/
theorem Inv.task_gone (h : s.Inv old done) (hq : ∀ t ∈ q, t ∈ s.mainQueue)
    (hquit : ∃ d ∈ done, d.cmd = lit "Quit") :
    Inv old (done ++ [c]) { s with client := s.client.carried c, mainQueue := q } := by
  have hgone := h.gone hquit
  have hh : s.client.window.hwnd = false := by simpa [hgone] using h.window.hwnd
  obtain ⟨l, hl⟩ := carryOut_run_gone c h.freed hh
  refine ⟨h.crashed, h.rest hq, ?_, ?_, fun _ => ?_, fun hd => ?_⟩
  · show RootWindowWin.Inv ((carryOut c).run s.client.window).2
    rw [hl]; exact h.window.look l
  · show ((carryOut c).run s.client.window).2.page ≠ _
    rw [hl]; exact h.page
  · show ((carryOut c).run s.client.window).2.native = _
    rw [hl]; exact hgone
  · obtain ⟨d, hmem, hc⟩ := hquit
    exact absurd hc (hd d (List.mem_append_left _ hmem))

theorem Inv.task_quit (h : s.Inv old done) (hq : ∀ t ∈ q, t ∈ s.mainQueue)
    (hno : ∀ d ∈ done, d.cmd ≠ lit "Quit") (hc : c.cmd = lit "Quit") :
    Inv old (done ++ [c]) { s with client := s.client.carried c, mainQueue := q } := by
  have halive := (h.seen hno).1
  have hh : s.client.window.hwnd = true := h.window.hwnd.2 (.inl halive)
  unfold Client.carried
  rw [carryOut_run_quit h.freed hh halive hc]
  refine ⟨h.crashed, h.rest hq, h.window.ncDestroy (.inl halive), ?_, fun _ => ?_,
    fun hd => absurd hc (hd c (by simp))⟩
  · show (RootWindowWin.ncDestroy.run s.client.window).2.page ≠ _
    rw [RootWindowWin.ncDestroy_run h.freed]
    split <;> exact h.page
  · show (RootWindowWin.ncDestroy.run s.client.window).2.native = _
    rw [RootWindowWin.ncDestroy_run h.freed]
    split <;> rfl

/-- A command that changes the looks of an open window. -/
theorem Inv.task_look (h : s.Inv old done) (hq : ∀ t ∈ q, t ∈ s.mainQueue)
    (hno : ∀ d ∈ done, d.cmd ≠ lit "Quit") (hc : c.cmd ≠ lit "Quit") :
    Inv old (done ++ [c]) { s with client := s.client.carried c, mainQueue := q } := by
  obtain ⟨halive, hseen⟩ := h.seen hno
  have hh : s.client.window.hwnd = true := h.window.hwnd.2 (.inl halive)
  unfold Client.carried
  rw [carryOut_run h.freed hh hc]
  refine ⟨h.crashed, h.rest hq, h.window.look _, h.page, ?_, fun _ => ⟨halive, ?_⟩⟩
  · rintro ⟨d, hmem, hd⟩
    rcases List.mem_append.1 hmem with hmem | hmem
    · exact absurd hd (hno d hmem)
    · cases List.mem_singleton.1 hmem; exact absurd hd hc
  · have hsettled : ({ s.client with
        window := { s.client.window with look := c.look s.client.window.look }
        zooms := s.client.zooms ++ c.zooms.toList } : Client).settled =
        c.settle s.client.settled := by
      cases hz : c.zooms <;> simp [Client.settled, Command.settle, Command.look, hz]
    show Seen old (done ++ [c]) (Client.settled _)
    rw [hsettled]
    exact hseen.snoc c

theorem Inv.task {s' : Client} (h : s.Inv old done) (hq : ∀ t ∈ q, t ∈ s.mainQueue)
    (hs' : (c.Idle ∧ s'.window = s.client.window ∧ s'.zooms = s.client.zooms) ∨
      s' = s.client.carried c) :
    Inv old (done ++ [c]) { s with client := s', mainQueue := q } := by
  rcases hs' with ⟨hidle, hwin, hzooms⟩ | rfl
  · exact h.task_idle hq hidle hwin hzooms
  · by_cases hquit : ∃ d ∈ done, d.cmd = lit "Quit"
    · exact h.task_gone hq hquit
    · have hno : ∀ d ∈ done, d.cmd ≠ lit "Quit" := fun d hmem hc => hquit ⟨d, hmem, hc⟩
      by_cases hc : c.cmd = lit "Quit"
      · exact h.task_quit hq hno hc
      · exact h.task_look hq hno hc

end

/-! #### A step -/

/-- The news of the browser, at a window that has its native window or has had it. -/
theorem step_browserCreated {w w' : RootWindowWin} (h : w.Inv) (hn : w.native ≠ .none)
    (hs : w.step .browserCreated = some w') : w' = { w with browser := true, page := .open } := by
  simp only [RootWindowWin.step, Option.ite_none_right_eq_some, Option.some.injEq] at hs
  obtain ⟨hpage, rfl⟩ := hs
  have hp : w.isPopup = false := by
    by_contra hp
    exact hn (h.popup (by simpa using hp) hpage)
  have hfreed : ({ w with page := .open } : RootWindowWin).freed = false := by
    rw [RootWindowWin.freed, h.notified]
    simp [hpage]
  rw [RootWindowWin.onBrowserCreated_run hfreed, if_neg (by simp [hp])]

/-- A task that is posted. -/
theorem Inv.tasks_append {old : Look} {done : List Command} {s : CommandSys} {t : ClientTask}
    (h : s.Inv old done) (ht : ∀ input, .handleCustomTask input = t → ∃ c, Decodes input c) (input : Json)
    (hmem : .handleCustomTask input ∈ s.mainQueue ++ [t]) : ∃ c, Decodes input c := by
  rcases List.mem_append.1 hmem with hmem | hmem
  · exact h.tasks input hmem
  · exact ht input (List.mem_singleton.1 hmem)

theorem Inv.step {parse : Bytes → Option Json} {old : Look} {done : List Command} {s s' : CommandSys}
    {e : CommandEvent} (h : s.Inv old done) (hc : s.Heard parse e)
    (hs : s.step parse e = some s') :
    ∃ done', done ++ s.pending ++ (e.command parse).toList = done' ++ s'.pending ∧ s'.Inv old done' := by
  have hnative : s.client.window.native ≠ .none := by
    by_cases hquit : ∃ d ∈ done, d.cmd = lit "Quit"
    · rw [h.gone hquit]; nofun
    · rw [(h.seen fun d hmem hd => hquit ⟨d, hmem, hd⟩).1]; nofun
  unfold CommandSys.step at hs
  rw [if_neg (by simp [h.crashed])] at hs
  cases e with
  | copyData lpData =>
    obtain ⟨input, c, hp, hdec⟩ := hc
    simp only [handleCustomMsg_eq_some_iff.2 ⟨hp, _, hdec.cmd⟩] at hs
    cases hs
    refine ⟨done, ?_, h.crashed, h.tasks_append ?_, h.window, h.page, h.gone, h.seen⟩
    · simp [pending, ClientTask.command, CommandEvent.command, hp, hdec.toOption]
    · rintro i ⟨⟩
      exact ⟨c, hdec⟩
  | browserCreated =>
    simp only [Option.ite_none_right_eq_some] at hs
    obtain ⟨-, hs⟩ := hs
    cases hs
    refine ⟨done, ?_, h.crashed, h.tasks_append nofun, h.window, h.page, h.gone, h.seen⟩
    simp [pending, ClientTask.command, CommandEvent.command]
  | runMain =>
    have hcmd : (CommandEvent.runMain.command parse).toList = [] := rfl
    rw [hcmd, List.append_nil]
    cases hq : s.mainQueue with
    | nil => rw [hq] at hs; cases hs
    | cons t q =>
      have hmem : ∀ t' ∈ q, t' ∈ s.mainQueue := fun t' ht => by rw [hq]; exact .tail _ ht
      rw [hq] at hs
      cases t with
      | notifyBrowserCreated =>
        obtain ⟨w, hw, rfl⟩ := Option.map_eq_some_iff.1 hs
        have hwin := h.window.step hw
        have hw' := step_browserCreated h.window hnative hw
        subst hw'
        refine ⟨done, ?_, h.crashed, fun i hi => h.tasks i (hmem _ hi), hwin, nofun, h.gone, h.seen⟩
        simp [pending, hq, List.filterMap_cons, ClientTask.command]
      | handleCustomTask input =>
        obtain ⟨c, hdec⟩ := h.tasks input (by rw [hq]; exact .head _)
        obtain ⟨hidle, hstore⟩ := hc input q hq c hdec
        obtain ⟨s'', htask, hs''⟩ := handleCustomTask_heard hdec h.window h.page hidle hstore
        simp only [htask] at hs
        cases hs
        refine ⟨done ++ [c], ?_, h.task hmem hs''⟩
        simp [pending, hq, ClientTask.command, hdec.toOption]
  | runUi =>
    cases hz : s.client.zooms with
    | nil => rw [hz] at hs; cases hs
    | cons zoom zooms =>
      rw [hz] at hs
      cases hs
      refine ⟨done, ?_, h.crashed, h.tasks, h.window.look _, h.page, h.gone, fun hd => ?_⟩
      · simp [pending, CommandEvent.command]
      · have hsettled : ({ s.client with
            window := { s.client.window with look := { s.client.window.look with zoom } }
            zooms } : Client).settled = s.client.settled := by
          simp [Client.settled, hz, List.getLast?_cons]
        obtain ⟨halive, hseen⟩ := h.seen hd
        refine ⟨halive, ?_⟩
        show Seen old done (Client.settled _)
        rw [hsettled]
        exact hseen

/-- A live root window: its native window is there, its browser being created or open. -/
structure Live (s : CommandSys) : Prop where
  window : s.client.window.Inv
  native : s.client.window.native = .alive
  mainQueue : s.mainQueue = []
  zooms : s.client.zooms = []
  crashed : s.crashed = false

theorem Live.inv {s : CommandSys} (h : s.Live) : s.Inv s.client.window.look [] where
  crashed := h.crashed
  tasks := by rw [h.mainQueue]; nofun
  window := h.window
  page hc := by
    have := h.window.alive h.native
    simp [hc] at this
  gone := by rintro ⟨d, hd, -⟩; cases hd
  seen _ := by
    refine ⟨h.native, ?_⟩
    rw [Client.settled, h.zooms]
    exact ⟨rfl, rfl, rfl, rfl, rfl⟩

theorem Inv.run {parse : Bytes → Option Json} {old : Look} {s t : CommandSys}
    {es : List CommandEvent} (hrun : Lts.Run (CommandSys.step parse) (Heard parse) s es t) :
    ∀ {done : List Command}, s.Inv old done → ∃ done',
      done ++ s.pending ++ es.filterMap (·.command parse) = done' ++ t.pending ∧ t.Inv old done' := by
  induction hrun with
  | nil s => exact fun {done} h => ⟨done, by simp, h⟩
  | @cons s s' t e es hc hs _ ih =>
    intro done h
    obtain ⟨done', heq, h'⟩ := h.step hc hs
    obtain ⟨done'', heq', h''⟩ := ih h'
    refine ⟨done'', ?_, h''⟩
    rw [← heq', ← heq]
    cases hcmd : e.command parse <;> simp [hcmd]

/-- If every message is a well-formed command whose task is heard, then once all tasks have run
nothing has been thrown, the window is gone if there was a Quit, and otherwise each attribute is as
the last command that sets it has it. -/
theorem commands_carried_out {parse : Bytes → Option Json} {s t : CommandSys}
    {es : List CommandEvent} (hlive : s.Live)
    (hrun : Lts.Run (CommandSys.step parse) (Heard parse) s es t) (hmain : t.mainQueue = [])
    (hui : t.client.zooms = []) :
    let cs := es.filterMap (·.command parse)
    t.crashed = false ∧ ((∃ c ∈ cs, c.cmd = lit "Quit") → t.client.window.native = .gone) ∧
      ((∀ c ∈ cs, c.cmd ≠ lit "Quit") → t.client.window.native = .alive ∧
        Seen s.client.window.look cs t.client.window.look) := by
  obtain ⟨done, heq, h⟩ := Inv.run hrun hlive.inv
  have hcs : es.filterMap (·.command parse) = done := by
    simpa [pending, hlive.mainQueue, hmain] using heq
  have hsettled : t.client.settled = t.client.window.look := by rw [Client.settled, hui]; rfl
  rw [hcs]
  exact ⟨h.crashed, h.gone, fun hd => hsettled ▸ h.seen hd⟩

section
variable {parse : Bytes → Option Json} {s : CommandSys}

theorem step_copyData {lpData : Bytes} {input : Json} (hc : s.crashed = false)
    (h : handleCustomMsg parse lpData = some input) : s.step parse (.copyData lpData) =
      some { s with mainQueue := s.mainQueue ++ [.handleCustomTask input] } := by
  unfold CommandSys.step
  rw [if_neg (by simp [hc])]
  simp only [h]

theorem step_runMain {input : Json} {q : List ClientTask} {client : Client} (hc : s.crashed = false)
    (hq : s.mainQueue = .handleCustomTask input :: q)
    (h : handleCustomTask input s.client = (client, .ok ())) :
    s.step parse .runMain = some { s with client, mainQueue := q } := by
  unfold CommandSys.step
  rw [if_neg (by simp [hc])]
  simp only [hq, h]

end

/-- An open window is sent a Quit. -/
theorem commands_carried_out_quit :
    let p : BrowserParams := { cmd := lit "Quit", id := lit "main" }
    let dumpFloat : Double → Bytes := fun _ => lit "0.0"
    ∃ w text t, Lts.exec RootWindowWin.step (.init false false) [.createRootWindow, .browserCreated] =
        some w ∧ p.toJson.dump dumpFloat = some text ∧
      Lts.exec (CommandSys.step parseText) { client := { window := w, files := fun _ => none } }
        [.copyData (text ++ [0]), .runMain] = some t ∧
      t.crashed = false ∧ t.client.window.native = .gone := by
  intro p dumpFloat
  obtain ⟨text, hdump, hmsg⟩ := BrowserParams.exists_quit_message
  have hp : parseText (cString (text ++ [0])) = some p.toJson.parsed :=
    (handleCustomMsg_eq_some_iff.1 hmsg).1
  have hdec : Decodes p.toJson.parsed p.command := BrowserParams.decodes_toJson (by decide)
  obtain ⟨w, hw⟩ : ∃ w, Lts.exec RootWindowWin.step (.init false false)
      [.createRootWindow, .browserCreated] = some w := ⟨_, rfl⟩
  have hinv : w.Inv := (Lts.run_of_exec hw).inv (fun _ _ _ h _ hs => h.step hs) (.init false false)
  let client : Client := { window := w, files := fun _ => none }
  let client' : Client := { client with window := (RootWindowWin.ncDestroy.run w).2 }
  have htask : handleCustomTask p.toJson.parsed client = (client', .ok ()) := by
    cases hw
    rw [handleCustomTask, readCommand_eq_ok_iff.2 hdec]
    rfl
  let s : CommandSys := { client }
  let s₁ : CommandSys := { client, mainQueue := [.handleCustomTask p.toJson.parsed] }
  let t : CommandSys := { client := client' }
  have hs : s.step parseText (.copyData (text ++ [0])) = some s₁ := step_copyData rfl hmsg
  have hs₁ : s₁.step parseText .runMain = some t := step_runMain rfl rfl htask
  have hheard₁ : s₁.Heard parseText .runMain := by
    rintro input q ⟨⟩ c hc
    rw [hc.unique hdec]
    refine ⟨.inl ?_, fun h => absurd h (by decide)⟩
    cases hw
    rfl
  have hheard : s.Heard parseText (.copyData (text ++ [0])) := ⟨_, _, hp, hdec⟩
  have hlive : s.Live := ⟨hinv, by cases hw; rfl, rfl, rfl, rfl⟩
  have h := commands_carried_out hlive (.cons hheard hs (.cons hheard₁ hs₁ (.nil t))) rfl rfl
  refine ⟨w, text, t, hw, hdump, ?_, h.1, h.2.1 ⟨p.command, ?_, rfl⟩⟩
  · rw [Lts.exec_cons hs, Lts.exec_cons hs₁]
    rfl
  rw [List.mem_filterMap]
  refine ⟨_, .head _, ?_⟩
  rw [CommandEvent.command, hp, Option.bind_some, readCommand_eq_ok_iff.2 hdec]
  rfl

/-- A Quit that is run before the browser is there is forgotten. -/
theorem quit_forgotten :
    let p : BrowserParams := { cmd := lit "Quit", id := lit "main" }
    let dumpFloat : Double → Bytes := fun _ => lit "0.0"
    ∃ w text t, Lts.exec RootWindowWin.step (.init false false) [.createRootWindow] = some w ∧
      p.toJson.dump dumpFloat = some text ∧
      Lts.exec (CommandSys.step parseText) { client := { window := w, files := fun _ => none } }
        [.copyData (text ++ [0]), .runMain, .browserCreated, .runMain] = some t ∧
      t.mainQueue = [] ∧ t.client.window.page = .open ∧ t.client.window.native = .alive := by
  intro p dumpFloat
  obtain ⟨text, hdump, hmsg⟩ := BrowserParams.exists_quit_message
  have hp : parseText (cString (text ++ [0])) = some p.toJson.parsed :=
    (handleCustomMsg_eq_some_iff.1 hmsg).1
  have hdec : Decodes p.toJson.parsed p.command := BrowserParams.decodes_toJson (by decide)
  obtain ⟨w, hw⟩ : ∃ w, Lts.exec RootWindowWin.step (.init false false) [.createRootWindow] =
      some w := ⟨_, rfl⟩
  let client : Client := { window := w, files := fun _ => none }
  have htask : handleCustomTask p.toJson.parsed client = (client, .ok ()) := by
    cases hw
    rw [handleCustomTask, readCommand_eq_ok_iff.2 hdec]
    rfl
  let s : CommandSys := { client }
  let s₁ : CommandSys := { client, mainQueue := [.handleCustomTask p.toJson.parsed] }
  have hs : s.step parseText (.copyData (text ++ [0])) = some s₁ := step_copyData rfl hmsg
  have hs₁ : s₁.step parseText .runMain = some s := step_runMain rfl rfl htask
  let t : CommandSys :=
    { client := { client with window := { w with page := .open, browser := true } }, announced := true }
  refine ⟨w, text, t, hw, hdump, ?_, ?_⟩
  · rw [Lts.exec_cons hs, Lts.exec_cons hs₁]
    cases hw
    rfl
  · cases hw
    exact ⟨rfl, rfl, rfl⟩

end CommandSys

end NplBrowser
