import NplBrowser.ManagerRun

/-!
# The end of the process

The manager asks for the end of the message loop when the last registered window is destroyed, and
does not know of a window whose registration is still in the queue. That is safe as long as every
queued registration comes with a registered window that outlives it (`Covered`): the window that
opened a popup does, and so does any window whose browser is open when another one is created.
-/

namespace NplBrowser

open Fifo

namespace Cefclient

variable {s s' t : Cefclient} {e : Event} {w : Nat} {win : RootWindowWin} {u : Page}
  {P Q l q : List MainTask} {task : MainTask}

/-- The end of the message loop has been asked for. -/
def Cleaning (s : Cefclient) : Prop :=
  .cleanupOnUIThread ∈ s.uiQueue ∨ .postQuitMessage ∈ s.mainQueue ∨ s.quit = true

/-- If a browser is closed by the time `P` has been run, then that of a registered window is not. -/
def Covered (s : Cefclient) (P : List MainTask) : Prop :=
  (∃ v, s.Closes P v) → ∃ v, (v ∈ s.rootWindows ∨ .onRootWindowCreated v ∈ P) ∧ ¬ s.Closes P v

structure Safe (s : Cefclient) : Prop where
  pending : ∀ w P, Ahead s.mainQueue (.onRootWindowCreated w) P → s.Covered P
  cleanup : s.Cleaning → 0 < s.created ∧ ∀ w, w < s.created → (s.window w).freed = true

theorem Safe.not_cleaning (hs : s.Safe) (hw : w < s.created) (hf : (s.window w).freed = false) :
    ¬ s.Cleaning := by
  intro hc
  rw [(hs.cleanup hc).2 w hw] at hf
  cases hf

theorem Same.cleaning (hs : s.Same s') (hc : s'.Cleaning) : s.Cleaning := by
  unfold Cleaning at hc
  rwa [hs.cleanup, hs.mainQueue, hs.quit] at hc

theorem Safe.same (h : s.Safe) (hs : s.Same s') : s'.Safe where
  pending w P hahead := by
    rintro ⟨v, hv⟩
    obtain ⟨a, ha, hopen⟩ := h.pending w P (hs.mainQueue ▸ hahead) ⟨v, hs.closes_iff.1 hv⟩
    exact ⟨a, hs.rootWindows ▸ ha, fun hc => hopen (hs.closes_iff.1 hc)⟩
  cleanup hc := by
    obtain ⟨hpos, hfreed⟩ := h.cleanup (hs.cleaning hc)
    rw [hs.created]
    exact ⟨hpos, fun w hw => (hs.freed_eq w).trans (hfreed w hw)⟩

/-! ### Code of a window -/

theorem mem_rootWindows_acted {x : Nat} : x ∈ (s.acted q w win u).rootWindows ↔
    x ∈ s.rootWindows ∧ ¬ (x = w ∧ win.freed = true ∧ (s.window w).freed = false) :=
  mem_rootWindows_setWindow

/-- Only the destruction of the last registered window asks for the end. -/
theorem cleaning_acted (hq : q ⊆ s.mainQueue) (hc : (s.acted q w win u).Cleaning) :
    s.Cleaning ∨ (s.acted q w win u).rootWindows = [] ∧ win.freed = true := by
  have hquit : (s.acted q w win u).quit = s.quit := quit_setWindow
  rcases hc with hc | hc | hc
  · unfold acted setWindow at hc ⊢
    split at hc
    · rename_i hif
      rw [if_pos hif]
      unfold onRootWindowDestroyed at hc ⊢
      dsimp only at hc ⊢
      split at hc
      · rename_i hempty
        rw [Bool.and_eq_true] at hif
        exact .inr ⟨hempty.2, hif.1⟩
      · exact .inl (.inl hc)
    · exact .inl (.inl hc)
  · rw [mainQueue_acted] at hc
    exact .inl (.inr (.inl (hq hc)))
  · rw [hquit] at hc
    exact .inl (.inr (.inr hc))

theorem Safe.pending_acted (hs : s.Safe) (ha : s.Acts l q w win u) {v : Nat}
    (hahead : Ahead q (.onRootWindowCreated v) P) : (s.acted q w win u).Covered P := by
  rintro ⟨x, hx⟩
  obtain ⟨a, hmem, hopen⟩ := hs.pending v (l ++ P) (ha.queue ▸ hahead.append_left l)
    ⟨x, (ha.closes_iff x).1 hx⟩
  have hopen' : ¬ (s.acted q w win u).Closes P a := fun hc => hopen ((ha.closes_iff a).1 hc)
  refine ⟨a, hmem.imp (fun hroot => ?_) (fun hqueue => ?_), hopen'⟩
  · refine mem_rootWindows_acted.2 ⟨hroot, ?_⟩
    rintro ⟨rfl, hf, -⟩
    refine hopen' (.inl ?_)
    rw [window_acted, Function.update_self]
    exact ha.inv.page_of_freed hf
  · exact (List.mem_append.1 hqueue).resolve_left (ha.registration a)

theorem Safe.acted (hs : s.Safe) (h : s.Inv) (ha : s.Acts l q w win u) : (s.acted q w win u).Safe where
  pending v P hahead := by
    rw [mainQueue_acted] at hahead
    exact hs.pending_acted ha hahead
  cleanup hc := by
    have hq : q ⊆ s.mainQueue := by
      rw [ha.queue]
      exact List.subset_append_right l q
    rw [created_acted]
    rcases cleaning_acted hq hc with hc | ⟨hempty, hf⟩
    · obtain ⟨hpos, hfreed⟩ := hs.cleanup hc
      refine ⟨hpos, fun x hx => ?_⟩
      rw [window_acted]
      by_cases hxw : x = w
      · subst hxw
        rw [Function.update_self]
        exact ha.freed (hfreed x hx)
      · rw [Function.update_of_ne hxw]
        exact hfreed x hx
    · -- a registration under way would come with a registered window that is open
      have hnone : ∀ x, .onRootWindowCreated x ∉ q := by
        intro x hx
        obtain ⟨task, P, hahead, ⟨v, rfl⟩, hfirst⟩ :=
          exists_first (p := fun task => ∃ v, task = .onRootWindowCreated v) ⟨_, hx, x, rfl⟩
        have hcloses : (s.acted q w win u).Closes P w := by
          left
          rw [window_acted, Function.update_self]
          exact ha.inv.page_of_freed hf
        obtain ⟨a, hmem | hmem, -⟩ := hs.pending_acted ha hahead ⟨w, hcloses⟩
        · rw [hempty] at hmem
          cases hmem
        · exact hfirst _ hmem ⟨a, rfl⟩
      refine ⟨Nat.zero_lt_of_lt ha.created, fun x hx => ?_⟩
      rcases (h.acted ha).placed x (by rwa [created_acted]) with hmem | hmem | hmem
      · rw [hempty] at hmem
        cases hmem
      · rw [mainQueue_acted] at hmem
        exact absurd hmem (hnone x)
      · exact hmem

/-! ### The queue -/

theorem Safe.post (hs : s.Safe) {page : Nat → Page} {uiQueue : List UiTask}
    (htask : ∀ w, task ≠ .onRootWindowCreated w)
    (hc : ({ s with page, uiQueue, mainQueue := s.mainQueue ++ [task] } : Cefclient).Cleaning →
      s.Cleaning) :
    ({ s with page, uiQueue, mainQueue := s.mainQueue ++ [task] } : Cefclient).Safe where
  pending w P hahead := by
    rcases ahead_append_singleton hahead with hold | ⟨-, hnew⟩
    exacts [hs.pending w P hold, absurd hnew.symm (htask w)]
  cleanup hcleaning := hs.cleanup (hc hcleaning)

theorem Safe.took (hs : s.Safe) {quit : Bool} {r : List Nat} (hq : s.mainQueue = task :: q)
    (htask : ∀ w, task.notice w = none)
    (hr : ∀ w, w ∈ r ↔ w ∈ s.rootWindows ∨ task = .onRootWindowCreated w)
    (hc : quit = true → s.quit = true ∨ task = .postQuitMessage) :
    ({ s with mainQueue := q, rootWindows := r, quit } : Cefclient).Safe where
  pending w P hahead := by
    have hcloses : ∀ v, s.Closes (task :: P) v → s.Closes P v := by
      rintro v (hpage | hmem)
      · exact .inl hpage
      · rcases List.mem_cons.1 hmem with rfl | hmem
        · have := htask v
          simp [MainTask.notice] at this
        · exact .inr hmem
    rintro ⟨v, hv⟩
    obtain ⟨a, hmem, hopen⟩ := hs.pending w (task :: P) (hq ▸ hahead.cons task)
      ⟨v, hv.imp_right (.tail _)⟩
    refine ⟨a, ?_, fun hc => hopen (hc.imp_right (.tail _))⟩
    rcases hmem with hmem | hmem
    · exact .inl ((hr a).2 (.inl hmem))
    · rcases List.mem_cons.1 hmem with hmem | hmem
      · exact .inl ((hr a).2 (.inr hmem.symm))
      · exact .inr hmem
  cleanup hcleaning := by
    refine hs.cleanup ?_
    rcases hcleaning with hui | hmain | hquit
    · exact .inl hui
    · exact .inr (.inl (hq ▸ .tail _ hmain))
    · rcases hc hquit with hquit | rfl
      · exact .inr (.inr hquit)
      · exact .inr (.inl (hq ▸ .head _))

/-! ### New windows -/

/-- While a window's browser is open, the end has not been asked for. -/
theorem Safe.not_cleaning_of_open (hs : s.Safe) (h : s.Inv)
    (hopen : s.created = 0 ∨ ∃ v, v < s.created ∧ s.page v ≠ .closed) : ¬ s.Cleaning := by
  intro hc
  obtain ⟨hpos, hfreed⟩ := hs.cleanup hc
  rcases hopen with hzero | ⟨v, hv, hopen⟩
  · omega
  · exact hopen (h.closes (.inl ((h.window v).page_of_freed (hfreed v hv))))

section created'
variable {r : List Nat} {extension : Option Bytes}

theorem Creates.cleaning (hc : s.Creates win l r) (hclean : (s.created' win extension l r).Cleaning) :
    s.Cleaning := by
  rcases hclean with hui | hmain | hquit
  · exact .inl hui
  · rcases List.mem_append.1 hmain with hmain | hmain
    · exact .inr (.inl hmain)
    · obtain ⟨P, hahead⟩ := exists_ahead hmain
      rcases hc.tasks _ P hahead with htask | ⟨htask, -⟩ <;> cases htask
  · exact .inr (.inr hquit)

/-- A queued registration is covered as before. -/
theorem Creates.covered (h : s.Inv) (hc : s.Creates win l r) (hP : P ⊆ s.mainQueue)
    (hcov : s.Covered P) : (s.created' win extension l r).Covered P := by
  have hnew : ¬ (s.created' win extension l r).Closes P s.created := by
    intro hcloses
    refine hc.not_closes h (Q := []) (by simp) (hcloses.imp_right fun hmem => ?_)
    rw [List.append_nil]
    exact hP hmem
  rintro ⟨v, hv⟩
  have hne : v ≠ s.created := by
    rintro rfl
    exact hnew hv
  obtain ⟨a, hmem, hopen⟩ := hcov ⟨v, (closes_created' hne).1 hv⟩
  refine ⟨a, hmem.imp_left (hc.root a), fun hcloses => ?_⟩
  by_cases hac : a = s.created
  · subst hac
    exact hnew hcloses
  · exact hopen ((closes_created' hac).1 hcloses)

/-- The registration of the new window is covered by one whose browser is open. -/
theorem Creates.covered_new (h : s.Inv) (hc : s.Creates win l r) (hP : P ⊆ l)
    (hopen : s.created = 0 ∨ ∃ v, v < s.created ∧ s.page v ≠ .closed) :
    (s.created' win extension l r).Covered (s.mainQueue ++ P) := by
  have hold : ∀ v, v ≠ s.created → (s.created' win extension l r).Closes (s.mainQueue ++ P) v →
      s.page v = .closed := by
    intro v hv hcloses
    refine h.closes (((closes_created' hv).1 hcloses).imp_right fun hmem => ?_)
    refine (List.mem_append.1 hmem).resolve_right fun hmem => ?_
    have := closed_mem_news.2 (hP hmem)
    rw [hc.news] at this
    cases this
  rintro ⟨v, hv⟩
  have hne : v ≠ s.created := by
    rintro rfl
    exact hc.not_closes h hP hv
  have hlt : v < s.created := h.lt_created (.inr (.inr (by simp [hold v hne hv])))
  rcases hopen with hzero | ⟨a, ha, hopen⟩
  · omega
  · refine ⟨a, ?_, fun hcloses => hopen (hold a (by omega) hcloses)⟩
    rcases h.placed a ha with hmem | hmem | hmem
    · exact .inl (hc.root a hmem)
    · exact .inr (List.mem_append_left P hmem)
    · exact absurd (h.closes (.inl ((h.window a).page_of_freed hmem))) hopen

theorem Safe.created' (hs : s.Safe) (h : s.Inv) (hc : s.Creates win l r) (hclean : ¬ s.Cleaning)
    (hopen : l = [] ∨ s.created = 0 ∨ ∃ v, v < s.created ∧ s.page v ≠ .closed) :
    (s.created' win extension l r).Safe where
  pending w P hahead := by
    rcases ahead_append hahead with hold | ⟨P', rfl, hnew⟩
    · refine hc.covered h ?_ (hs.pending w P hold)
      obtain ⟨S, hS⟩ := hold
      rw [hS]
      exact List.subset_append_left P _
    · rcases hopen with rfl | hopen
      · exact absurd hnew not_ahead_nil
      · exact hc.covered_new h hnew.subset hopen
  cleanup hcleaning := absurd (hc.cleaning hcleaning) hclean

end created'

/-! ### A step -/

/-- A window is created on the main thread before the end has been asked for, and on the UI thread
while no other window is there or the browser of one is not reported closed. -/
def MayCreate (s : Cefclient) : Event → Prop
  | .mainCreate _ | .createExtensionWindow _ => ¬ s.Cleaning
  | .uiCreate _ => s.created = 0 ∨ ∃ w, w < s.created ∧ s.page w ≠ .closed
  | _ => True

theorem Safe.created (hs : s.Safe) (h : s.Inv) (extension : Option Bytes) (hclean : ¬ s.Cleaning) :
    ((s.init extension).insert s.created).Safe := by
  rw [init_insert]
  exact hs.created' h (s.creates_init extension) hclean (.inl rfl)

theorem Safe.move (hs : s.Safe) (h : s.Inv) (hC : s.MayCreate e) (hm : s.Move e t) : t.Safe := by
  cases hm with
  | same hsame => exact hs.same hsame
  | acted ha => exact hs.acted h ha
  | created extension he =>
    refine hs.created h extension ?_
    rcases he with rfl | ⟨x, rfl⟩ <;> exact hC
  | posted extension he hc =>
    have hopen : s.created = 0 ∨ ∃ v, v < s.created ∧ s.page v ≠ .closed := by
      rcases he with rfl | ⟨v, hv⟩
      · exact hC
      · exact .inr ⟨v, h.lt_created (.inr (.inr (by simp [hv]))), by simp [hv]⟩
    exact hs.created' h hc (hs.not_cleaning_of_open h hopen) (.inr hopen)
  | @registered w q hq =>
    refine hs.took hq (fun _ => rfl) (fun x => ?_) .inl
    show x ∈ (s.insert w).rootWindows ↔ _
    rw [mem_insert, or_comm, MainTask.onRootWindowCreated.injEq, eq_comm (a := w)]
  | @notice w n u hadv =>
    refine hs.post (fun x => by cases n <;> simp [Notice.task]) fun hc => ?_
    cases n <;> simpa [Cleaning, Notice.task] using hc
  | command input hw hp => exact hs.post (fun x => by simp) fun hc => by simpa [Cleaning] using hc
  | quit hq => exact hs.took hq (fun _ => rfl) (fun x => by simp) fun _ => .inr rfl
  | cleanup hq =>
    refine hs.post (fun x => by simp) fun _ => .inl ?_
    rw [hq]
    exact .head _

theorem Safe.extends (hs : s.Safe) (h : s.Inv) (he : s.Extends t) : t.Safe := by
  have hboth : t.Inv ∧ t.Safe := by
    induction he with
    | refl => exact ⟨h, hs⟩
    | tail _ hstep ih =>
      obtain ⟨h, hs⟩ := ih
      rcases hstep with hsame | ⟨hroot, extension, rfl⟩
      · exact ⟨h.same hsame, hs.same hsame⟩
      · obtain ⟨w, hw⟩ := List.exists_mem_of_ne_nil _ hroot
        obtain ⟨hlt, hfreed⟩ := h.registered w hw
        exact ⟨h.created extension, hs.created h extension (hs.not_cleaning hlt hfreed)⟩
  exact hboth.2

theorem Safe.step {parse : Bytes → Option Json} (hs : s.Safe) (h : s.Inv)
    (hC : s.InTime e ∧ s.MayCreate e) (hstep : s.step parse e = some s') : s'.Safe := by
  obtain ⟨t, hm, hext⟩ := h.step_moves hC.1 hstep
  exact (hs.move h hC.2 hm).extends (h.move hm) hext

theorem Safe.start (terminateWhenAllWindowsClosed : Bool) (files : Bytes → File) :
    ({ terminateWhenAllWindowsClosed, files } : Cefclient).Safe where
  pending _ _ h := absurd h not_ahead_nil
  cleanup h := by simp [Cleaning] at h

/-- Every destroyed window was registered, and the end is asked for only when every created window
is destroyed. -/
theorem quit_after_all_closed {parse : Bytes → Option Json} {terminateWhenAllWindowsClosed : Bool}
    {files : Bytes → File} {es : List Event}
    (h : Lts.Run (step parse) (fun s e => s.InTime e ∧ s.MayCreate e)
      { terminateWhenAllWindowsClosed, files } es t) :
    t.missing = false ∧ (t.Cleaning → ∀ w, w < t.created → (t.window w).freed = true) := by
  have hboth : t.Inv ∧ t.Safe :=
    h.inv (I := fun s => s.Inv ∧ s.Safe)
      (fun _ _ _ hI hC hs => ⟨hI.1.step hC.1 hs, hI.2.step hI.1 hC hs⟩) ⟨.start _ _, .start _ _⟩
  exact ⟨hboth.1.missing, fun hc => (hboth.2.cleanup hc).2⟩

/-- A window opens a popup and is closed, then the popup is. -/
theorem quit_after_all_closed_popup :
    ∃ t, Lts.exec (step parseText) {} [.mainCreate none, .browserCreated 0, .popup 0,
        .browserClosed 0, .runMain false, .runMain false, .runMain false, .browserCreated 1,
        .browserClosed 1, .runMain false, .runMain false, .runUi, .runMain false] = some t ∧
      t.quit = true ∧ t.missing = false ∧ ∀ w, w < t.created → (t.window w).freed = true := by
  let later : List Event := [.browserCreated 0, .popup 0, .browserClosed 0, .runMain false,
    .runMain false, .runMain false, .browserCreated 1, .browserClosed 1, .runMain false,
    .runMain false, .runUi, .runMain false]
  obtain ⟨s, hs, t, ht, hquit⟩ : ∃ s, step parseText {} (.mainCreate none) = some s ∧
      ∃ t, Lts.exec (step parseText) s later = some t ∧ t.quit = true := ⟨_, rfl, _, rfl, rfl⟩
  have hlater : ∀ e ∈ later, ∀ s : Cefclient, s.InTime e ∧ s.MayCreate e := by
    simp [later, InTime, MayCreate]
  have hfirst : ({} : Cefclient).InTime (.mainCreate none) ∧ ({} : Cefclient).MayCreate (.mainCreate none) :=
    ⟨trivial, by simp [MayCreate, Cleaning]⟩
  have h := quit_after_all_closed (.cons hfirst hs (Lts.run_of_exec_of hlater ht))
  exact ⟨t, (Lts.exec_cons hs).trans ht, hquit, h.1, h.2 (.inr (.inr hquit))⟩

/-- A window is created on the UI thread after the only other one has been reported closed: the
message loop ends with its native window alive. -/
theorem quit_with_window :
    ∃ t, Lts.exec (step parseText) {} [.mainCreate none, .browserCreated 0, .runMain false,
        .browserClosed 0, .uiCreate none, .runMain false, .runUi, .runMain false, .runMain false,
        .runMain false] = some t ∧
      t.quit = true ∧ 1 < t.created ∧ (t.window 1).freed = false ∧ (t.window 1).native = .alive :=
  ⟨_, rfl, rfl, by decide, rfl, rfl⟩

end Cefclient

end NplBrowser
