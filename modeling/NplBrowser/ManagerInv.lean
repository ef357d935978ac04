import NplBrowser.Lib.Queue
import NplBrowser.Lib.Run
import NplBrowser.CommandRun
import NplBrowser.RootWindowManager

/-!
# The windows in a run

The invariant of `Cefclient`. The UI thread is ahead of the main thread by the notices under way
(`track`), so that the close of a browser is the last news of its window; a window is registered
before that news arrives (`waits`). Hence a window that is destroyed is found in `root_windows_`.

A command does not keep its window alive. If no message is dispatched to a window whose browser has
been reported closed, then every command in the queue stands before that report, and is run in time.
-/

namespace NplBrowser

open Fifo

/-- What the UI thread reports of a browser. -/
inductive Notice
  | created | closed
deriving DecidableEq

def Notice.advance : Page → Notice → Option Page
  | .creating, .created => some .open
  | .open, .closed => some .closed
  | _, _ => none

def Notice.task (w : Nat) : Notice → MainTask
  | .created => .notifyBrowserCreated w
  | .closed => .notifyBrowserClosed w

def MainTask.notice (w : Nat) : MainTask → Option Notice
  | .notifyBrowserCreated v => if v = w then some .created else none
  | .notifyBrowserClosed v => if v = w then some .closed else none
  | _ => none

theorem notice_task (n : Notice) (v w : Nat) : (n.task v).notice w = if v = w then some n else none := by
  cases n <;> rfl

/-- The notices of a window in a queue. -/
def news (q : List MainTask) (w : Nat) : List Notice := q.filterMap (·.notice w)

theorem news_cons (t : MainTask) (q : List MainTask) (w : Nat) :
    news (t :: q) w = (t.notice w).toList ++ news q w := by
  unfold news
  rw [List.filterMap_cons]
  cases t.notice w <;> rfl

theorem news_append (q l : List MainTask) (w : Nat) : news (q ++ l) w = news q w ++ news l w :=
  List.filterMap_append

theorem closed_mem_news {q : List MainTask} {w : Nat} :
    .closed ∈ news q w ↔ .notifyBrowserClosed w ∈ q := by
  unfold news
  rw [List.mem_filterMap]
  constructor
  · rintro ⟨t, ht, hn⟩
    cases t with
    | notifyBrowserClosed v =>
      simp only [MainTask.notice, Option.ite_none_right_eq_some] at hn
      rwa [← hn.1]
    | notifyBrowserCreated v => simp [MainTask.notice] at hn
    | _ => cases hn
  · intro h
    exact ⟨_, h, by simp [MainTask.notice]⟩

/-- The page of the UI thread, from that of the main thread and the notices under way. -/
def advanced (p : Page) (l : List Notice) : Option Page := l.foldlM Notice.advance p

theorem advanced_append {p u : Page} {l : List Notice} {n : Notice} (h : advanced p l = some u) :
    advanced p (l ++ [n]) = Notice.advance u n := by
  unfold advanced at h ⊢
  rw [List.foldlM_append, h]
  show ([n].foldlM Notice.advance u) = _
  simp

theorem advanced_cons {p : Page} {n : Notice} {l : List Notice} :
    advanced p (n :: l) = (Notice.advance p n).bind fun p' => advanced p' l := rfl

/-- Nothing is reported of a browser that is closed, or that is not being created yet. -/
theorem advanced_stuck {p u : Page} {l : List Notice} (hp : p = .none ∨ p = .closed)
    (h : advanced p l = some u) : l = [] ∧ u = p := by
  cases l with
  | nil =>
    cases h
    exact ⟨rfl, rfl⟩
  | cons n l =>
    rw [advanced_cons] at h
    rcases hp with rfl | rfl <;> cases n <;> cases h

theorem advanced_none {p : Page} {l : List Notice} (h : advanced p l = some .none) :
    p = .none ∧ l = [] := by
  induction l generalizing p with
  | nil =>
    cases h
    exact ⟨rfl, rfl⟩
  | cons n l ih =>
    rw [advanced_cons] at h
    obtain ⟨p', hp', h⟩ := Option.bind_eq_some_iff.1 h
    rw [(ih h).1] at hp'
    cases p <;> cases n <;> cases hp'

/-- The report of the close is the last one. -/
theorem advanced_closed {p u : Page} {l : List Notice} (h : advanced p l = some u)
    (hc : p = .closed ∨ .closed ∈ l) : u = .closed := by
  induction l generalizing p with
  | nil =>
    cases h
    exact hc.resolve_right (by simp)
  | cons n l ih =>
    rcases hc with rfl | hc
    · exact (advanced_stuck (.inr rfl) h).2
    · rw [advanced_cons] at h
      obtain ⟨p', hp', h⟩ := Option.bind_eq_some_iff.1 h
      refine ih h ?_
      rcases List.mem_cons.1 hc with rfl | hc
      · left
        cases p <;> cases hp'
        rfl
      · exact .inr hc

namespace Cefclient

variable {s s' : Cefclient} {w : Nat} {win : RootWindowWin} {P q : List MainTask} {t : MainTask}

/-- By the time `P` has been run, the main thread knows that the browser of `w` is closed. -/
def Closes (s : Cefclient) (P : List MainTask) (w : Nat) : Prop :=
  (s.window w).page = .closed ∨ .notifyBrowserClosed w ∈ P

/-- What holds of a task that is to be run after `P`. -/
def Waits (s : Cefclient) (P : List MainTask) : MainTask → Prop
  | .createRootWindow w =>
    w < s.created ∧ (s.window w).native = .none ∧ (s.window w).page = .none ∧
      (s.window w).isPopup = false ∧ .createRootWindow w ∉ P
  | .onRootWindowCreated w => w < s.created ∧ ¬ s.Closes P w
  | .handleCustomTask w _ => w < s.created ∧ ¬ s.Closes P w
  | _ => True

structure Inv (s : Cefclient) : Prop where
  window : ∀ w, (s.window w).Inv
  track : ∀ w, advanced (s.window w).page (news s.mainQueue w) = some (s.page w)
  fresh : ∀ w, s.created ≤ w →
    (s.window w).native = .none ∧ (s.window w).page = .none ∧ s.page w = .none
  waits : ∀ t P, Ahead s.mainQueue t P → s.Waits P t
  registered : ∀ w ∈ s.rootWindows, w < s.created ∧ (s.window w).freed = false
  placed : ∀ w, w < s.created →
    w ∈ s.rootWindows ∨ .onRootWindowCreated w ∈ s.mainQueue ∨ (s.window w).freed = true
  missing : s.missing = false
  stale : s.stale = false

theorem Inv.init : Inv ({} : Cefclient) where
  window _ := .init false false
  track _ := rfl
  fresh _ _ := ⟨rfl, rfl, rfl⟩
  waits _ _ h := absurd h not_ahead_nil
  registered _ h := by cases h
  placed _ h := by cases h
  missing := rfl
  stale := rfl

/-! ### What the parts of a step do to the rest -/

theorem Inv.closes (h : s.Inv) (hc : s.Closes s.mainQueue w) : s.page w = .closed := by
  refine advanced_closed (h.track w) (hc.imp_right fun hmem => ?_)
  exact closed_mem_news.2 hmem

theorem Inv.not_freed (h : s.Inv) (hc : ¬ s.Closes [] w) : (s.window w).freed = false := by
  by_contra hf
  exact hc (.inl ((h.window w).page_of_freed (by simpa using hf)))

theorem Inv.lt_created (h : s.Inv)
    (hn : (s.window w).native ≠ .none ∨ (s.window w).page ≠ .none ∨ s.page w ≠ .none) :
    w < s.created := by
  by_contra hw
  obtain ⟨h₁, h₂, h₃⟩ := h.fresh w (by omega)
  rcases hn with hn | hn | hn
  exacts [hn h₁, hn h₂, hn h₃]

section setWindow

theorem created_setWindow : (s.setWindow w win).created = s.created := by
  unfold setWindow; split <;> rfl

theorem window_setWindow : (s.setWindow w win).window = Function.update s.window w win := by
  unfold setWindow; split <;> rfl

theorem page_setWindow : (s.setWindow w win).page = s.page := by
  unfold setWindow; split <;> rfl

theorem mainQueue_setWindow : (s.setWindow w win).mainQueue = s.mainQueue := by
  unfold setWindow; split <;> rfl

theorem stale_setWindow : (s.setWindow w win).stale = s.stale := by
  unfold setWindow; split <;> rfl

theorem quit_setWindow : (s.setWindow w win).quit = s.quit := by
  unfold setWindow; split <;> rfl

theorem mem_rootWindows_setWindow {x : Nat} : x ∈ (s.setWindow w win).rootWindows ↔
    x ∈ s.rootWindows ∧ ¬ (x = w ∧ win.freed = true ∧ (s.window w).freed = false) := by
  unfold setWindow
  by_cases hf : win.freed = true ∧ (s.window w).freed = false
  · simp [hf, onRootWindowDestroyed]
  · have hif : (win.freed && !(s.window w).freed) = false := by
      simpa using hf
    rw [hif]
    simp [hf]

theorem missing_setWindow (h : s.missing = false)
    (hw : win.freed = true → (s.window w).freed = false → w ∈ s.rootWindows) :
    (s.setWindow w win).missing = false := by
  unfold setWindow
  split
  · rename_i hif
    rw [Bool.and_eq_true, Bool.not_eq_true'] at hif
    simp [onRootWindowDestroyed, h, hw hif.1 hif.2]
  · exact h

end setWindow

theorem Closes.append (h : s.Closes P w) (Q : List MainTask) : s.Closes (P ++ Q) w :=
  h.imp_right fun hmem => List.mem_append_left _ hmem

/-- Code of the window `w`, run by a task about it or (`l = []`) by a message. Only the news of a
closed browser makes the browser closed. -/
structure Acts (s : Cefclient) (l q : List MainTask) (w : Nat) (win : RootWindowWin) (u : Page) :
    Prop where
  queue : s.mainQueue = l ++ q
  created : w < s.created
  other : ∀ x, x ≠ w → news l x = []
  registration : ∀ x, .onRootWindowCreated x ∉ l
  inv : win.Inv
  closed : win.page = .closed ↔ s.Closes l w
  track : advanced win.page (news q w) = some u
  waiting : .createRootWindow w ∈ q →
    win.native = .none ∧ win.page = .none ∧ win.isPopup = false
  freed : (s.window w).freed = true → win.freed = true

/-- The state after it. -/
def acted (s : Cefclient) (q : List MainTask) (w : Nat) (win : RootWindowWin) (u : Page) : Cefclient :=
  { s with mainQueue := q, page := Function.update s.page w u }.setWindow w win

section acted
variable {l : List MainTask} {u : Page}

theorem window_acted : (s.acted q w win u).window = Function.update s.window w win := window_setWindow

theorem mainQueue_acted : (s.acted q w win u).mainQueue = q := mainQueue_setWindow

theorem page_acted : (s.acted q w win u).page = Function.update s.page w u := page_setWindow

theorem created_acted : (s.acted q w win u).created = s.created := created_setWindow

theorem Acts.closes_iff (ha : s.Acts l q w win u) (x : Nat) :
    (s.acted q w win u).Closes P x ↔ s.Closes (l ++ P) x := by
  unfold Closes
  rw [window_acted, List.mem_append]
  by_cases hx : x = w
  · subst hx
    rw [Function.update_self, ha.closed, Closes, or_assoc]
  · have hl : .notifyBrowserClosed x ∉ l := by
      rw [← closed_mem_news, ha.other x hx]
      simp
    rw [Function.update_of_ne hx]
    simp [hl]

/-- A window that is destroyed now is registered. -/
theorem Acts.mem_rootWindows (h : s.Inv) (ha : s.Acts l q w win u) (hf : win.freed = true)
    (hf' : (s.window w).freed = false) : w ∈ s.rootWindows := by
  have hc := ha.closed.1 (ha.inv.page_of_freed hf)
  rcases h.placed w ha.created with hmem | hmem | hmem
  · exact hmem
  · rw [ha.queue, List.mem_append] at hmem
    obtain ⟨P', hahead⟩ := exists_ahead (hmem.resolve_left (ha.registration w))
    have hwaits := h.waits _ _ (ha.queue ▸ hahead.append_left l)
    exact absurd (hc.append P') hwaits.2
  · rw [hf'] at hmem
    cases hmem

theorem Inv.acted (h : s.Inv) (ha : s.Acts l q w win u) : (s.acted q w win u).Inv where
  window x := by
    rw [window_acted]
    by_cases hx : x = w
    · subst hx; rw [Function.update_self]; exact ha.inv
    · rw [Function.update_of_ne hx]; exact h.window x
  track x := by
    rw [window_acted, mainQueue_acted, page_acted]
    by_cases hx : x = w
    · subst hx
      rw [Function.update_self, Function.update_self]
      exact ha.track
    · have htrack := h.track x
      rw [ha.queue, news_append, ha.other x hx, List.nil_append] at htrack
      rw [Function.update_of_ne hx, Function.update_of_ne hx]
      exact htrack
  fresh x hx := by
    rw [created_acted] at hx
    have hne : x ≠ w := by have := ha.created; omega
    rw [window_acted, page_acted, Function.update_of_ne hne, Function.update_of_ne hne]
    exact h.fresh x hx
  waits t P hahead := by
    rw [mainQueue_acted] at hahead
    have hwaits := h.waits t (l ++ P) (ha.queue ▸ hahead.append_left l)
    cases t with
    | createRootWindow v =>
      obtain ⟨hv, hn, hp, hpop, hfirst⟩ := hwaits
      rw [List.mem_append, not_or] at hfirst
      show v < _ ∧ _
      rw [created_acted, window_acted]
      by_cases hvw : v = w
      · subst hvw
        obtain ⟨hn, hp, hpop⟩ := ha.waiting hahead.mem
        rw [Function.update_self]
        exact ⟨hv, hn, hp, hpop, hfirst.2⟩
      · rw [Function.update_of_ne hvw]
        exact ⟨hv, hn, hp, hpop, hfirst.2⟩
    | onRootWindowCreated v =>
      refine ⟨?_, fun hc => hwaits.2 ((ha.closes_iff v).1 hc)⟩
      rw [created_acted]
      exact hwaits.1
    | handleCustomTask v input =>
      refine ⟨?_, fun hc => hwaits.2 ((ha.closes_iff v).1 hc)⟩
      rw [created_acted]
      exact hwaits.1
    | _ => trivial
  registered x hx := by
    obtain ⟨hx, hnot⟩ := mem_rootWindows_setWindow.1 hx
    obtain ⟨hlt, hf⟩ := h.registered x hx
    rw [created_acted, window_acted]
    refine ⟨hlt, ?_⟩
    by_cases hxw : x = w
    · subst hxw
      rw [Function.update_self]
      by_contra hwin
      exact hnot ⟨rfl, by simpa using hwin, hf⟩
    · rw [Function.update_of_ne hxw]
      exact hf
  placed x hx := by
    rw [created_acted] at hx
    rw [window_acted, mainQueue_acted]
    rcases h.placed x hx with hmem | hmem | hmem
    · by_cases hfree : x = w ∧ win.freed = true ∧ (s.window w).freed = false
      · obtain ⟨rfl, hf, -⟩ := hfree
        rw [Function.update_self]
        exact .inr (.inr hf)
      · exact .inl (mem_rootWindows_setWindow.2 ⟨hmem, hfree⟩)
    · rw [ha.queue, List.mem_append] at hmem
      exact .inr (.inl (hmem.resolve_left (ha.registration x)))
    · right; right
      by_cases hxw : x = w
      · subst hxw; rw [Function.update_self]; exact ha.freed hmem
      · rw [Function.update_of_ne hxw]; exact hmem
  missing := by
    have hmem : win.freed = true → (s.window w).freed = false → w ∈ s.rootWindows :=
      ha.mem_rootWindows h
    exact missing_setWindow h.missing hmem
  stale := by
    have hstale : (s.acted q w win u).stale = s.stale := stale_setWindow
    rw [hstale]
    exact h.stale

end acted

/-! ### Messages and the other tasks -/

/-- Code that a message runs, or a task without news: the browser is as it was. -/
theorem Inv.acts (h : s.Inv) {l : List MainTask} (hq : s.mainQueue = l ++ q) (hw : w < s.created)
    (hl : ∀ x, news l x = []) (hreg : ∀ x, .onRootWindowCreated x ∉ l) (hwin : win.Inv)
    (hpage : win.page = (s.window w).page)
    (hnone : (s.window w).native = .none → win.native = .none ∧ win.isPopup = (s.window w).isPopup)
    (hfreed : (s.window w).freed = true → win.freed = true) : s.Acts l q w win (s.page w) where
  queue := hq
  created := hw
  other x _ := hl x
  registration := hreg
  inv := hwin
  closed := by
    have hno : .notifyBrowserClosed w ∉ l := by
      rw [← closed_mem_news, hl]
      simp
    rw [hpage, Closes]
    simp [hno]
  track := by
    have htrack := h.track w
    rwa [hq, news_append, hl, List.nil_append, ← hpage] at htrack
  waiting hmem := by
    obtain ⟨P, hahead⟩ := exists_ahead hmem
    obtain ⟨-, hn, hp, hpop, -⟩ := h.waits _ _ (hq ▸ hahead.append_left l)
    exact ⟨(hnone hn).1, hpage.trans hp, (hnone hn).2.trans hpop⟩
  freed := hfreed

theorem acted_page : s.acted q w win (s.page w) = { s with mainQueue := q }.setWindow w win := by
  unfold acted
  rw [Function.update_eq_self]

/-- A message for a native window. -/
theorem Inv.actsMessage (h : s.Inv) (hn : (s.window w).native ≠ .none) (hwin : win.Inv)
    (hpage : win.page = (s.window w).page) (hfreed : (s.window w).freed = true → win.freed = true) :
    s.Acts [] s.mainQueue w win (s.page w) := by
  have hw : w < s.created := h.lt_created (.inl hn)
  exact h.acts rfl hw (fun _ => rfl) (by simp) hwin hpage (fun hnone => absurd hnone hn) hfreed

theorem Inv.actsBeginDestroy (h : s.Inv) (hn : (s.window w).native = .alive) :
    s.Acts [] s.mainQueue w { s.window w with native := .destroying } (s.page w) := by
  have hstep : (s.window w).step .beginDestroy = some { s.window w with native := .destroying } := by
    simp [RootWindowWin.step, hn]
  exact h.actsMessage (by simp [hn]) ((h.window w).step hstep) rfl id

theorem Inv.actsNcDestroy (h : s.Inv) (hn : (s.window w).native = .destroying) :
    s.Acts [] s.mainQueue w (RootWindowWin.ncDestroy.run (s.window w)).2 (s.page w) := by
  have hfreed : (s.window w).freed = false := by simp [(h.window w).freed, hn]
  refine h.actsMessage (by simp [hn]) ((h.window w).ncDestroy (.inr hn)) ?_ (by simp [hfreed])
  rw [RootWindowWin.ncDestroy_run hfreed]
  split <;> rfl

/-- A task that is taken off the queue. -/
theorem Inv.head (h : s.Inv) (hq : s.mainQueue = t :: q) : s.Waits [] t :=
  h.waits t [] (hq ▸ ahead_head t q)

theorem Inv.actsCreateRootWindow (h : s.Inv) (hq : s.mainQueue = .createRootWindow w :: q) :
    s.Acts [.createRootWindow w] q w (RootWindowWin.createRootWindow.run (s.window w)).2 .creating := by
  obtain ⟨hw, hn, hp, hpop, -⟩ := h.head hq
  have hfreed : (s.window w).freed = false := by simp [(h.window w).freed, hn]
  have htrack := h.track w
  rw [hp] at htrack
  have hnews := (advanced_stuck (.inl rfl) htrack).1
  rw [hq, news_cons] at hnews
  have hrun := RootWindowWin.createRootWindow_run hfreed hpop
  refine ⟨hq, hw, fun _ _ => rfl, by simp, (h.window w).createRootWindow hpop hn, ?_, ?_, ?_,
    by simp [hfreed]⟩
  · rw [hrun]
    simp [Closes, hp]
  · rw [hrun, (List.append_eq_nil_iff.1 hnews).2]
    rfl
  · intro hmem
    obtain ⟨P, hahead⟩ := exists_ahead hmem
    obtain ⟨-, -, -, -, hfirst⟩ := h.waits _ _ (hq ▸ hahead.cons _)
    exact absurd (.head _) hfirst

theorem advance_created {p p' : Page} (h : Notice.advance p .created = some p') :
    p = .creating ∧ p' = .open := by
  cases p <;> cases h
  exact ⟨rfl, rfl⟩

theorem advance_closed {p p' : Page} (h : Notice.advance p .closed = some p') :
    p = .open ∧ p' = .closed := by
  cases p <;> cases h
  exact ⟨rfl, rfl⟩

/-- What a notice changes on either thread. -/
theorem advance_ne {p p' : Page} {n : Notice} (h : Notice.advance p n = some p') :
    p ≠ .none ∧ p ≠ .closed ∧ p' ≠ .none ∧ (p' = .closed ↔ n = .closed) := by
  cases p <;> cases n <;> cases h <;> simp

theorem Inv.head_notice (h : s.Inv) {n : Notice} (hq : s.mainQueue = n.task w :: q) :
    ∃ p, Notice.advance (s.window w).page n = some p ∧ advanced p (news q w) = some (s.page w) := by
  have htrack := h.track w
  rw [hq, news_cons, notice_task, if_pos rfl, Option.toList_some, List.singleton_append,
    advanced_cons] at htrack
  exact Option.bind_eq_some_iff.1 htrack

/-- The news of `n`, and what the window does then. -/
theorem Inv.actsNotice (h : s.Inv) {n : Notice} {p : Page} (hq : s.mainQueue = n.task w :: q)
    (hadv : Notice.advance (s.window w).page n = some p) (hwin : win.Inv) (hpage : win.page = p) :
    s.Acts [n.task w] q w win (s.page w) := by
  obtain ⟨hnone, hclosed, -, hp⟩ := advance_ne hadv
  have hw : w < s.created := h.lt_created (.inr (.inl hnone))
  refine ⟨hq, hw, fun x hx => ?_, fun x => by cases n <;> simp [Notice.task], hwin, ?_, ?_,
    fun hmem => ?_, fun hf => absurd ((h.window w).page_of_freed hf) hclosed⟩
  · rw [news_cons, notice_task, if_neg (Ne.symm hx)]
    rfl
  · rw [hpage, hp, Closes]
    cases n <;> simp [hclosed, Notice.task]
  · obtain ⟨p', hadv', htrack⟩ := h.head_notice hq
    rw [hadv, Option.some.injEq] at hadv'
    rwa [hpage, hadv']
  · obtain ⟨P, hahead⟩ := exists_ahead hmem
    obtain ⟨-, -, hp, -⟩ := h.waits _ _ (hq ▸ hahead.cons _)
    exact absurd hp hnone

theorem Inv.actsNotifyBrowserCreated (h : s.Inv) (hq : s.mainQueue = .notifyBrowserCreated w :: q) :
    s.Acts [.notifyBrowserCreated w] q w
      (RootWindowWin.onBrowserCreated.run { s.window w with page := .open }).2 (s.page w) := by
  obtain ⟨p, hadv, -⟩ := h.head_notice (n := .created) hq
  obtain ⟨hpage, rfl⟩ := advance_created hadv
  have hfreed : ({ s.window w with page := .open } : RootWindowWin).freed = false := by
    show (s.window w).freed = false
    simp [(h.window w).freed, hpage]
  refine h.actsNotice (n := .created) hq hadv ((h.window w).onBrowserCreated hpage) ?_
  rw [RootWindowWin.onBrowserCreated_run hfreed]
  split <;> rfl

theorem Inv.actsNotifyBrowserClosed (h : s.Inv) (again : Bool)
    (hq : s.mainQueue = .notifyBrowserClosed w :: q) :
    s.Acts [.notifyBrowserClosed w] q w ((RootWindowWin.onBrowserWindowDestroyed again).run
      { s.window w with page := .closed }).2 (s.page w) := by
  obtain ⟨p, hadv, -⟩ := h.head_notice (n := .closed) hq
  obtain ⟨hpage, rfl⟩ := advance_closed hadv
  have hwin := h.window w
  have hfreed : ({ s.window w with page := .closed } : RootWindowWin).freed = false := by
    show (s.window w).freed = false
    simp [hwin.freed, hpage]
  have hb : (s.window w).browserDestroyed = false := by simpa [hpage] using hwin.browserDestroyed
  refine h.actsNotice (n := .closed) hq hadv (hwin.onBrowserWindowDestroyed again hpage) ?_
  rw [RootWindowWin.onBrowserWindowDestroyed_run again hfreed hb hwin.windowDestroyed hwin.hwnd]
  dsimp only
  split_ifs <;> rfl

/-- What the manager's own bookkeeping leaves alone: of a window only its looks may change. -/
structure Same (s s' : Cefclient) : Prop where
  created : s'.created = s.created
  window : ∀ w, ∃ look, s'.window w = { s.window w with look }
  page : s'.page = s.page
  mainQueue : s'.mainQueue = s.mainQueue
  rootWindows : s'.rootWindows = s.rootWindows
  missing : s'.missing = s.missing
  stale : s'.stale = s.stale
  cleanup : .cleanupOnUIThread ∈ s'.uiQueue ↔ .cleanupOnUIThread ∈ s.uiQueue
  quit : s'.quit = s.quit

theorem Same.closes_iff (hs : s.Same s') : s'.Closes P w ↔ s.Closes P w := by
  obtain ⟨look, hw⟩ := hs.window w
  rw [Closes, hw]
  rfl

theorem Same.freed_eq (hs : s.Same s') (w : Nat) : (s'.window w).freed = (s.window w).freed := by
  obtain ⟨look, hw⟩ := hs.window w
  rw [hw]
  rfl

theorem Inv.same (h : s.Inv) (hs : s.Same s') : s'.Inv where
  window w := by
    obtain ⟨look, hw⟩ := hs.window w
    rw [hw]
    exact (h.window w).look look
  track w := by
    obtain ⟨look, hw⟩ := hs.window w
    rw [hw, hs.mainQueue, hs.page]
    exact h.track w
  fresh w hlt := by
    obtain ⟨look, hw⟩ := hs.window w
    rw [hw, hs.page]
    exact h.fresh w (hs.created ▸ hlt)
  waits t P hahead := by
    have hwaits := h.waits t P (hs.mainQueue ▸ hahead)
    cases t with
    | createRootWindow w =>
      obtain ⟨look, hw⟩ := hs.window w
      show w < s'.created ∧ (s'.window w).native = _ ∧ (s'.window w).page = _ ∧ _
      rw [hs.created, hw]
      exact hwaits
    | onRootWindowCreated w =>
      exact ⟨hs.created ▸ hwaits.1, fun hc => hwaits.2 (hs.closes_iff.1 hc)⟩
    | handleCustomTask w input =>
      exact ⟨hs.created ▸ hwaits.1, fun hc => hwaits.2 (hs.closes_iff.1 hc)⟩
    | _ => trivial
  registered w hmem := by
    rw [hs.freed_eq, hs.created]
    exact h.registered w (hs.rootWindows ▸ hmem)
  placed w hlt := by
    rw [hs.freed_eq, hs.rootWindows, hs.mainQueue]
    exact h.placed w (hs.created ▸ hlt)
  missing := hs.missing.trans h.missing
  stale := hs.stale.trans h.stale

/-- One more task at the end of the queue. -/
theorem Inv.post (h : s.Inv) {page : Nat → Page} {uiQueue : List UiTask}
    (htrack : ∀ w, advanced (s.window w).page (news (s.mainQueue ++ [t]) w) = some (page w))
    (hfresh : ∀ w, s.created ≤ w → page w = .none) (hwaits : s.Waits s.mainQueue t) :
    ({ s with page, uiQueue, mainQueue := s.mainQueue ++ [t] } : Cefclient).Inv where
  window := h.window
  track := htrack
  fresh w hw := by
    obtain ⟨hn, hp, -⟩ := h.fresh w hw
    exact ⟨hn, hp, hfresh w hw⟩
  waits u P hahead := by
    rcases ahead_append_singleton hahead with hold | ⟨rfl, rfl⟩
    · exact h.waits u P hold
    · exact hwaits
  registered := h.registered
  placed w hw := by
    rcases h.placed w hw with hmem | hmem | hmem
    exacts [.inl hmem, .inr (.inl (List.mem_append_left _ hmem)), .inr (.inr hmem)]
  missing := h.missing
  stale := h.stale

/-- The report of the UI thread. -/
theorem Inv.notice (h : s.Inv) {n : Notice} {u : Page} (hadv : Notice.advance (s.page w) n = some u) :
    ({ s with page := Function.update s.page w u, mainQueue := s.mainQueue ++ [n.task w] } :
      Cefclient).Inv := by
  have hw : w < s.created := h.lt_created (.inr (.inr (advance_ne hadv).1))
  refine h.post (fun x => ?_) (fun x hx => ?_) (by cases n <;> trivial)
  · rw [news_append, news_cons, notice_task]
    by_cases hx : w = x
    · subst hx
      rw [if_pos rfl, Function.update_self]
      exact (advanced_append (h.track w)).trans hadv
    · rw [if_neg hx, Function.update_of_ne (Ne.symm hx)]
      simpa [news] using h.track x
  · rw [Function.update_of_ne (by omega)]
    exact (h.fresh x hx).2.2

/-- A task without news is posted. -/
theorem Inv.postQuiet (h : s.Inv) {uiQueue : List UiTask} (ht : ∀ w, t.notice w = none)
    (hwaits : s.Waits s.mainQueue t) :
    ({ s with uiQueue, mainQueue := s.mainQueue ++ [t] } : Cefclient).Inv := by
  have htrack : ∀ w, advanced (s.window w).page (news (s.mainQueue ++ [t]) w) = some (s.page w) := by
    intro w
    rw [news_append, news_cons, ht]
    simpa [news] using h.track w
  exact h.post htrack (fun w hw => (h.fresh w hw).2.2) hwaits

theorem Waits.tail {u : MainTask} (hw : s.Waits (t :: P) u) : s.Waits P u := by
  have hc : ∀ w, s.Closes P w → s.Closes (t :: P) w := fun w hc => hc.imp_right (.tail _)
  cases u with
  | createRootWindow w =>
    obtain ⟨hlt, hn, hp, hpop, hfirst⟩ := hw
    exact ⟨hlt, hn, hp, hpop, fun hmem => hfirst (.tail _ hmem)⟩
  | onRootWindowCreated w => exact ⟨hw.1, fun h => hw.2 (hc w h)⟩
  | handleCustomTask w input => exact ⟨hw.1, fun h => hw.2 (hc w h)⟩
  | _ => trivial

/-- A task that at most registers a window is taken off the queue. -/
theorem Inv.took (h : s.Inv) {quit : Bool} {r : List Nat} (hq : s.mainQueue = t :: q)
    (ht : ∀ w, t.notice w = none) (hr : ∀ w, w ∈ r ↔ w ∈ s.rootWindows ∨ t = .onRootWindowCreated w) :
    ({ s with mainQueue := q, rootWindows := r, quit } : Cefclient).Inv where
  window := h.window
  track w := by
    have htrack := h.track w
    rwa [hq, news_cons, ht] at htrack
  fresh := h.fresh
  waits u P hahead := (h.waits u (t :: P) (hq ▸ hahead.cons t)).tail
  registered w hw := by
    rcases (hr w).1 hw with hw | rfl
    · exact h.registered w hw
    · obtain ⟨hlt, hc⟩ := h.head hq
      exact ⟨hlt, h.not_freed hc⟩
  placed w hw := by
    rcases h.placed w hw with hmem | hmem | hmem
    · exact .inl ((hr w).2 (.inl hmem))
    · rw [hq, List.mem_cons] at hmem
      rcases hmem with hmem | hmem
      · exact .inl ((hr w).2 (.inr hmem.symm))
      · exact .inr (.inl hmem)
    · exact .inr (.inr hmem)
  missing := h.missing
  stale := h.stale

/-! ### Commands -/

/-- A command leaves the page of its window alone, and makes no native window. -/
structure Leaves (w w' : RootWindowWin) : Prop where
  inv : w'.Inv
  page : w'.page = w.page
  none : w.native = .none → w'.native = .none ∧ w'.isPopup = w.isPopup

open RootWindowWin in
theorem leaves_carryOut (c : Command) {w : RootWindowWin} (h : w.Inv) (hf : w.freed = false) :
    Leaves w ((carryOut c).run w).2 := by
  have hlook : ∀ l, Leaves w { w with look := l } := fun l => ⟨h.look l, rfl, fun hn => ⟨hn, rfl⟩⟩
  cases hh : w.hwnd with
  | false =>
    obtain ⟨l, hl⟩ := carryOut_run_gone c hf hh
    rw [hl]
    exact hlook l
  | true =>
    by_cases hc : c.cmd = lit "Quit"
    · have hrun : ((carryOut c).run w).2 = if w.native = .alive then (ncDestroy.run w).2 else w := by
        simp +decide [carryOut, hc, close_run hf, hh]
      rw [hrun]
      split
      · rename_i hn
        refine ⟨h.ncDestroy (.inl hn), ?_, fun hnone => by simp [hn] at hnone⟩
        rw [ncDestroy_run hf]
        split <;> rfl
      · exact hlook w.look
    · rw [carryOut_run hf hh hc]
      exact hlook _

theorem leaves_handleCustomTask (input : Json) {c : Client} (h : c.window.Inv)
    (hf : c.window.freed = false) : Leaves c.window (NplBrowser.handleCustomTask input c).1.window := by
  have hsame : Leaves c.window c.window := ⟨h, rfl, fun hn => ⟨hn, rfl⟩⟩
  unfold NplBrowser.handleCustomTask
  split
  · exact hsame
  · rw [RootWindowWin.getBrowser, RootWindowWin.member_run _ hf]
    dsimp only
    split_ifs
    · rw [(checkCefWindow_fst _ _).1]
      exact hsame
    · exact hsame
    · exact hsame
    · exact leaves_carryOut _ h hf

/-- What the task finds. -/
def client (s : Cefclient) (w : Nat) : Client :=
  { window := s.window w, files := s.files, inst := s.inst }

theorem handleCustomTask_eq (input : Json) (hf : (s.window w).freed = false) :
    ∃ files inst crashed, ∃ zooms : List Double,
      let s' := s.acted q w (NplBrowser.handleCustomTask input (s.client w)).1.window (s.page w)
      { s with mainQueue := q }.handleCustomTask w input =
        { s' with files, inst, crashed, uiQueue := s'.uiQueue ++ zooms.map (.modifyZoom w) } := by
  rw [acted_page]
  have hstale : (s.stale || (s.window w).freed) = s.stale := by rw [hf, Bool.or_false]
  unfold handleCustomTask
  dsimp only
  rw [hstale]
  exact ⟨_, _, _, _, rfl⟩

theorem Inv.actsHandleCustomTask (h : s.Inv) {input : Json}
    (hq : s.mainQueue = .handleCustomTask w input :: q) :
    s.Acts [.handleCustomTask w input] q w (NplBrowser.handleCustomTask input (s.client w)).1.window
      (s.page w) := by
  obtain ⟨hw, hc⟩ := h.head hq
  have hf := h.not_freed hc
  have hleaves := leaves_handleCustomTask input (c := s.client w) (h.window w) hf
  exact h.acts (l := [.handleCustomTask w input]) hq hw (fun _ => rfl) (by simp) hleaves.inv
    hleaves.page hleaves.none fun hfreed => absurd (hfreed.symm.trans hf) nofun

/-! ### New windows -/

/-- The tasks `l` posted for a new window register it, and perhaps create its native window. -/
structure Creates (s : Cefclient) (win : RootWindowWin) (l : List MainTask) (r : List Nat) : Prop where
  inv : win.Inv
  page : win.page ≠ .closed
  news : ∀ w, news l w = []
  tasks : ∀ t P, Ahead l t P → t = .onRootWindowCreated s.created ∨
    t = .createRootWindow s.created ∧ .createRootWindow s.created ∉ P ∧
      win.native = .none ∧ win.page = .none ∧ win.isPopup = false
  root : ∀ w, w ∈ s.rootWindows → w ∈ r
  registered : ∀ w ∈ r, w ∈ s.rootWindows ∨ w = s.created
  placed : s.created ∈ r ∨ .onRootWindowCreated s.created ∈ l

/-- The state with it. -/
def created' (s : Cefclient) (win : RootWindowWin) (extension : Option Bytes) (l : List MainTask)
    (r : List Nat) : Cefclient :=
  { s.add win win.page extension with mainQueue := s.mainQueue ++ l, rootWindows := r }

section created'
variable {l : List MainTask} {r : List Nat} {extension : Option Bytes}

theorem Inv.created_notMem (h : s.Inv) : ¬ s.Closes s.mainQueue s.created := by
  intro hc
  have hpage := h.closes hc
  rw [(h.fresh s.created (Nat.le_refl _)).2.2] at hpage
  cases hpage

theorem closes_created' (hw : w ≠ s.created) :
    (s.created' win extension l r).Closes P w ↔ s.Closes P w := by
  show ((Function.update s.window s.created win w).page = _ ∨ _) ↔ _
  rw [Function.update_of_ne hw]
  rfl

theorem Creates.not_closes (h : s.Inv) (hc : s.Creates win l r) {Q : List MainTask} (hQ : Q ⊆ l) :
    ¬ (s.created' win extension l r).Closes (s.mainQueue ++ Q) s.created := by
  rintro (hpage | hmem)
  · have hpage : (Function.update s.window s.created win s.created).page = .closed := hpage
    rw [Function.update_self] at hpage
    exact hc.page hpage
  · rcases List.mem_append.1 hmem with hmem | hmem
    · exact h.created_notMem (.inr hmem)
    · have := closed_mem_news.2 (hQ hmem)
      rw [hc.news] at this
      cases this

theorem Inv.created' (h : s.Inv) (hc : s.Creates win l r) (extension : Option Bytes) :
    (s.created' win extension l r).Inv where
  window x := by
    show (Function.update s.window s.created win x).Inv
    by_cases hx : x = s.created
    · subst hx; rw [Function.update_self]; exact hc.inv
    · rw [Function.update_of_ne hx]; exact h.window x
  track x := by
    show advanced (Function.update s.window s.created win x).page (news (s.mainQueue ++ l) x) =
      some (Function.update s.page s.created win.page x)
    rw [news_append, hc.news, List.append_nil]
    by_cases hx : x = s.created
    · subst hx
      have htrack := h.track s.created
      rw [(h.fresh s.created (Nat.le_refl _)).2.2] at htrack
      rw [Function.update_self, Function.update_self, (advanced_none htrack).2]
      rfl
    · rw [Function.update_of_ne hx, Function.update_of_ne hx]
      exact h.track x
  fresh x hx := by
    have hlt : s.created + 1 ≤ x := hx
    have hne : x ≠ s.created := by omega
    show (Function.update s.window s.created win x).native = _ ∧
      (Function.update s.window s.created win x).page = _ ∧
      Function.update s.page s.created win.page x = _
    rw [Function.update_of_ne hne, Function.update_of_ne hne]
    exact h.fresh x (by omega)
  waits t P hahead := by
    rcases ahead_append hahead with hold | ⟨P', rfl, hnew⟩
    · have hwaits := h.waits t P hold
      cases t with
      | createRootWindow v =>
        obtain ⟨hv, hrest⟩ := hwaits
        show v < s.created + 1 ∧ (Function.update s.window s.created win v).native = _ ∧
          (Function.update s.window s.created win v).page = _ ∧
          (Function.update s.window s.created win v).isPopup = _ ∧ _
        rw [Function.update_of_ne (by omega)]
        exact ⟨by omega, hrest⟩
      | onRootWindowCreated v =>
        obtain ⟨hv, hrest⟩ := hwaits
        refine ⟨Nat.lt_succ_of_lt hv, ?_⟩
        rwa [closes_created' (by omega)]
      | handleCustomTask v input =>
        obtain ⟨hv, hrest⟩ := hwaits
        refine ⟨Nat.lt_succ_of_lt hv, ?_⟩
        rwa [closes_created' (by omega)]
      | _ => trivial
    · rcases hc.tasks t P' hnew with rfl | ⟨rfl, hfirst, hwin⟩
      · exact ⟨Nat.lt_succ_self _, hc.not_closes h hnew.subset⟩
      · show s.created < s.created + 1 ∧ (Function.update s.window s.created win s.created).native = _ ∧
          (Function.update s.window s.created win s.created).page = _ ∧
          (Function.update s.window s.created win s.created).isPopup = _ ∧ _
        rw [Function.update_self, List.mem_append, not_or]
        refine ⟨Nat.lt_succ_self _, hwin.1, hwin.2.1, hwin.2.2, fun hmem => ?_, hfirst⟩
        obtain ⟨P, hahead⟩ := exists_ahead hmem
        exact absurd (h.waits _ P hahead).1 (Nat.lt_irrefl _)
  registered x hx := by
    show x < s.created + 1 ∧ (Function.update s.window s.created win x).freed = false
    by_cases hxc : x = s.created
    · subst hxc
      rw [Function.update_self, hc.inv.freed, decide_eq_false_iff_not]
      exact ⟨Nat.lt_succ_self _, fun hf => hc.page hf.2⟩
    · rw [Function.update_of_ne hxc]
      obtain ⟨hlt, hf⟩ := h.registered x ((hc.registered x hx).resolve_right hxc)
      exact ⟨Nat.lt_succ_of_lt hlt, hf⟩
  placed x hx := by
    show x ∈ r ∨ .onRootWindowCreated x ∈ s.mainQueue ++ l ∨
      (Function.update s.window s.created win x).freed = true
    rw [List.mem_append]
    by_cases hxc : x = s.created
    · subst hxc
      exact hc.placed.imp_right fun hmem => .inl (.inr hmem)
    · have hlt : x < s.created + 1 := hx
      rw [Function.update_of_ne hxc]
      rcases h.placed x (by omega) with hmem | hmem | hmem
      exacts [.inl (hc.root x hmem), .inr (.inl (.inl hmem)), .inr (.inr hmem)]
  missing := h.missing
  stale := h.stale

end created'

end Cefclient

end NplBrowser
