import Mathlib.Logic.Relation
import NplBrowser.ManagerInv

/-!
# The windows in a run

A step makes one of the moves of the invariant, and then perhaps opens windows for the extensions
(`Inv.step_moves`). What the moves keep is kept by every run.
-/

namespace NplBrowser

open Fifo

namespace Cefclient

variable {s s' t : Cefclient} {e : Event} {w : Nat} {q : List MainTask}

/-! ### New windows -/

/-- The window that `Init` makes on the main thread. -/
theorem createRootWindow_init (withExtension : Bool) :
    (RootWindowWin.createRootWindow.run (.init false withExtension)).2 =
      { RootWindowWin.init false withExtension with native := .alive, hwnd := true, page := .creating } :=
  RootWindowWin.createRootWindow_run rfl rfl

theorem mem_insert {x : Nat} : x ∈ (s.insert w).rootWindows ↔ x = w ∨ x ∈ s.rootWindows := by
  unfold insert
  dsimp only
  split
  · rename_i hmem
    exact ⟨.inr, fun h => h.elim (fun hx => hx ▸ hmem) id⟩
  · exact List.mem_cons

/-- A window that is registered at once. -/
theorem init_insert (extension : Option Bytes) : (s.init extension).insert s.created =
    s.created' (RootWindowWin.createRootWindow.run (.init false extension.isSome)).2 extension []
      (s.insert s.created).rootWindows := by
  unfold created'
  rw [List.append_nil]
  rfl

theorem creates_init (s : Cefclient) (extension : Option Bytes) :
    s.Creates (RootWindowWin.createRootWindow.run (.init false extension.isSome)).2 []
      (s.insert s.created).rootWindows where
  inv := (RootWindowWin.Inv.init false extension.isSome).createRootWindow rfl rfl
  page := by
    rw [createRootWindow_init]
    exact nofun
  news _ := rfl
  tasks t P hahead := absurd hahead not_ahead_nil
  root w hw := mem_insert.2 (.inr hw)
  registered w hw := (mem_insert.1 hw).symm
  placed := .inl (mem_insert.2 (.inl rfl))

theorem creates_uiCreate (s : Cefclient) (extension : Option Bytes) :
    s.Creates (.init false extension.isSome)
      [.createRootWindow s.created, .onRootWindowCreated s.created] s.rootWindows where
  inv := .init false extension.isSome
  page := nofun
  news _ := rfl
  tasks t P hahead := by
    obtain ⟨S, hS⟩ := hahead
    rcases P with _ | ⟨u, P⟩
    · rw [List.nil_append, List.cons.injEq] at hS
      exact .inr ⟨hS.1.symm, List.not_mem_nil, rfl, rfl, rfl⟩
    · rw [List.cons_append, List.cons.injEq] at hS
      rcases P with _ | ⟨v, P⟩
      · rw [List.nil_append, List.cons.injEq] at hS
        exact .inl hS.2.1.symm
      · simp at hS
  root _ hw := hw
  registered _ hw := .inl hw
  placed := .inr (by simp)

theorem creates_popup (s : Cefclient) :
    s.Creates (.init true false) [.onRootWindowCreated s.created] s.rootWindows where
  inv := .init true false
  page := nofun
  news _ := rfl
  tasks t P hahead := by
    rcases ahead_append_singleton (q := []) hahead with hnil | ⟨-, rfl⟩
    exacts [absurd hnil not_ahead_nil, .inl rfl]
  root _ hw := hw
  registered _ hw := .inl hw
  placed := .inr (.head _)

/-! ### The moves -/

inductive Move (s : Cefclient) (e : Event) : Cefclient → Prop
  | same {s' : Cefclient} (hs : s.Same s') : Move s e s'
  | acted {l q : List MainTask} {w : Nat} {win : RootWindowWin} {u : Page}
      (ha : s.Acts l q w win u) : Move s e (s.acted q w win u)
  | created (extension : Option Bytes)
      (he : e = .mainCreate extension ∨ ∃ x, e = .createExtensionWindow x) :
      Move s e ((s.init extension).insert s.created)
  | posted {win : RootWindowWin} {l : List MainTask} (extension : Option Bytes)
      (he : e = .uiCreate extension ∨ ∃ v, s.page v = .open)
      (hc : s.Creates win l s.rootWindows) : Move s e (s.created' win extension l s.rootWindows)
  | registered {w : Nat} {q : List MainTask} (hq : s.mainQueue = .onRootWindowCreated w :: q) :
      Move s e ({ s with mainQueue := q }.insert w)
  | notice {w : Nat} {n : Notice} {u : Page} (hadv : Notice.advance (s.page w) n = some u) :
      Move s e { s with page := Function.update s.page w u, mainQueue := s.mainQueue ++ [n.task w] }
  | command {w : Nat} (input : Json) (hw : w < s.created) (hp : s.page w ≠ .closed) :
      Move s e { s with mainQueue := s.mainQueue ++ [.handleCustomTask w input] }
  | quit {q : List MainTask} (hq : s.mainQueue = .postQuitMessage :: q) :
      Move s e { s with mainQueue := q, quit := true }
  | cleanup {q : List UiTask} (hq : s.uiQueue = .cleanupOnUIThread :: q) :
      Move s e { s with uiQueue := q, mainQueue := s.mainQueue ++ [.postQuitMessage] }

/-- Windows for the extensions, opened while there is another window, and what goes with them. -/
def Extends : Cefclient → Cefclient → Prop :=
  Relation.ReflTransGen fun s s' => s.Same s' ∨
    s.rootWindows ≠ [] ∧ ∃ extension, s' = (s.init extension).insert s.created

theorem Same.extends (hs : s.Same s') : s.Extends s' := .single (.inl hs)

theorem Inv.created (h : s.Inv) (extension : Option Bytes) :
    ((s.init extension).insert s.created).Inv := by
  rw [init_insert]
  exact h.created' (s.creates_init extension) extension

theorem Inv.move (h : s.Inv) (hm : s.Move e t) : t.Inv := by
  cases hm with
  | same hs => exact h.same hs
  | acted ha => exact h.acted ha
  | created extension _ => exact h.created extension
  | posted extension _ hc => exact h.created' hc extension
  | @registered w q hq =>
    refine h.took hq (fun _ => rfl) fun x => ?_
    show x ∈ (s.insert w).rootWindows ↔ _
    rw [mem_insert, or_comm, MainTask.onRootWindowCreated.injEq, eq_comm (a := w)]
  | notice hadv => exact h.notice hadv
  | @command w input hw hp =>
    exact h.postQuiet (fun _ => rfl) ⟨hw, fun hc => hp (h.closes hc)⟩
  | quit hq => exact h.took hq (fun _ => rfl) fun x => by simp
  | cleanup hq => exact h.postQuiet (fun _ => rfl) trivial

theorem Inv.extends (h : s.Inv) (he : s.Extends t) : t.Inv := by
  induction he with
  | refl => exact h
  | tail _ hstep ih =>
    rcases hstep with hs | ⟨-, extension, rfl⟩
    exacts [ih.same hs, ih.created extension]

/-! ### What the manager does for the extensions -/

theorem insert_ne_nil : (s.insert w).rootWindows ≠ [] :=
  List.ne_nil_of_mem (mem_insert.2 (.inl rfl))

theorem extends_createExtensionWindow (extension : Bytes) (hr : s.rootWindows ≠ []) :
    s.Extends (s.createExtensionWindow extension) ∧
      (s.createExtensionWindow extension).rootWindows ≠ [] := by
  unfold createExtensionWindow
  split
  · exact ⟨.refl, hr⟩
  · exact ⟨.single (.inr ⟨hr, _, rfl⟩), insert_ne_nil⟩

theorem extends_foldl {α : Type} {f : Cefclient → α → Cefclient}
    (hf : ∀ s a, s.rootWindows ≠ [] → s.Extends (f s a) ∧ (f s a).rootWindows ≠ []) (l : List α)
    (hr : s.rootWindows ≠ []) : s.Extends (l.foldl f s) ∧ (l.foldl f s).rootWindows ≠ [] := by
  induction l generalizing s with
  | nil => exact ⟨.refl, hr⟩
  | cons a l ih =>
    obtain ⟨hext, hne⟩ := hf s a hr
    obtain ⟨hexts, hnes⟩ := ih hne
    exact ⟨hext.trans hexts, hnes⟩

theorem extends_onExtensionsChanged (hr : s.rootWindows ≠ []) :
    s.Extends s.onExtensionsChanged ∧ s.onExtensionsChanged.rootWindows ≠ [] :=
  extends_foldl (fun _ extension hr => extends_createExtensionWindow extension hr) _ hr

theorem same_onRootWindowActivated (s : Cefclient) (w : Nat) : s.Same (s.onRootWindowActivated w) := by
  unfold onRootWindowActivated
  split_ifs <;> exact ⟨rfl, fun _ => ⟨_, rfl⟩, rfl, rfl, rfl, rfl, rfl, .rfl, rfl⟩

theorem extends_onRootWindowCreated (s : Cefclient) (w : Nat) :
    (s.insert w).Extends (s.onRootWindowCreated w) := by
  have hext := (extends_onExtensionsChanged (s := s.insert w) insert_ne_nil).1
  unfold onRootWindowCreated
  dsimp only
  split_ifs
  · exact .refl
  · exact hext.trans (same_onRootWindowActivated _ w).extends
  · exact hext

theorem extends_addExtension (s : Cefclient) (extension : Bytes) :
    s.Extends (s.addExtension extension) := by
  unfold addExtension
  split
  · exact .refl
  · let s₁ : Cefclient := { s with extensions := s.extensions ++ [extension] }
    have hs : s.Same s₁ := ⟨rfl, fun _ => ⟨_, rfl⟩, rfl, rfl, rfl, rfl, rfl, .rfl, rfl⟩
    refine hs.extends.trans ?_
    show s₁.Extends (s.rootWindows.foldl _ s₁)
    by_cases hr : s.rootWindows = []
    · rw [hr]
      exact .refl
    · refine (extends_foldl (s := s₁) (fun s w hr => ?_) _ hr).1
      split
      exacts [⟨.refl, hr⟩, extends_onExtensionsChanged hr]

/-! ### A step -/

/-- No message is dispatched to a window whose browser the UI thread has reported closed. -/
def InTime (s : Cefclient) : Event → Prop
  | .copyData w _ => s.page w ≠ .closed
  | _ => True

theorem same_onBrowserCreated (s : Cefclient) (w : Nat) : s.Same (s.onBrowserCreated w) := by
  unfold onBrowserCreated
  split_ifs <;> exact ⟨rfl, fun _ => ⟨_, rfl⟩, rfl, rfl, rfl, rfl, rfl, .rfl, rfl⟩

theorem Inv.runMain_moves (h : s.Inv) (again : Bool) {task : MainTask}
    (hq : s.mainQueue = task :: q) :
    ∃ t, s.Move e t ∧ t.Extends ({ s with mainQueue := q }.runMain again task) := by
  cases task with
  | createRootWindow w => exact ⟨_, .acted (h.actsCreateRootWindow hq), .refl⟩
  | onRootWindowCreated w => exact ⟨_, .registered hq, extends_onRootWindowCreated _ w⟩
  | notifyBrowserCreated w =>
    refine ⟨_, .acted (h.actsNotifyBrowserCreated hq), ?_⟩
    rw [acted_page]
    exact (same_onBrowserCreated _ w).extends
  | notifyBrowserClosed w =>
    refine ⟨_, .acted (h.actsNotifyBrowserClosed again hq), ?_⟩
    rw [acted_page]
    exact .refl
  | handleCustomTask w input =>
    have hf : (s.window w).freed = false := h.not_freed (h.head hq).2
    obtain ⟨files, inst, crashed, zooms, heq⟩ := handleCustomTask_eq (q := q) input hf
    refine ⟨_, .acted (h.actsHandleCustomTask hq), ?_⟩
    show Extends _ ({ s with mainQueue := q }.handleCustomTask w input)
    rw [heq]
    refine Same.extends ⟨rfl, fun _ => ⟨_, rfl⟩, rfl, rfl, rfl, rfl, rfl, ?_, rfl⟩
    simp
  | postQuitMessage => exact ⟨_, .quit hq, .refl⟩

theorem runUi_moves {task : UiTask} {uiQueue : List UiTask} (hq : s.uiQueue = task :: uiQueue) :
    ∃ t, s.Move e t ∧ t.Extends ({ s with uiQueue }.runUi task) := by
  cases task with
  | modifyZoom w zoom =>
    have hs : s.Same ({ s with uiQueue }.runUi (.modifyZoom w zoom)) := by
      refine ⟨rfl, fun x => ?_, rfl, rfl, rfl, rfl, rfl, ?_, rfl⟩
      · by_cases hx : x = w
        · subst hx
          exact ⟨_, Function.update_self _ _ _⟩
        · exact ⟨_, Function.update_of_ne hx _ _⟩
      · rw [hq]
        simp [runUi]
    exact ⟨_, .same hs, .refl⟩
  | cleanupOnUIThread => exact ⟨_, .cleanup hq, .refl⟩

theorem Inv.step_moves {parse : Bytes → Option Json} (h : s.Inv) (hC : s.InTime e)
    (hs : s.step parse e = some s') : ∃ t, s.Move e t ∧ t.Extends s' := by
  have hsame : s.Same s := ⟨rfl, fun _ => ⟨_, rfl⟩, rfl, rfl, rfl, rfl, rfl, .rfl, rfl⟩
  unfold step at hs
  split at hs
  · cases hs
  cases e with
  | mainCreate extension =>
    cases hs
    exact ⟨_, .created extension (.inl rfl), extends_onRootWindowCreated _ _⟩
  | uiCreate extension =>
    cases hs
    exact ⟨_, .posted extension (.inl rfl) (s.creates_uiCreate extension), .refl⟩
  | popup opener =>
    obtain ⟨hopen, hs⟩ := Option.ite_none_right_eq_some.1 hs
    cases hs
    exact ⟨_, .posted none (.inr ⟨opener, hopen⟩) s.creates_popup, .refl⟩
  | createExtensionWindow extension =>
    cases hs
    unfold createExtensionWindow
    split
    · exact ⟨s, .same hsame, .refl⟩
    · exact ⟨_, .created _ (.inr ⟨extension, rfl⟩), .refl⟩
  | addExtension extension =>
    cases hs
    exact ⟨s, .same hsame, s.extends_addExtension extension⟩
  | browserCreated w =>
    obtain ⟨hpage, hs⟩ := Option.ite_none_right_eq_some.1 hs
    cases hs
    have hadv : Notice.advance (s.page w) .created = some .open := by rw [hpage]; rfl
    exact ⟨_, .notice hadv, .refl⟩
  | browserClosed w =>
    obtain ⟨hpage, hs⟩ := Option.ite_none_right_eq_some.1 hs
    cases hs
    have hadv : Notice.advance (s.page w) .closed = some .closed := by rw [hpage]; rfl
    exact ⟨_, .notice hadv, .refl⟩
  | activate w =>
    obtain ⟨-, hs⟩ := Option.ite_none_right_eq_some.1 hs
    cases hs
    exact ⟨_, .same (s.same_onRootWindowActivated w), .refl⟩
  | copyData w lpData =>
    obtain ⟨hdata, hs⟩ := Option.ite_none_right_eq_some.1 hs
    split at hs
    · rename_i input _
      cases hs
      have hn : (s.window w).native ≠ .none := by
        intro hnone
        simp [hasUserData, hnone] at hdata
      exact ⟨_, .command input (h.lt_created (.inl hn)) hC, .refl⟩
    · cases hs
      exact ⟨_, .same hsame, .refl⟩
  | beginDestroy w =>
    obtain ⟨hn, hs⟩ := Option.ite_none_right_eq_some.1 hs
    cases hs
    refine ⟨_, .acted (h.actsBeginDestroy hn), ?_⟩
    rw [acted_page]
    exact .refl
  | ncDestroy w =>
    obtain ⟨hn, hs⟩ := Option.ite_none_right_eq_some.1 hs
    cases hs
    refine ⟨_, .acted (h.actsNcDestroy hn), ?_⟩
    rw [acted_page]
    exact .refl
  | runMain again =>
    dsimp only at hs
    split at hs
    · cases hs
    · rename_i task q hq
      cases hs
      exact h.runMain_moves again hq
  | runUi =>
    dsimp only at hs
    split at hs
    · cases hs
    · rename_i task uiQueue hq
      cases hs
      exact runUi_moves hq

theorem Inv.step {parse : Bytes → Option Json} (h : s.Inv) (hC : s.InTime e)
    (hs : s.step parse e = some s') : s'.Inv := by
  obtain ⟨t, hm, hext⟩ := h.step_moves hC hs
  exact (h.move hm).extends hext

theorem Inv.run {parse : Bytes → Option Json} {es : List Event} (h : s.Inv)
    (hr : Lts.Run (Cefclient.step parse) InTime s es t) : t.Inv :=
  hr.inv (fun _ _ _ h hC hs => h.step hC hs) h

/-- Nothing has been created yet. -/
theorem Inv.start (terminateWhenAllWindowsClosed : Bool) (files : Bytes → File) :
    ({ terminateWhenAllWindowsClosed, files } : Cefclient).Inv :=
  Inv.init.same ⟨rfl, fun _ => ⟨_, rfl⟩, rfl, rfl, rfl, rfl, rfl, .rfl, rfl⟩

theorem step_copyData {parse : Bytes → Option Json} {lpData : Bytes} {input : Json}
    (hc : s.crashed = false) (hw : s.hasUserData w = true)
    (hmsg : handleCustomMsg parse lpData = some input) : s.step parse (.copyData w lpData) =
      some { s with mainQueue := s.mainQueue ++ [.handleCustomTask w input] } := by
  simp [step, hc, hw, hmsg]

theorem step_runMain (parse : Bytes → Option Json) (again : Bool) {task : MainTask}
    (hc : s.crashed = false) (hq : s.mainQueue = task :: q) :
    s.step parse (.runMain again) = some ({ s with mainQueue := q }.runMain again task) := by
  simp [step, hc, hq]

theorem stale_runMain (again : Bool) (input : Json) :
    (s.runMain again (.handleCustomTask w input)).stale = (s.stale || (s.window w).freed) := by
  show (s.handleCustomTask w input).stale = _
  unfold handleCustomTask
  exact stale_setWindow

/-- No command runs on a destroyed window. -/
theorem commands_in_time {parse : Bytes → Option Json} {terminateWhenAllWindowsClosed : Bool}
    {files : Bytes → File} {es : List Event}
    (h : Lts.Run (step parse) InTime { terminateWhenAllWindowsClosed, files } es t) :
    t.stale = false :=
  (Inv.run (.start _ _) h).stale

/-- An open window is sent a Quit. -/
theorem commands_in_time_quit :
    let p : BrowserParams := { cmd := lit "Quit", id := lit "main" }
    let dumpFloat : Double → Bytes := fun _ => lit "0.0"
    ∃ text t, p.toJson.dump dumpFloat = some text ∧
      Lts.Run (step parseText) InTime {} [.mainCreate none, .browserCreated 0, .runMain false,
        .copyData 0 (text ++ [0]), .runMain false] t ∧ t.stale = false := by
  intro p dumpFloat
  obtain ⟨text, hdump, hmsg⟩ := BrowserParams.exists_quit_message
  obtain ⟨s, hs, hc, hw, hq, hpage⟩ : ∃ s,
      Lts.exec (step parseText) {} [.mainCreate none, .browserCreated 0, .runMain false] = some s ∧
      s.crashed = false ∧ s.hasUserData 0 = true ∧ s.mainQueue = [] ∧ s.page 0 = .open :=
    ⟨_, rfl, rfl, rfl, rfl, rfl⟩
  have hrun := Lts.run_of_exec_of (C := InTime) (by simp [InTime]) hs
  have hs₁ := step_copyData hc hw hmsg
  rw [hq, List.nil_append] at hs₁
  have htime : s.InTime (.copyData 0 (text ++ [0])) := by simp [InTime, hpage]
  have hlast : ∀ s : Cefclient, s.InTime (.runMain false) := fun _ => trivial
  have h := hrun.append (.cons htime hs₁ (.single (hlast _) (step_runMain _ false hc rfl)))
  exact ⟨text, _, hdump, h, commands_in_time h⟩

/-- The message is dispatched while the report of the UI thread is under way. -/
theorem quit_too_late :
    let p : BrowserParams := { cmd := lit "Quit", id := lit "main" }
    let dumpFloat : Double → Bytes := fun _ => lit "0.0"
    ∃ text t, p.toJson.dump dumpFloat = some text ∧
      Lts.Run (step parseText) Lts.Any {} [.mainCreate none, .browserCreated 0, .runMain false,
        .browserClosed 0, .copyData 0 (text ++ [0]), .runMain false, .runMain false] t ∧
      t.stale = true := by
  intro p dumpFloat
  obtain ⟨text, hdump, hmsg⟩ := BrowserParams.exists_quit_message
  obtain ⟨s, hs, hc, hw, hq, hclosed⟩ : ∃ s,
      Lts.exec (step parseText) {} [.mainCreate none, .browserCreated 0, .runMain false,
        .browserClosed 0] = some s ∧
      s.crashed = false ∧ s.hasUserData 0 = true ∧ s.mainQueue = [.notifyBrowserClosed 0] ∧
      ∀ q, ∃ t, { s with mainQueue := q }.runMain false (.notifyBrowserClosed 0) = t ∧
        t.crashed = false ∧ t.mainQueue = q ∧ (t.window 0).freed = true :=
    ⟨_, rfl, rfl, rfl, rfl, fun q => ⟨_, rfl, rfl, rfl, rfl⟩⟩
  obtain ⟨t, ht, hc', hq', hfreed⟩ := hclosed [.handleCustomTask 0 p.toJson.parsed]
  have hs₁ := step_copyData hc hw hmsg
  rw [hq, List.singleton_append] at hs₁
  let s₁ : Cefclient :=
    { s with mainQueue := [.notifyBrowserClosed 0, .handleCustomTask 0 p.toJson.parsed] }
  have hs₂ : s₁.step parseText (.runMain false) = some t :=
    (step_runMain (s := s₁) _ false hc rfl).trans (congrArg some ht)
  have hs₃ := step_runMain parseText false hc' hq'
  have h := (Lts.run_of_exec hs).append (.cons trivial hs₁ (.cons trivial hs₂ (.single trivial hs₃)))
  refine ⟨text, _, hdump, h, ?_⟩
  rw [stale_runMain, hfreed, Bool.or_true]

end Cefclient

end NplBrowser
