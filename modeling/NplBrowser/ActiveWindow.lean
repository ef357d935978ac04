import NplBrowser.WindowManager

/-!
# The active window and browser

`active_root_window_` and `active_browser_` are written by `OnRootWindowActivated`,
`OnBrowserCreated` and `OnRootWindowDestroyed`, and by `OnRootWindowCreated` for the first window.
Between two events of the main thread the two point to a registered window and to its browser, as
long as a window is activated only once it is registered and an active window keeps its browser.
-/

namespace NplBrowser

namespace RootWindowManager

/-- Another window that is no extension window is registered, or there is none at all and
`OnExtensionsChanged` creates none: what makes the test on the size of `root_windows_` work. -/
def Counted (s : RootWindowManager) : Prop :=
  s.ordinary ≠ [] ∨ s.rootWindows = [] ∧ (s.useViews = true ∨ s.extensions = [])

instance (s : RootWindowManager) : Decidable s.Counted := inferInstanceAs (Decidable (_ ∨ _))

/-- A window is activated when it is registered, in the same task at the latest, and the first one
is counted unless it is active already; the browser of an active window outlives it. -/
def Ready (s : RootWindowManager) : Event → Prop
  | .createRootWindow activated => activated = true ∨ s.Counted
  | .onRootWindowCreated _ => s.Counted
  | .onBrowserClosed w => s.activeRootWindow ≠ some w
  | .onRootWindowActivated w => w.withExtension = true ∨ w ∈ s.rootWindows
  | _ => True

instance (s : RootWindowManager) : (e : Event) → Decidable (Ready s e)
  | .createRootWindow activated => inferInstanceAs (Decidable (activated = true ∨ s.Counted))
  | .onRootWindowCreated _ => inferInstanceAs (Decidable s.Counted)
  | .onBrowserClosed w => inferInstanceAs (Decidable (s.activeRootWindow ≠ some w))
  | .onRootWindowActivated w =>
    inferInstanceAs (Decidable (w.withExtension = true ∨ w ∈ s.rootWindows))
  | .createOnUIThread | .createExtensionWindow _ | .addExtension _ | .onBrowserCreated _
  | .onRootWindowDestroyed _ => isTrue trivial

/-- `active_browser_` is what `GetBrowser()` of the active window returns. -/
def BrowserMatches (s : RootWindowManager) : Prop := s.activeBrowser = s.activeRootWindow.filter s.browser

/-- The active window is registered or is `w`, and no extension window. -/
def ActiveOr (s : RootWindowManager) (w : RootWindow) : Prop :=
  ∀ v, s.activeRootWindow = some v → (v = w ∨ v ∈ s.rootWindows) ∧ v.withExtension = false

structure ActiveInv (s : RootWindowManager) : Prop where
  wf : s.Wf
  member : ∀ v, s.activeRootWindow = some v → v ∈ s.rootWindows ∧ v.withExtension = false
  browser : s.BrowserMatches

variable {s t : RootWindowManager} {w : RootWindow} {x : Bytes} {e : Event}

/-! ### Activation -/

theorem BrowserMatches.onRootWindowActivated (h : s.BrowserMatches) (w : RootWindow) :
    (s.onRootWindowActivated w).BrowserMatches := by
  unfold RootWindowManager.onRootWindowActivated
  split
  · exact h
  · split
    · exact h
    · show (if s.browser w then some w else none) = (some w).filter s.browser
      rw [Option.filter_some]

theorem BrowserMatches.congr (h : s.BrowserMatches) (hr : t.activeRootWindow = s.activeRootWindow)
    (hb : t.activeBrowser = s.activeBrowser)
    (hw : ∀ v, s.activeRootWindow = some v → t.browser v = s.browser v) : t.BrowserMatches := by
  unfold BrowserMatches at h ⊢
  rw [hb, hr, h]
  cases he : s.activeRootWindow with
  | none => rfl
  | some v => rw [Option.filter_some, Option.filter_some, hw v he]

theorem activeRootWindow_onRootWindowActivated (hw : w.withExtension = false) :
    (s.onRootWindowActivated w).activeRootWindow = some w := by
  unfold onRootWindowActivated
  rw [if_neg (by rw [hw]; exact Bool.false_ne_true)]
  split
  · assumption
  · rfl

theorem rootWindows_onRootWindowActivated : (s.onRootWindowActivated w).rootWindows = s.rootWindows := by
  unfold onRootWindowActivated
  split
  · rfl
  · split <;> rfl

theorem ActiveOr.onRootWindowActivated {v : RootWindow} (h : s.ActiveOr v) (hw : w = v ∨ w ∈ s.rootWindows) :
    (s.onRootWindowActivated w).ActiveOr v := by
  intro u hu
  rw [rootWindows_onRootWindowActivated]
  cases hx : w.withExtension with
  | false =>
    rw [activeRootWindow_onRootWindowActivated hx] at hu
    cases hu
    exact ⟨hw, hx⟩
  | true =>
    unfold RootWindowManager.onRootWindowActivated at hu
    rw [if_pos hx] at hu
    exact h u hu

namespace ActiveInv

theorem activeOr (h : s.ActiveInv) (w : RootWindow) : s.ActiveOr w := fun v hv =>
  ⟨.inr (h.member v hv).1, (h.member v hv).2⟩

theorem of_activeOr (hwf : s.Wf) (h : s.ActiveOr w) (hw : w ∈ s.rootWindows) (hb : s.BrowserMatches) :
    s.ActiveInv := by
  refine ⟨hwf, fun v hv => ?_, hb⟩
  obtain ⟨rfl | hv', hx⟩ := h v hv
  · exact ⟨hw, hx⟩
  · exact ⟨hv', hx⟩

theorem grows (h : s.ActiveInv) (hg : s.Grows t) : t.ActiveInv := by
  refine ⟨hg.wf, fun v hv => ?_, ?_⟩
  · obtain ⟨hv', hx⟩ := h.member v (hg.activeRootWindow ▸ hv)
    exact ⟨hg.sub.subset hv', hx⟩
  · unfold BrowserMatches
    rw [hg.activeBrowser, hg.activeRootWindow, hg.browser]
    exact h.browser

theorem onRootWindowActivated (h : s.ActiveInv) (hw : w.withExtension = true ∨ w ∈ s.rootWindows) :
    (s.onRootWindowActivated w).ActiveInv := by
  rcases hw with hw | hw
  · unfold RootWindowManager.onRootWindowActivated
    rwa [if_pos hw]
  · refine of_activeOr (h.wf.onRootWindowActivated w)
      ((h.activeOr w).onRootWindowActivated (.inl rfl)) ?_ (h.browser.onRootWindowActivated w)
    rwa [rootWindows_onRootWindowActivated]

end ActiveInv

/-! ### Registration -/

theorem mem_insert (s : RootWindowManager) (w : RootWindow) : w ∈ (s.insert w).rootWindows :=
  mem_insert_iff.2 (.inl rfl)

theorem subset_insert (s : RootWindowManager) (w : RootWindow) :
    s.rootWindows ⊆ (s.insert w).rootWindows := fun _ hv => mem_insert_iff.2 (.inr hv)

theorem ActiveInv.onRootWindowCreated (hwf : s.Wf) (hw : w.id < s.created) (h : s.ActiveOr w)
    (hb : s.BrowserMatches) : (s.onRootWindowCreated w).ActiveInv := by
  have hi : (s.insert w).ActiveInv := by
    refine .of_activeOr (hwf.insert hw) (w := w) (fun v hv => ?_) (s.mem_insert w) hb
    obtain ⟨hv', hx⟩ := h v hv
    exact ⟨hv'.imp id fun hv' => s.subset_insert w hv', hx⟩
  unfold RootWindowManager.onRootWindowCreated
  dsimp only
  split
  · exact hi
  · have hg := hi.wf.onExtensionsChanged
    split
    · exact (hi.grows hg).onRootWindowActivated (.inr (hg.sub.subset (s.mem_insert w)))
    · exact hi.grows hg

/-- A window that is registered while no other of its kind is becomes the active one. -/
theorem onRootWindowCreated_active (hwf : s.Wf) (hw : w.id < s.created) (hx : w.withExtension = false)
    (h : s.activeRootWindow = some w ∨
      s.rootWindows = [] ∧ (s.useViews = true ∨ s.extensions = [])) :
    (s.onRootWindowCreated w).activeRootWindow = some w := by
  have hg := (hwf.insert hw).onExtensionsChanged
  unfold onRootWindowCreated
  dsimp only
  rw [if_neg (by rw [hx]; exact Bool.false_ne_true)]
  rcases h with h | ⟨hr, he⟩
  · split
    · exact activeRootWindow_onRootWindowActivated hx
    · rw [hg.activeRootWindow]
      exact h
  · have hsame : (s.insert w).onExtensionsChanged = s.insert w := by
      unfold onExtensionsChanged
      split
      · rfl
      · rename_i hv
        rw [show (s.insert w).extensions = [] from he.resolve_left hv]
        rfl
    have hl : (s.insert w).rootWindows.length = 1 := by
      unfold insert
      rw [if_neg (by rw [hr]; exact List.not_mem_nil), (insertAt_perm _ _ _).length_eq, hr]
      rfl
    rw [hsame, if_pos hl]
    exact activeRootWindow_onRootWindowActivated hx

/-! ### Steps -/

theorem activeInv_initial {useViews : Bool} {place : Nat → Nat} {extensionPlace : Bytes → Nat} :
    ActiveInv { useViews, place, extensionPlace } := by
  refine ⟨⟨.nil, fun w hw => ?_, fun w hw => ?_⟩, fun v hv => ?_, rfl⟩
  · rcases hw with hw | hw <;> cases hw
  · cases hw
  · cases hv

/-- `CreateRootWindow` before `OnRootWindowCreated`. -/
def shown (s : RootWindowManager) (activated : Bool) : RootWindowManager :=
  let s' := { s with created := s.created + 1 }
  if activated then s'.onRootWindowActivated { id := s.created } else s'

theorem shown_true (s : RootWindowManager) :
    s.shown true =
      ({ s with created := s.created + 1 } : RootWindowManager).onRootWindowActivated { id := s.created } :=
  rfl

theorem Wf.shown (h : s.Wf) (activated : Bool) :
    (s.shown activated).Wf ∧ s.created < (s.shown activated).created := by
  cases activated with
  | false => exact ⟨h.succ, Nat.lt_succ_self _⟩
  | true =>
    rw [shown_true, created_onRootWindowActivated]
    exact ⟨h.succ.onRootWindowActivated _, Nat.lt_succ_self _⟩

namespace ActiveInv

theorem shown (h : s.ActiveInv) (activated : Bool) :
    (s.shown activated).ActiveOr { id := s.created } ∧ (s.shown activated).BrowserMatches := by
  have ho : ActiveOr { s with created := s.created + 1 } { id := s.created } := h.activeOr _
  cases activated with
  | false => exact ⟨ho, h.browser⟩
  | true =>
    have hb : BrowserMatches { s with created := s.created + 1 } := h.browser
    rw [shown_true]
    exact ⟨ho.onRootWindowActivated (.inl rfl), hb.onRootWindowActivated _⟩

theorem onBrowserCreated (h : s.ActiveInv) (w : RootWindow) :
    ((s.setBrowser w true).onBrowserCreated w).ActiveInv := by
  have hwf := (h.wf.setBrowser w true).onBrowserCreated w
  unfold RootWindowManager.onBrowserCreated at hwf ⊢
  split
  · rename_i hw
    rw [if_pos hw] at hwf
    refine ⟨hwf, h.member, ?_⟩
    show some w = Option.filter (Function.update s.browser w true) s.activeRootWindow
    rw [show s.activeRootWindow = some w from hw, Option.filter_some, Function.update_self, if_pos rfl]
  · rename_i hw
    rw [if_neg hw] at hwf
    refine ⟨hwf, h.member, h.browser.congr rfl rfl fun v hv => ?_⟩
    exact Function.update_of_ne (fun he : v = w => hw (he ▸ hv)) true s.browser

theorem onBrowserClosed (h : s.ActiveInv) (hw : s.activeRootWindow ≠ some w) :
    (s.setBrowser w false).ActiveInv := by
  refine ⟨h.wf.setBrowser w false, h.member, h.browser.congr rfl rfl fun v hv => ?_⟩
  exact Function.update_of_ne (fun he : v = w => hw (he ▸ hv)) false s.browser

theorem onRootWindowDestroyed (h : s.ActiveInv) (w : RootWindow) :
    ((s.setBrowser w false).onRootWindowDestroyed w).ActiveInv := by
  refine ⟨(h.wf.setBrowser w false).onRootWindowDestroyed w, fun v hv => ?_, ?_⟩
  · obtain ⟨hne, hv⟩ := Option.ite_none_left_eq_some.1 hv
    obtain ⟨hm, hx⟩ := h.member v hv
    exact ⟨List.mem_filter.2 ⟨hm, decide_eq_true fun he => hne (he ▸ hv)⟩, hx⟩
  · show (if s.activeRootWindow = some w then none else s.activeBrowser) =
      Option.filter (Function.update s.browser w false)
        (if s.activeRootWindow = some w then none else s.activeRootWindow)
    split
    · rfl
    · exact (h.onBrowserClosed ‹_›).browser

theorem addExtension (h : s.ActiveInv) (hs : s.addExtension x = some t) : t.ActiveInv := by
  rcases h.wf.addExtension hs with ⟨-, rfl⟩ | ⟨-, rfl⟩
  · exact h
  · have hi : (s.insertExtension x).ActiveInv := ⟨h.wf.insertExtension x, h.member, h.browser⟩
    exact hi.grows (hi.wf.createExtensionWindows _)

theorem step (h : s.ActiveInv) (hr : Ready s e) (hs : s.step e = some t) : t.ActiveInv := by
  have hwf := h.wf
  cases e with
  | createRootWindow activated =>
    obtain ⟨-, hs⟩ := Option.ite_none_left_eq_some.1 hs
    cases hs
    exact .onRootWindowCreated (hwf.shown activated).1 (hwf.shown activated).2 (h.shown activated).1
      (h.shown activated).2
  | createOnUIThread => cases hs; exact ⟨hwf.step (e := .createOnUIThread) rfl, h.member, h.browser⟩
  | onRootWindowCreated w =>
    obtain ⟨hw, hs⟩ := Option.ite_none_right_eq_some.1 hs
    cases hs
    exact .onRootWindowCreated (hwf.erase w) (hwf.fresh w (.inl hw)) (h.activeOr w) h.browser
  | createExtensionWindow x => cases hs; exact h.grows (hwf.createExtensionWindow x)
  | addExtension x => exact h.addExtension hs
  | onBrowserCreated w =>
    obtain ⟨-, hs⟩ := Option.ite_none_right_eq_some.1 hs
    cases hs
    exact h.onBrowserCreated w
  | onBrowserClosed w =>
    obtain ⟨-, hs⟩ := Option.ite_none_right_eq_some.1 hs
    cases hs
    exact h.onBrowserClosed hr
  | onRootWindowActivated w =>
    obtain ⟨-, hs⟩ := Option.ite_none_right_eq_some.1 hs
    cases hs
    exact h.onRootWindowActivated hr
  | onRootWindowDestroyed w =>
    obtain ⟨-, hs⟩ := Option.ite_none_right_eq_some.1 hs
    cases hs
    exact h.onRootWindowDestroyed w

end ActiveInv

theorem Counted.of_ordinary (h : s.Counted) (ho : s.ordinary = []) :
    s.rootWindows = [] ∧ (s.useViews = true ∨ s.extensions = []) := h.resolve_left fun hne => hne ho

theorem ordinary_subset (h : t.rootWindows = s.rootWindows) (hw : w ∈ t.ordinary) : w ∈ s.rootWindows :=
  h ▸ (List.mem_filter.1 hw).1

/-- What `OnRootWindowCreated` registers besides `w` is extension windows. -/
theorem mem_ordinary_onRootWindowCreated {v : RootWindow} (hwf : s.Wf) (hw : w.id < s.created)
    (hv : v ∈ (s.onRootWindowCreated w).ordinary) : v = w ∨ v ∈ s.rootWindows := by
  have ho : (s.onRootWindowCreated w).ordinary = (s.insert w).ordinary := by
    unfold onRootWindowCreated
    dsimp only
    split
    · rfl
    · have hg := (hwf.insert hw).onExtensionsChanged
      split
      · unfold ordinary
        rw [rootWindows_onRootWindowActivated]
        exact hg.ordinary
      · exact hg.ordinary
  rw [ho] at hv
  exact mem_insert_iff.1 (List.mem_filter.1 hv).1

/-- A step that registers the only window of its kind makes it the active one. -/
theorem step_first (h : s.ActiveInv) (hr : Ready s e) (hs : s.step e = some t) (ho : s.ordinary = [])
    (hnew : w ∉ s.rootWindows) (hw : w ∈ t.ordinary) : t.activeRootWindow = some w := by
  have hwf := h.wf
  have hx : w.withExtension = false := Bool.not_eq_true' _ ▸ (List.mem_filter.1 hw).2
  cases e with
  | createRootWindow activated =>
    obtain ⟨-, hs⟩ := Option.ite_none_left_eq_some.1 hs
    cases hs
    have hws := hwf.shown activated
    rcases mem_ordinary_onRootWindowCreated hws.1 hws.2 hw with rfl | hw'
    · refine onRootWindowCreated_active hws.1 hws.2 rfl ?_
      cases activated with
      | false => exact .inr (Counted.of_ordinary (hr.resolve_left Bool.false_ne_true) ho)
      | true =>
        refine .inl ?_
        show (s.shown true).activeRootWindow = _
        rw [shown_true]
        exact activeRootWindow_onRootWindowActivated rfl
    · refine absurd ?_ hnew
      cases activated with
      | false => exact hw'
      | true => rwa [shown_true, rootWindows_onRootWindowActivated] at hw'
  | createOnUIThread => cases hs; exact absurd (ordinary_subset rfl hw) hnew
  | onRootWindowCreated v =>
    obtain ⟨hv, hs⟩ := Option.ite_none_right_eq_some.1 hs
    cases hs
    have hlt := hwf.fresh v (.inl hv)
    rcases mem_ordinary_onRootWindowCreated (hwf.erase v) hlt hw with rfl | hw'
    · exact onRootWindowCreated_active (hwf.erase w) hlt hx (.inr (Counted.of_ordinary hr ho))
    · exact absurd hw' hnew
  | createExtensionWindow x =>
    cases hs
    rw [(hwf.createExtensionWindow x).ordinary, ho] at hw
    cases hw
  | addExtension x =>
    rcases hwf.addExtension hs with ⟨-, rfl⟩ | ⟨-, rfl⟩
    · rw [ho] at hw
      cases hw
    · rw [((hwf.insertExtension x).createExtensionWindows _).ordinary,
        show (s.insertExtension x).ordinary = s.ordinary from rfl, ho] at hw
      cases hw
  | onBrowserCreated v =>
    obtain ⟨-, hs⟩ := Option.ite_none_right_eq_some.1 hs
    cases hs
    refine absurd (ordinary_subset ?_ hw) hnew
    unfold RootWindowManager.onBrowserCreated
    split <;> rfl
  | onBrowserClosed v =>
    obtain ⟨-, hs⟩ := Option.ite_none_right_eq_some.1 hs
    cases hs
    exact absurd (ordinary_subset rfl hw) hnew
  | onRootWindowActivated v =>
    obtain ⟨-, hs⟩ := Option.ite_none_right_eq_some.1 hs
    cases hs
    exact absurd (ordinary_subset rootWindows_onRootWindowActivated hw) hnew
  | onRootWindowDestroyed v =>
    obtain ⟨-, hs⟩ := Option.ite_none_right_eq_some.1 hs
    cases hs
    exact absurd (List.mem_filter.1 (List.mem_filter.1 hw).1).1 hnew

/-! ### Runs -/

/-- What holds between two events; the last field is about the event that comes next. -/
structure ActiveSafe (C : RootWindowManager → Event → Prop) (s : RootWindowManager) : Prop where
  window : ∀ w, s.activeRootWindow = some w → w ∈ s.rootWindows ∧ w.withExtension = false
  browser : ∀ w, s.activeBrowser = some w → s.activeRootWindow = some w ∧ s.browser w = true
  noBrowser : s.activeBrowser = none → ∀ w, s.activeRootWindow = some w → s.browser w = false
  first : ∀ e t w, C s e → s.step e = some t → s.ordinary = [] → w ∉ s.rootWindows → w ∈ t.ordinary →
    t.activeRootWindow = some w

theorem ActiveInv.safe (h : s.ActiveInv) : s.ActiveSafe Ready := by
  refine ⟨h.member, fun w hw => ?_, fun hn w hw => ?_, fun e t w hr hs ho hnew hw => ?_⟩
  · exact Option.filter_eq_some_iff.1 (h.browser ▸ hw)
  · have hb : s.activeBrowser = s.activeRootWindow.filter s.browser := h.browser
    rw [hn, hw, Option.filter_some] at hb
    cases hx : s.browser w with
    | false => rfl
    | true => rw [hx] at hb; cases hb
  · exact step_first h hr hs ho hnew hw

theorem activeWindow_safe {useViews : Bool} {place : Nat → Nat} {extensionPlace : Bytes → Nat}
    {as : List Event} (hr : Lts.Run step Ready { useViews, place, extensionPlace } as s) :
    s.ActiveSafe Ready :=
  (hr.inv (I := ActiveInv) (fun _ _ _ h hready hs => h.step hready hs) activeInv_initial).safe

/-- A second window, created on the UI thread, becomes the active one. -/
theorem activeWindow_safe_second : ∃ s, Lts.Run step Ready {}
      [.createRootWindow true, .onBrowserCreated { id := 0 }, .addExtension [1], .createOnUIThread,
        .onRootWindowCreated { id := 2 }, .onRootWindowActivated { id := 2 }] s ∧
    s.activeRootWindow = some { id := 2 } ∧ s.ActiveSafe Ready := by
  obtain ⟨s, hs, ha⟩ : ∃ s, Lts.exec (Lts.checked step Ready) {}
      [.createRootWindow true, .onBrowserCreated { id := 0 }, .addExtension [1], .createOnUIThread,
        .onRootWindowCreated { id := 2 }, .onRootWindowActivated { id := 2 }] = some s ∧
      s.activeRootWindow = some { id := 2 } := ⟨_, rfl, rfl⟩
  have hr := Lts.run_of_checked hs
  exact ⟨s, hr, ha, activeWindow_safe hr⟩

/-- A window is activated before `OnRootWindowCreated` has run for it; the browser of the active
window is closed before the window is; an extension was loaded before there was a window. -/
theorem activeWindow_unsafe :
    (¬ ∀ as s, Lts.Run step Lts.Any {} as s →
      ∀ w, s.activeRootWindow = some w → w ∈ s.rootWindows) ∧
    (¬ ∀ as s, Lts.Run step Lts.Any { useViews := true } as s →
      ∀ w, s.activeBrowser = some w → s.browser w = true) ∧
    ¬ ∀ as s, Lts.Run step Lts.Any {} as s →
      ∀ e t w, s.step e = some t → s.ordinary = [] → w ∉ s.rootWindows → w ∈ t.ordinary →
        t.activeRootWindow = some w := by
  refine ⟨fun h => ?_, fun h => ?_, fun h => ?_⟩
  · obtain ⟨s, hs, ha, hr⟩ : ∃ s, Lts.exec step {}
        [.createOnUIThread, .onRootWindowActivated { id := 0 }] = some s ∧
        s.activeRootWindow = some { id := 0 } ∧ s.rootWindows = [] := ⟨_, rfl, rfl, rfl⟩
    have hmem := h _ s (Lts.run_of_exec hs) _ ha
    rw [hr] at hmem
    cases hmem
  · obtain ⟨s, hs, ha, hb⟩ : ∃ s, Lts.exec step { useViews := true }
        [.createRootWindow false, .onBrowserCreated { id := 0 }, .onBrowserClosed { id := 0 }] = some s ∧
        s.activeBrowser = some { id := 0 } ∧ s.browser { id := 0 } = false := ⟨_, rfl, rfl, rfl⟩
    have hbr := h _ s (Lts.run_of_exec hs) _ ha
    rw [hb] at hbr
    cases hbr
  · obtain ⟨s, t, hs, hst, ho, hr, ht, ha⟩ : ∃ s t, Lts.exec step {} [.addExtension [1]] = some s ∧
        s.step (.createRootWindow false) = some t ∧ s.ordinary = [] ∧ s.rootWindows = [] ∧
        t.ordinary = [{ id := 0 }] ∧ t.activeRootWindow = none := ⟨_, _, rfl, rfl, rfl, rfl, rfl, rfl⟩
    have hact := h _ s (Lts.run_of_exec hs) _ t { id := 0 } hst ho (by rw [hr]; exact List.not_mem_nil)
      (by rw [ht]; exact .head _)
    rw [ha] at hact
    cases hact

end RootWindowManager

end NplBrowser
