import NplBrowser.ActiveWindow

/-!
# One window for each extension

`CreateExtensionWindow` looks for a window of the extension among those whose browser exists
already. A second request that comes earlier makes a second window, and requests come in crowds:
every new window asks for all extensions, and so does every window when an extension is added.
-/

namespace NplBrowser

namespace RootWindowManager

/-- A window was created for the extension, with or without its browser. -/
def Live (s : RootWindowManager) (extension : Bytes) : Prop :=
  ∃ w ∈ s.rootWindows, w.extension = some extension

instance (s : RootWindowManager) (x : Bytes) : Decidable (s.Live x) :=
  inferInstanceAs (Decidable (∃ w ∈ s.rootWindows, _))

/-- The calls of `CreateExtensionWindow` an event makes, one after the other. -/
def requests (s : RootWindowManager) : Event → List Bytes
  | .createRootWindow _ | .onRootWindowCreated _ => if s.useViews then [] else s.extensions
  | .createExtensionWindow extension => [extension]
  | .addExtension extension =>
    if s.extensions.contains extension then [] else (s.insertExtension extension).asked
  | _ => []

/-- Each extension that is asked for has a window whose browser exists, or it has no window and is
asked for once. -/
def Spaced (s : RootWindowManager) (xs : List Bytes) : Prop :=
  ∀ x ∈ xs, s.hasRootWindowAsExtension x = true ∨ ¬ s.Live x ∧ xs.count x = 1

instance (s : RootWindowManager) (xs : List Bytes) : Decidable (s.Spaced xs) :=
  inferInstanceAs (Decidable (∀ x ∈ xs, _))

def Apart (s : RootWindowManager) (e : Event) : Prop := s.Spaced (s.requests e)

instance (s : RootWindowManager) (e : Event) : Decidable (s.Apart e) :=
  inferInstanceAs (Decidable (Spaced _ _))

/-- No two windows were created for one extension. -/
def Single (s : RootWindowManager) : Prop :=
  ∀ v ∈ s.rootWindows, ∀ w ∈ s.rootWindows, ∀ x, v.extension = some x → w.extension = some x → v = w

variable {s t : RootWindowManager} {w : RootWindow} {x : Bytes} {xs : List Bytes} {e : Event}

/-! ### Requests -/

theorem has_of_subset (hsub : s.rootWindows ⊆ t.rootWindows) (hb : t.browser = s.browser)
    (h : s.hasRootWindowAsExtension x = true) : t.hasRootWindowAsExtension x = true := by
  obtain ⟨w, hw, hx⟩ := List.any_eq_true.1 h
  refine List.any_eq_true.2 ⟨w, hsub hw, ?_⟩
  rwa [hb]

theorem mem_createExtensionWindow (h : s.Wf) (hw : w ∈ (s.createExtensionWindow x).rootWindows) :
    w ∈ s.rootWindows ∨ w.extension = some x := by
  unfold createExtensionWindow at hw
  split at hw
  · exact .inl hw
  · rw [h.rootWindows_insert] at hw
    rcases List.mem_cons.1 ((insertAt_perm _ _ _).mem_iff.1 hw) with rfl | hw
    · exact .inr rfl
    · exact .inl hw

theorem Single.createExtensionWindow (h : s.Single) (hwf : s.Wf) (hx : ¬ s.Live x) :
    (s.createExtensionWindow x).Single := by
  unfold RootWindowManager.createExtensionWindow
  split
  · exact h
  · intro v hv w hw y hvy hwy
    rw [hwf.rootWindows_insert] at hv hw
    rcases List.mem_cons.1 ((insertAt_perm _ _ _).mem_iff.1 hv) with rfl | hv <;>
      rcases List.mem_cons.1 ((insertAt_perm _ _ _).mem_iff.1 hw) with rfl | hw
    · rfl
    · exact absurd ⟨w, hw, hwy.trans hvy.symm⟩ hx
    · exact absurd ⟨v, hv, hvy.trans hwy.symm⟩ hx
    · exact h v hv w hw y hvy hwy

theorem createExtensionWindow_of_has (h : s.hasRootWindowAsExtension x = true) :
    s.createExtensionWindow x = s := if_pos h

/-- One request after the other: each finds the window of the extension, or makes its only one. -/
theorem Single.createExtensionWindows (h : s.Single) (hwf : s.Wf) (hxs : s.Spaced xs) :
    (s.createExtensionWindows xs).Single := by
  induction xs generalizing s with
  | nil => exact h
  | cons x xs ih =>
    rcases hxs x (.head _) with hx | ⟨hx, hc⟩
    · show ((s.createExtensionWindow x).createExtensionWindows xs).Single
      rw [createExtensionWindow_of_has hx]
      refine ih h hwf fun y hy => ?_
      rcases hxs y (.tail _ hy) with hy' | ⟨hy', hc⟩
      · exact .inl hy'
      · by_cases hxy : y = x
        · exact .inl (hxy ▸ hx)
        · exact .inr ⟨hy', by rwa [List.count_cons_of_ne (Ne.symm hxy)] at hc⟩
    · have hg := hwf.createExtensionWindow x
      rw [List.count_cons_self] at hc
      have hnot : x ∉ xs := List.count_eq_zero.1 (Nat.succ.inj hc)
      refine ih (h.createExtensionWindow hwf hx) hg.wf fun y hy => ?_
      have hxy : y ≠ x := fun he => hnot (he ▸ hy)
      rcases hxs y (.tail _ hy) with hy' | ⟨hy', hc⟩
      · exact .inl (has_of_subset hg.sub.subset hg.browser hy')
      · refine .inr ⟨fun ⟨w, hw, hwy⟩ => ?_, by rwa [List.count_cons_of_ne (Ne.symm hxy)] at hc⟩
        rcases mem_createExtensionWindow hwf hw with hw | hwx
        · exact hy' ⟨w, hw, hwy⟩
        · exact hxy (Option.some.inj (hwy.symm.trans hwx))

/-! ### Registration -/

theorem Single.of_subset (h : s.Single) (hsub : t.rootWindows ⊆ s.rootWindows) : t.Single :=
  fun v hv w hw => h v (hsub hv) w (hsub hw)

theorem Single.insert (h : s.Single) (hw : w.extension = none) : (s.insert w).Single := by
  intro u hu v hv x hux hvx
  rcases mem_insert_iff.1 hu with rfl | hu
  · cases hw.symm.trans hux
  · rcases mem_insert_iff.1 hv with rfl | hv
    · cases hw.symm.trans hvx
    · exact h u hu v hv x hux hvx

theorem Spaced.insert (h : s.Spaced xs) (hw : w.extension = none) : (s.insert w).Spaced xs := by
  intro x hx
  rcases h x hx with hh | ⟨hl, hc⟩
  · exact .inl (has_of_subset (s.subset_insert w) rfl hh)
  · refine .inr ⟨fun ⟨v, hv, hvx⟩ => ?_, hc⟩
    rcases mem_insert_iff.1 hv with rfl | hv
    · cases hw.symm.trans hvx
    · exact hl ⟨v, hv, hvx⟩

theorem Spaced.congr (h : s.Spaced xs) (hr : t.rootWindows = s.rootWindows)
    (hb : t.browser = s.browser) : t.Spaced xs := by
  unfold Spaced hasRootWindowAsExtension Live
  rw [hr, hb]
  exact h

theorem Single.onRootWindowCreated (h : s.Single) (hwf : s.Wf) (hlt : w.id < s.created)
    (hw : w.extension = none) (hxs : s.Spaced (if s.useViews then [] else s.extensions)) :
    (s.onRootWindowCreated w).Single := by
  have hx : ¬ w.withExtension = true := by
    unfold RootWindow.withExtension
    rw [hw]
    exact Bool.false_ne_true
  have hi : (s.insert w).onExtensionsChanged.Single := by
    unfold onExtensionsChanged
    split
    · exact h.insert hw
    · rename_i hv
      rw [if_neg (show ¬ s.useViews = true from hv)] at hxs
      exact (h.insert hw).createExtensionWindows (hwf.insert hlt) (hxs.insert hw)
  unfold RootWindowManager.onRootWindowCreated
  dsimp only
  rw [if_neg hx]
  split
  · exact hi.of_subset fun v hv => rootWindows_onRootWindowActivated ▸ hv
  · exact hi

theorem subset_onRootWindowCreated (hwf : s.Wf) (hlt : w.id < s.created) :
    s.rootWindows ⊆ (s.onRootWindowCreated w).rootWindows := by
  unfold RootWindowManager.onRootWindowCreated
  dsimp only
  split
  · exact s.subset_insert w
  · have hsub := (hwf.insert hlt).onExtensionsChanged.sub.subset
    split
    · rw [rootWindows_onRootWindowActivated]
      exact fun v hv => hsub (s.subset_insert w hv)
    · exact fun v hv => hsub (s.subset_insert w hv)

/-! ### Steps -/

theorem shown_frame (s : RootWindowManager) (activated : Bool) :
    { s.shown activated with
      created := s.created, activeRootWindow := s.activeRootWindow,
      activeBrowser := s.activeBrowser } = s := by
  unfold shown onRootWindowActivated
  dsimp only
  split
  · split
    · rfl
    · split <;> rfl
  · rfl

theorem Single.step (h : s.Single) (hwf : s.Wf) (ha : s.Apart e) (hs : s.step e = some t) :
    t.Single ∧ (s.rootWindows ⊆ t.rootWindows ∨ t.rootWindows ⊆ s.rootWindows) := by
  cases e with
  | createRootWindow activated =>
    obtain ⟨-, hs⟩ := Option.ite_none_left_eq_some.1 hs
    obtain rfl : (s.shown activated).onRootWindowCreated { id := s.created } = t := Option.some.inj hs
    have hws := hwf.shown activated
    have hf := s.shown_frame activated
    have hr : (s.shown activated).rootWindows = s.rootWindows := (congrArg rootWindows hf :)
    have hsp : (s.shown activated).Spaced
        (if (s.shown activated).useViews then [] else (s.shown activated).extensions) := by
      rw [show (s.shown activated).useViews = s.useViews from (congrArg useViews hf :),
        show (s.shown activated).extensions = s.extensions from (congrArg extensions hf :)]
      exact Spaced.congr ha hr (congrArg browser hf :)
    refine ⟨Single.onRootWindowCreated (h.of_subset fun v hv => hr ▸ hv) hws.1 hws.2 rfl hsp, .inl ?_⟩
    exact fun v hv => subset_onRootWindowCreated hws.1 hws.2 (hr.symm ▸ hv)
  | createOnUIThread => cases hs; exact ⟨h, .inl (List.Subset.refl _)⟩
  | onRootWindowCreated w =>
    obtain ⟨hw, hs⟩ := Option.ite_none_right_eq_some.1 hs
    cases hs
    have hlt := hwf.fresh w (.inl hw)
    have hsame : ({ s with waiting := s.waiting.erase w } : RootWindowManager).Single := h
    exact ⟨hsame.onRootWindowCreated (hwf.erase w) hlt (hwf.waiting w hw) ha,
      .inl (subset_onRootWindowCreated (hwf.erase w) hlt)⟩
  | createExtensionWindow x =>
    cases hs
    have hone : (s.createExtensionWindows [x]).Single := h.createExtensionWindows hwf ha
    exact ⟨hone, .inl (hwf.createExtensionWindow x).sub.subset⟩
  | addExtension x =>
    have hsp : s.Spaced (if s.extensions.contains x then [] else (s.insertExtension x).asked) := ha
    rcases hwf.addExtension hs with ⟨-, rfl⟩ | ⟨hx, rfl⟩
    · exact ⟨h, .inl (List.Subset.refl _)⟩
    · rw [if_neg hx] at hsp
      have hi : (s.insertExtension x).Single := h
      exact ⟨hi.createExtensionWindows (hwf.insertExtension x) hsp,
        .inl ((hwf.insertExtension x).createExtensionWindows _).sub.subset⟩
  | onBrowserCreated w =>
    obtain ⟨-, hs⟩ := Option.ite_none_right_eq_some.1 hs
    cases hs
    have hr : ((s.setBrowser w true).onBrowserCreated w).rootWindows = s.rootWindows := by
      unfold RootWindowManager.onBrowserCreated
      split <;> rfl
    exact ⟨h.of_subset fun v hv => hr ▸ hv, .inr fun v hv => hr ▸ hv⟩
  | onBrowserClosed w =>
    obtain ⟨-, hs⟩ := Option.ite_none_right_eq_some.1 hs
    cases hs
    exact ⟨h, .inl (List.Subset.refl _)⟩
  | onRootWindowActivated w =>
    obtain ⟨-, hs⟩ := Option.ite_none_right_eq_some.1 hs
    cases hs
    have hr : (s.onRootWindowActivated w).rootWindows = s.rootWindows := rootWindows_onRootWindowActivated
    exact ⟨h.of_subset fun v hv => hr ▸ hv, .inr fun v hv => hr ▸ hv⟩
  | onRootWindowDestroyed w =>
    obtain ⟨-, hs⟩ := Option.ite_none_right_eq_some.1 hs
    cases hs
    have hr : ((s.setBrowser w false).onRootWindowDestroyed w).rootWindows ⊆ s.rootWindows :=
      List.filter_subset_self _
    exact ⟨h.of_subset hr, .inr hr⟩

/-! ### Runs -/

/-- No two windows for one extension; no event makes a window for an extension that has one; the
loop of `AddExtension` ends and visits the windows that were registered when it began. -/
structure ExtensionSafe (s : RootWindowManager) : Prop where
  single : s.Single
  again : ∀ e t, s.Apart e → s.step e = some t → ∀ x, s.Live x →
    ∀ w ∈ t.rootWindows, w.extension = some x → w ∈ s.rootWindows
  visited : ∀ x, ¬ s.extensions.contains x = true →
    ∃ t v, (s.insertExtension x).notifyExtensionsChanged = some (t, v) ∧ s.rootWindows ⊆ v

theorem Single.safe (h : s.Single) (hwf : s.Wf) : s.ExtensionSafe := by
  refine ⟨h, fun e t ha hs x hx w hw hwx => ?_, fun x _ => ?_⟩
  · obtain ⟨v, hv, hvx⟩ := hx
    obtain ⟨ht, hsub | hsub⟩ := h.step hwf ha hs
    · exact ht v (hsub hv) w hw x hvx hwx ▸ hv
    · exact hsub hw
  · obtain ⟨v, hn, hv⟩ := (hwf.insertExtension x).notifyExtensionsChanged
    exact ⟨_, v, hn, hv.subset⟩

theorem extensionWindows_safe {useViews : Bool} {place : Nat → Nat} {extensionPlace : Bytes → Nat}
    {as : List Event} (hr : Lts.Run step Apart { useViews, place, extensionPlace } as s) :
    s.ExtensionSafe := by
  have hi : s.Wf ∧ s.Single := hr.inv (I := fun s => s.Wf ∧ s.Single)
    (fun _ _ _ h ha hs => ⟨h.1.step hs, (h.2.step h.1 ha hs).1⟩)
    ⟨activeInv_initial.wf, fun v hv => by cases hv⟩
  exact hi.2.safe hi.1

/-- A second window and a second extension, after the browser of the first extension's window. -/
theorem extensionWindows_safe_second : ∃ s, Lts.Run step Apart {}
      [.createRootWindow true, .addExtension [1], .onBrowserCreated ⟨1, some [1]⟩,
        .createRootWindow false, .createExtensionWindow [1], .addExtension [1]] s ∧
    s.rootWindows = [⟨2, none⟩, ⟨1, some [1]⟩, ⟨0, none⟩] ∧ s.ExtensionSafe := by
  obtain ⟨s, hs, hw⟩ : ∃ s, Lts.exec (Lts.checked step Apart) {}
      [.createRootWindow true, .addExtension [1], .onBrowserCreated ⟨1, some [1]⟩,
        .createRootWindow false, .createExtensionWindow [1], .addExtension [1]] = some s ∧
      s.rootWindows = [⟨2, none⟩, ⟨1, some [1]⟩, ⟨0, none⟩] := ⟨_, rfl, rfl⟩
  have hr := Lts.run_of_checked hs
  exact ⟨s, hr, hw, extensionWindows_safe hr⟩

/-- Two windows are opened before the browser of the extension's window exists. -/
theorem extensionWindows_unsafe :
    ¬ ∀ as s, Lts.Run step Lts.Any {} as s → s.Single := by
  intro h
  obtain ⟨s, hs, hw⟩ : ∃ s, Lts.exec step {}
      [.addExtension [1], .createRootWindow true, .createRootWindow true] = some s ∧
      s.rootWindows = [⟨3, some [1]⟩, ⟨2, none⟩, ⟨1, some [1]⟩, ⟨0, none⟩] := ⟨_, rfl, rfl⟩
  have hne := h _ s (Lts.run_of_exec hs) ⟨3, some [1]⟩ (by rw [hw]; exact .head _) ⟨1, some [1]⟩
    (by rw [hw]; exact .tail _ (.tail _ (.head _))) [1] rfl rfl
  cases hne

end RootWindowManager

end NplBrowser
