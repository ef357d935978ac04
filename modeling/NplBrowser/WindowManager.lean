import Mathlib.Data.List.InsertIdx
import Mathlib.Logic.Function.Basic
import NplBrowser.Bytes
import NplBrowser.Lib.Run
import NplBrowser.Lib.Walk

/-!
# The window manager (`root_window_manager.cc`, `root_window.cc`)

`RootWindowManager` on its own, over root windows of either kind (`RootWindowWin`,
`RootWindowViews`): all it knows of one is whether it is an extension window and whether its
`GetBrowser()` is set. An event is what the main thread does between two tasks or messages; those of
`CreateRootWindow` on the UI thread are the posted ones.

The sets of the source are ordered by address, so that a new element may land anywhere among the
others: `place`. Only extensions that can be loaded directly are here.
-/

namespace NplBrowser

structure RootWindow where
  id : Nat
  /-- The extension it was created for. -/
  extension : Option Bytes := none
  deriving DecidableEq

def RootWindow.withExtension (w : RootWindow) : Bool := w.extension.isSome

/-- A set ordered by address, with `a` put where its address belongs. -/
def insertAt {α : Type*} (k : Nat) (a : α) (l : List α) : List α := l.insertIdx (k % (l.length + 1)) a

structure RootWindowManager where
  useViews : Bool := false
  place : Nat → Nat := fun _ => 0
  extensionPlace : Bytes → Nat := fun _ => 0
  created : Nat := 0
  /-- `GetBrowser()` of a window is not null. -/
  browser : RootWindow → Bool := fun _ => false
  /-- Created on the UI thread; `OnRootWindowCreated` has been posted. -/
  waiting : List RootWindow := []
  rootWindows : List RootWindow := []
  extensions : List Bytes := []
  activeRootWindow : Option RootWindow := none
  /-- The window whose browser is active. -/
  activeBrowser : Option RootWindow := none

namespace RootWindowManager

def hasRootWindowAsExtension (s : RootWindowManager) (extension : Bytes) : Bool :=
  s.rootWindows.any fun w => w.extension == some extension && s.browser w

/-- `root_windows_.insert(root_window)`. -/
def insert (s : RootWindowManager) (w : RootWindow) : RootWindowManager :=
  { s with
    rootWindows := if w ∈ s.rootWindows then s.rootWindows else insertAt (s.place w.id) w s.rootWindows }

/-- All that `OnRootWindowCreated` does with an extension window is to insert it. -/
def createExtensionWindow (s : RootWindowManager) (extension : Bytes) : RootWindowManager :=
  if s.hasRootWindowAsExtension extension then s
  else { s with created := s.created + 1 }.insert ⟨s.created, some extension⟩

def createExtensionWindows (s : RootWindowManager) (extensions : List Bytes) : RootWindowManager :=
  extensions.foldl createExtensionWindow s

/-- `RootWindow::OnExtensionsChanged`, which `RootWindowViews` overrides: it asks for no windows. -/
def onExtensionsChanged (s : RootWindowManager) : RootWindowManager :=
  if s.useViews then s else s.createExtensionWindows s.extensions

def onRootWindowActivated (s : RootWindowManager) (w : RootWindow) : RootWindowManager :=
  if w.withExtension then s
  else if s.activeRootWindow = some w then s
  else { s with activeRootWindow := some w, activeBrowser := if s.browser w then some w else none }

def onRootWindowCreated (s : RootWindowManager) (w : RootWindow) : RootWindowManager :=
  let s := s.insert w
  if w.withExtension then s
  else
    let s := s.onExtensionsChanged
    if s.rootWindows.length = 1 then s.onRootWindowActivated w else s

/-- The body of the loop of `NotifyExtensionsChanged`. -/
def notify (s : RootWindowManager) (w : RootWindow) : RootWindowManager :=
  if w.withExtension then s else s.onExtensionsChanged

/-- The iterator goes over `root_windows_` itself. The windows it visits are returned as well. -/
def notifyExtensionsChanged (s : RootWindowManager) : Option (RootWindowManager × List RootWindow) :=
  Walk.walk rootWindows notify (s.rootWindows.length * (s.extensions.length + 1)) s s.rootWindows.head?

/-- `extensions_.insert(extension)`. -/
def insertExtension (s : RootWindowManager) (extension : Bytes) : RootWindowManager :=
  { s with extensions := insertAt (s.extensionPlace extension) extension s.extensions }

def addExtension (s : RootWindowManager) (extension : Bytes) : Option RootWindowManager :=
  if s.extensions.contains extension then some s
  else (s.insertExtension extension).notifyExtensionsChanged.map Prod.fst

def onBrowserCreated (s : RootWindowManager) (w : RootWindow) : RootWindowManager :=
  if s.activeRootWindow = some w then { s with activeBrowser := some w } else s

def onRootWindowDestroyed (s : RootWindowManager) (w : RootWindow) : RootWindowManager :=
  let active := s.activeRootWindow = some w
  { s with
    rootWindows := s.rootWindows.filter (· ≠ w)
    activeRootWindow := if active then none else s.activeRootWindow
    activeBrowser := if active then none else s.activeBrowser }

/-! ### Steps -/

inductive Event
  /-- `CreateRootWindow` on the main thread. Showing the native window may activate it at once. -/
  | createRootWindow (activated : Bool)
  /-- `CreateRootWindow` and `CreateRootWindowAsPopup` on the UI thread. -/
  | createOnUIThread
  | onRootWindowCreated (w : RootWindow)
  | createExtensionWindow (extension : Bytes)
  | addExtension (extension : Bytes)
  | onBrowserCreated (w : RootWindow)
  /-- `OnBrowserClosed` of a window that stays for the time being. -/
  | onBrowserClosed (w : RootWindow)
  | onRootWindowActivated (w : RootWindow)
  /-- The window and its browser are both gone. -/
  | onRootWindowDestroyed (w : RootWindow)

def setBrowser (s : RootWindowManager) (w : RootWindow) (b : Bool) : RootWindowManager :=
  { s with browser := Function.update s.browser w b }

/-- The windows that exist. -/
def known (s : RootWindowManager) (w : RootWindow) : Prop := w ∈ s.waiting ∨ w ∈ s.rootWindows

instance (s : RootWindowManager) (w : RootWindow) : Decidable (s.known w) :=
  inferInstanceAs (Decidable (_ ∨ _))

def step (s : RootWindowManager) : Event → Option RootWindowManager
  | .createRootWindow activated =>
    if activated && s.useViews then none
    else
      let w : RootWindow := { id := s.created }
      let s := { s with created := s.created + 1 }
      some ((if activated then s.onRootWindowActivated w else s).onRootWindowCreated w)
  | .createOnUIThread =>
    some { s with created := s.created + 1, waiting := s.waiting ++ [{ id := s.created }] }
  | .onRootWindowCreated w =>
    if w ∈ s.waiting then some ({ s with waiting := s.waiting.erase w }.onRootWindowCreated w) else none
  | .createExtensionWindow extension => some (s.createExtensionWindow extension)
  | .addExtension extension => s.addExtension extension
  | .onBrowserCreated w =>
    if s.known w ∧ s.browser w = false then some ((s.setBrowser w true).onBrowserCreated w) else none
  | .onBrowserClosed w =>
    if s.known w ∧ s.browser w = true then some (s.setBrowser w false) else none
  | .onRootWindowActivated w => if s.known w then some (s.onRootWindowActivated w) else none
  | .onRootWindowDestroyed w =>
    if s.known w then some ((s.setBrowser w false).onRootWindowDestroyed w) else none

/-- The registered windows that are not extension windows. -/
def ordinary (s : RootWindowManager) : List RootWindow := s.rootWindows.filter fun w => !w.withExtension

variable {s t : RootWindowManager} {w : RootWindow} {x : Bytes} {xs : List Bytes}

/-! ### Insertion -/

theorem insertAt_perm {α : Type*} (k : Nat) (a : α) (l : List α) : (insertAt k a l).Perm (a :: l) :=
  List.perm_insertIdx a l (Nat.le_of_lt_succ (Nat.mod_lt _ (Nat.succ_pos _)))

theorem sublist_insertAt {α : Type*} (k : Nat) (a : α) (l : List α) : l.Sublist (insertAt k a l) :=
  List.sublist_insertIdx l _ a

theorem filter_insertAt {α : Type*} {p : α → Bool} {a : α} (h : p a = false) (k : Nat) (l : List α) :
    (insertAt k a l).filter p = l.filter p := by
  have hp := ((insertAt_perm k a l).filter p).length_eq
  rw [List.filter_cons_of_neg (by rw [h]; exact Bool.false_ne_true)] at hp
  exact (((sublist_insertAt k a l).filter p).eq_of_length hp.symm).symm

theorem mem_insert_iff {v : RootWindow} : v ∈ (s.insert w).rootWindows ↔ v = w ∨ v ∈ s.rootWindows := by
  unfold insert
  dsimp only
  split
  · exact ⟨.inr, fun h => h.elim (fun he => he ▸ ‹_›) id⟩
  · exact (insertAt_perm _ _ _).mem_iff.trans List.mem_cons

/-! ### The windows -/

structure Wf (s : RootWindowManager) : Prop where
  nodup : s.rootWindows.Nodup
  fresh : ∀ w, s.known w → w.id < s.created
  waiting : ∀ w ∈ s.waiting, w.extension = none

/-- Extension windows have been created, and nothing else has happened. -/
structure Grows (s t : RootWindowManager) : Prop where
  frame : { t with created := s.created, rootWindows := s.rootWindows } = s
  wf : t.Wf
  sub : s.rootWindows.Sublist t.rootWindows
  ordinary : t.ordinary = s.ordinary

namespace Grows

theorem refl (h : s.Wf) : s.Grows s := ⟨rfl, h, .refl _, rfl⟩

theorem trans {u : RootWindowManager} (h₁ : s.Grows t) (h₂ : t.Grows u) : s.Grows u := by
  refine ⟨?_, h₂.wf, h₁.sub.trans h₂.sub, h₂.ordinary.trans h₁.ordinary⟩
  rw [← h₁.frame, ← h₂.frame]

theorem browser (h : s.Grows t) : t.browser = s.browser := (congrArg RootWindowManager.browser h.frame :)

theorem waiting (h : s.Grows t) : t.waiting = s.waiting := (congrArg RootWindowManager.waiting h.frame :)

theorem useViews (h : s.Grows t) : t.useViews = s.useViews :=
  (congrArg RootWindowManager.useViews h.frame :)

theorem extensions (h : s.Grows t) : t.extensions = s.extensions :=
  (congrArg RootWindowManager.extensions h.frame :)

theorem activeRootWindow (h : s.Grows t) : t.activeRootWindow = s.activeRootWindow :=
  (congrArg RootWindowManager.activeRootWindow h.frame :)

theorem activeBrowser (h : s.Grows t) : t.activeBrowser = s.activeBrowser :=
  (congrArg RootWindowManager.activeBrowser h.frame :)

end Grows

namespace Wf

theorem not_mem (h : s.Wf) (extension : Option Bytes) : (⟨s.created, extension⟩ : RootWindow) ∉ s.rootWindows :=
  fun hw => Nat.lt_irrefl _ (h.fresh _ (.inr hw))

theorem succ (h : s.Wf) : ({ s with created := s.created + 1 } : RootWindowManager).Wf :=
  ⟨h.nodup, fun w hw => Nat.lt_succ_of_lt (h.fresh w hw), h.waiting⟩

theorem insert (h : s.Wf) (hw : w.id < s.created) : (s.insert w).Wf := by
  unfold RootWindowManager.insert
  split
  · exact h
  · have hp := insertAt_perm (s.place w.id) w s.rootWindows
    refine ⟨hp.nodup_iff.2 (List.nodup_cons.2 ⟨‹_›, h.nodup⟩), fun v hv => ?_, h.waiting⟩
    rcases hv with hv | hv
    · exact h.fresh v (.inl hv)
    · rcases List.mem_cons.1 (hp.mem_iff.1 hv) with rfl | hv
      · exact hw
      · exact h.fresh v (.inr hv)

/-- A new window of the number `created` among the others. -/
theorem rootWindows_insert (h : s.Wf) (extension : Option Bytes) :
    ({ s with created := s.created + 1 }.insert ⟨s.created, extension⟩).rootWindows =
      insertAt (s.place s.created) ⟨s.created, extension⟩ s.rootWindows :=
  if_neg (h.not_mem extension)

theorem createExtensionWindow (h : s.Wf) (x : Bytes) : s.Grows (s.createExtensionWindow x) := by
  unfold RootWindowManager.createExtensionWindow
  split
  · exact .refl h
  · refine ⟨rfl, h.succ.insert (Nat.lt_succ_self _), ?_, ?_⟩
    · rw [h.rootWindows_insert]
      exact sublist_insertAt _ _ _
    · unfold RootWindowManager.ordinary
      rw [h.rootWindows_insert]
      exact filter_insertAt rfl _ _

theorem createExtensionWindows (h : s.Wf) (xs : List Bytes) : s.Grows (s.createExtensionWindows xs) := by
  induction xs generalizing s with
  | nil => exact .refl h
  | cons x xs ih => exact (h.createExtensionWindow x).trans (ih (h.createExtensionWindow x).wf)

theorem onExtensionsChanged (h : s.Wf) : s.Grows s.onExtensionsChanged := by
  unfold RootWindowManager.onExtensionsChanged
  split
  · exact .refl h
  · exact h.createExtensionWindows _

theorem notify (h : s.Wf) (w : RootWindow) : s.Grows (s.notify w) := by
  unfold RootWindowManager.notify
  split
  · exact .refl h
  · exact h.onExtensionsChanged

theorem onRootWindowActivated (h : s.Wf) (w : RootWindow) : (s.onRootWindowActivated w).Wf := by
  unfold RootWindowManager.onRootWindowActivated
  split
  · exact h
  · split
    · exact h
    · exact ⟨h.nodup, h.fresh, h.waiting⟩

end Wf

/-! ### `NotifyExtensionsChanged` -/

theorem length_createExtensionWindow (s : RootWindowManager) (x : Bytes) :
    (s.createExtensionWindow x).rootWindows.length ≤ s.rootWindows.length + 1 := by
  unfold RootWindowManager.createExtensionWindow
  split
  · exact Nat.le_succ _
  · unfold RootWindowManager.insert
    dsimp only
    split
    · exact Nat.le_succ _
    · exact (insertAt_perm _ _ _).length_eq.le

theorem length_createExtensionWindows (s : RootWindowManager) (xs : List Bytes) :
    (s.createExtensionWindows xs).rootWindows.length ≤ s.rootWindows.length + xs.length := by
  induction xs generalizing s with
  | nil => exact Nat.le_refl _
  | cons x xs ih =>
    have h₁ := s.length_createExtensionWindow x
    have h₂ := ih (s.createExtensionWindow x)
    rw [List.length_cons]
    show ((s.createExtensionWindow x).createExtensionWindows xs).rootWindows.length ≤ _
    omega

/-- An upper bound on the steps of the loop: a window that asks for `e` others counts for them too. -/
def weight (e : Nat) (w : RootWindow) : Nat := if w.withExtension then 1 else e + 1

theorem total_weight (e : Nat) (l : List RootWindow) :
    Walk.total (weight e) l = l.length + e * (l.filter fun w => !w.withExtension).length := by
  induction l with
  | nil => rfl
  | cons w l ih =>
    rw [Walk.total_cons, ih, weight, List.filter_cons, List.length_cons]
    by_cases hw : w.withExtension = true
    · rw [if_pos hw, if_neg (by simp [hw])]
      omega
    · rw [if_neg hw, if_pos (by simp [hw]), List.length_cons, Nat.mul_add]
      omega

theorem weight_notify (h : s.Wf) (w : RootWindow) :
    Walk.total (weight s.extensions.length) (s.notify w).rootWindows <
      Walk.total (weight s.extensions.length) s.rootWindows + weight s.extensions.length w := by
  rw [total_weight, total_weight, show List.filter _ (s.notify w).rootWindows = _ from (h.notify w).ordinary]
  unfold ordinary notify weight
  split
  · omega
  · have hl : s.onExtensionsChanged.rootWindows.length ≤ s.rootWindows.length + s.extensions.length := by
      unfold onExtensionsChanged
      split
      · exact Nat.le_add_right _ _
      · exact s.length_createExtensionWindows _
    omega

/-- The identifiers that `NotifyExtensionsChanged` asks for a window for, one after the other. -/
def asked (s : RootWindowManager) : List Bytes :=
  if s.useViews then [] else s.ordinary.flatMap fun _ => s.extensions

theorem createExtensionWindows_append (s : RootWindowManager) (xs ys : List Bytes) :
    s.createExtensionWindows (xs ++ ys) = (s.createExtensionWindows xs).createExtensionWindows ys :=
  List.foldl_append

theorem foldl_notify (h : s.Wf) (v : List RootWindow) :
    v.foldl notify s =
      if s.useViews then s
      else s.createExtensionWindows ((v.filter fun w => !w.withExtension).flatMap fun _ => s.extensions) := by
  induction v generalizing s with
  | nil => split <;> rfl
  | cons w v ih =>
    have hg := h.notify w
    rw [List.foldl_cons, ih hg.wf, hg.useViews, hg.extensions]
    by_cases hw : w.withExtension = true
    · rw [List.filter_cons_of_neg (by simp [hw]), notify, if_pos hw]
    · rw [List.filter_cons_of_pos (by simp [hw]), List.flatMap_cons, createExtensionWindows_append,
        notify, if_neg hw, onExtensionsChanged]
      split <;> rfl

/-- The loop ends; it visits the windows that were there when it began, and its effect is that of
one request after the other. -/
theorem Wf.notifyExtensionsChanged (h : s.Wf) :
    ∃ v, s.notifyExtensionsChanged = some (s.createExtensionWindows s.asked, v) ∧
      s.rootWindows.Sublist v := by
  have hI : ∀ t, ∀ w ∈ t.rootWindows, s.Grows t → s.Grows (t.notify w) := fun t w _ hg =>
    hg.trans (hg.wf.notify w)
  have hnd : ∀ t, s.Grows t → t.rootWindows.Nodup := fun t hg => hg.wf.nodup
  have hsub : ∀ t, ∀ w ∈ t.rootWindows, s.Grows t → t.rootWindows.Sublist (t.notify w).rootWindows :=
    fun t w _ hg => (hg.wf.notify w).sub
  have hμ : ∀ t, ∀ w ∈ t.rootWindows, s.Grows t →
      Walk.total (weight s.extensions.length) (t.notify w).rootWindows <
        Walk.total (weight s.extensions.length) t.rootWindows + weight s.extensions.length w :=
    fun t w _ hg => hg.extensions ▸ weight_notify hg.wf w
  have hn : Walk.total (weight s.extensions.length) s.rootWindows ≤
      s.rootWindows.length * (s.extensions.length + 1) := by
    have hf := List.length_filter_le (fun w : RootWindow => !w.withExtension) s.rootWindows
    have hm := Nat.mul_le_mul_left s.extensions.length hf
    rw [total_weight, Nat.mul_add, Nat.mul_comm s.rootWindows.length]
    omega
  obtain ⟨⟨t, v⟩, hw⟩ := Option.isSome_iff_exists.1
    (Walk.walk_isSome hI hnd hsub hμ (p := []) (.refl h) rfl hn)
  obtain ⟨hg, hv, ht⟩ := Walk.walk_visits hI hnd hsub (.refl h) hw
  refine ⟨v, ?_, hv⟩
  -- what the loop visits besides is extension windows
  have hf : (v.filter fun w => !w.withExtension) = s.ordinary := by
    have ho := ht.filter fun w => !w.withExtension
    rw [show List.filter _ t.rootWindows = _ from hg.ordinary] at ho
    exact ho.antisymm (hv.filter _)
  rw [show s.notifyExtensionsChanged = some (t, v) from hw, Walk.walk_eq_foldl hw, foldl_notify h, hf, asked]
  split <;> rfl

/-! ### Steps keep the windows apart -/

theorem created_onRootWindowActivated (s : RootWindowManager) (w : RootWindow) :
    (s.onRootWindowActivated w).created = s.created := by
  unfold onRootWindowActivated
  split
  · rfl
  · split <;> rfl

namespace Wf

theorem onRootWindowCreated (h : s.Wf) (hw : w.id < s.created) : (s.onRootWindowCreated w).Wf := by
  unfold RootWindowManager.onRootWindowCreated
  dsimp only
  split
  · exact h.insert hw
  · have hg := (h.insert hw).onExtensionsChanged.wf
    split
    · exact hg.onRootWindowActivated w
    · exact hg

theorem insertExtension (h : s.Wf) (x : Bytes) : (s.insertExtension x).Wf := ⟨h.nodup, h.fresh, h.waiting⟩

theorem setBrowser (h : s.Wf) (w : RootWindow) (b : Bool) : (s.setBrowser w b).Wf :=
  ⟨h.nodup, h.fresh, h.waiting⟩

theorem onBrowserCreated (h : s.Wf) (w : RootWindow) : (s.onBrowserCreated w).Wf := by
  unfold RootWindowManager.onBrowserCreated
  split
  · exact ⟨h.nodup, h.fresh, h.waiting⟩
  · exact h

theorem onRootWindowDestroyed (h : s.Wf) (w : RootWindow) : (s.onRootWindowDestroyed w).Wf := by
  refine ⟨h.nodup.filter _, fun v hv => h.fresh v ?_, h.waiting⟩
  rcases hv with hv | hv
  · exact .inl hv
  · exact .inr (List.mem_filter.1 hv).1

theorem erase (h : s.Wf) (w : RootWindow) :
    ({ s with waiting := s.waiting.erase w } : RootWindowManager).Wf := by
  refine ⟨h.nodup, fun v hv => h.fresh v ?_, fun v hv => h.waiting v (List.mem_of_mem_erase hv)⟩
  rcases hv with hv | hv
  · exact .inl (List.mem_of_mem_erase hv)
  · exact .inr hv

theorem addExtension (h : s.Wf) (hs : s.addExtension x = some t) :
    s.extensions.contains x = true ∧ t = s ∨
      ¬ s.extensions.contains x = true ∧
        t = (s.insertExtension x).createExtensionWindows (s.insertExtension x).asked := by
  unfold RootWindowManager.addExtension at hs
  split at hs
  · exact .inl ⟨‹_›, (Option.some.inj hs).symm⟩
  · obtain ⟨v, hv, -⟩ := (h.insertExtension x).notifyExtensionsChanged
    rw [hv, Option.map_some] at hs
    exact .inr ⟨‹_›, (Option.some.inj hs).symm⟩

theorem step {e : Event} (h : s.Wf) (hs : s.step e = some t) : t.Wf := by
  cases e with
  | createRootWindow activated =>
    obtain ⟨-, hs⟩ := Option.ite_none_left_eq_some.1 hs
    cases hs
    refine Wf.onRootWindowCreated ?_ ?_
    · split
      · exact h.succ.onRootWindowActivated _
      · exact h.succ
    · split
      · rw [created_onRootWindowActivated]
        exact Nat.lt_succ_self _
      · exact Nat.lt_succ_self _
  | createOnUIThread =>
    cases hs
    refine ⟨h.nodup, fun w hw => ?_, fun w hw => ?_⟩
    · rcases hw with hw | hw
      · rcases List.mem_append.1 hw with hw | hw
        · exact Nat.lt_succ_of_lt (h.fresh w (.inl hw))
        · rw [List.mem_singleton.1 hw]
          exact Nat.lt_succ_self _
      · exact Nat.lt_succ_of_lt (h.fresh w (.inr hw))
    · rcases List.mem_append.1 hw with hw | hw
      · exact h.waiting w hw
      · rw [List.mem_singleton.1 hw]
  | onRootWindowCreated w =>
    obtain ⟨hw, hs⟩ := Option.ite_none_right_eq_some.1 hs
    cases hs
    exact (h.erase w).onRootWindowCreated (h.fresh w (.inl hw))
  | createExtensionWindow x => cases hs; exact (h.createExtensionWindow x).wf
  | addExtension x =>
    rcases h.addExtension hs with ⟨-, rfl⟩ | ⟨-, rfl⟩
    · exact h
    · exact ((h.insertExtension x).createExtensionWindows _).wf
  | onBrowserCreated w =>
    obtain ⟨hw, hs⟩ := Option.ite_none_right_eq_some.1 hs
    cases hs
    exact (h.setBrowser w true).onBrowserCreated w
  | onBrowserClosed w =>
    obtain ⟨hw, hs⟩ := Option.ite_none_right_eq_some.1 hs
    cases hs
    exact h.setBrowser w false
  | onRootWindowActivated w =>
    obtain ⟨hw, hs⟩ := Option.ite_none_right_eq_some.1 hs
    cases hs
    exact h.onRootWindowActivated w
  | onRootWindowDestroyed w =>
    obtain ⟨hw, hs⟩ := Option.ite_none_right_eq_some.1 hs
    cases hs
    exact (h.setBrowser w false).onRootWindowDestroyed w

end Wf

end RootWindowManager

end NplBrowser
