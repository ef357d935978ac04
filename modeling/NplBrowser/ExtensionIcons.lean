import NplBrowser.ExtensionControls

/-!
# The last update wins

Icons are loaded in the order they are asked for, so of the updates of a window that have to wait
the last one is answered last. It is the update that is answered at once that can come too early.
-/

namespace NplBrowser

open ImageCache

/-- The icon of `e`: an image made from its own path or, where there is none or it could not be
made, the default icon. -/
def OwnIcon (c : List (Load × Option Image)) (e : Extension) (icon : Option Image) : Prop :=
  (∃ image, icon = some image ∧ image.load.id = e.iconPath) ∨
    Made c (iconInfo e) none ∧ ∀ image, icon = some image → image.load.id = kDefaultExtensionIcon

theorem OwnIcon.mono {c c' : List (Load × Option Image)} {e : Extension} {icon : Option Image}
    (h : OwnIcon c e icon) (hc : c ⊆ c') : OwnIcon c' e icon :=
  h.imp id fun h => ⟨h.1.mono hc, h.2⟩

theorem iconInfo_id {e : Extension} (h : (iconInfo e).id ≠ kEmptyId) : (iconInfo e).id = e.iconPath := by
  unfold iconInfo at h ⊢
  split
  · rename_i he
    rw [if_pos he] at h
    exact absurd rfl h
  · rfl

/-- What `OnExtensionIconsLoaded` makes of an entry for `e`. -/
theorem ownIcon_of_made {s : ImageCache} (h : Sound s []) {e : Extension} {image : Option Image}
    (hm : Made s.created (iconInfo e) image) :
    OwnIcon s.created e (image.or (s.imageMap.getCachedImage kDefaultExtensionIcon)) := by
  cases image with
  | none =>
    refine .inr ⟨hm, fun image hi => ?_⟩
    have hdef : s.imageMap kDefaultExtensionIcon = some (some image) := Option.join_eq_some_iff.1 hi
    obtain ⟨load, hid, hmem⟩ := h.map _ _ hdef
    rw [h.load load image hmem, hid]
  | some image =>
    rcases hm with ⟨-, he⟩ | ⟨load, hid, hmem⟩
    · cases he
    · have hne : (iconInfo e).id ≠ kEmptyId := hid ▸ h.named _ hmem
      exact .inl ⟨image, rfl, by rw [h.load load image hmem, hid, iconInfo_id hne]⟩

namespace RootWindowViews

variable {w : RootWindowViews} {l : List (Extension × Option Image)}

theorem setExtensions_frame (w : RootWindowViews) (l : List (Extension × Option Image)) :
    { w.setExtensions l with extensions := w.extensions, controls := w.controls } = w := by
  unfold setExtensions updateExtensionControls
  split <;> rfl

theorem extensions_setExtensions : (w.setExtensions l).extensions = l := by
  unfold setExtensions updateExtensionControls
  split <;> rfl

theorem controls_setExtensions (h : w.withControls = true) : (w.setExtensions l).controls = l.take 11 := by
  unfold setExtensions updateExtensionControls
  rw [if_pos h]

end RootWindowViews

namespace Views

variable {addRep : RepContent → Bool} {s t : Views} {v w : Nat} {E : List Extension}
  {images : List (Option Image)}

/-- Apart from the windows. -/
structure Base (s : Views) : Prop where
  sound : Sound s.cache []
  fresh : ∀ r, s.cache.requests.length ≤ r → s.callback r = none
  infos : ∀ r w E, s.callback r = some (w, E) → s.cache.requests[r]? = some (E.map iconInfo)
  posted : ∀ r l, .loadImages r l ∈ s.cache.uiQueue → s.callback r = none

structure WindowInv (s : Views) (w : Nat) : Prop where
  pending : (s.window w).window = false → s.loading w = [] ∧ (s.window w).extensions = [] ∧
    (s.window w).pendingExtensions = (s.window w).last
  loading : ∀ E ∈ (s.loading w).getLast?, E = (s.window w).last
  shown : (s.window w).window = true → s.loading w = [] →
    (s.window w).extensions.map Prod.fst = (s.window w).last
  icons : ∀ p ∈ (s.window w).extensions, OwnIcon s.cache.created p.1 p.2
  controls : (s.window w).withControls = true → (s.window w).controls = (s.window w).extensions.take 11

theorem WindowInv.congr (h : WindowInv s w) (hw : t.window w = s.window w) (hl : t.loading w = s.loading w)
    (hc : s.cache.created ⊆ t.cache.created) : WindowInv t w := by
  refine ⟨?_, ?_, ?_, ?_, ?_⟩
  · rw [hw, hl]
    exact h.pending
  · rw [hw, hl]
    exact h.loading
  · rw [hw, hl]
    exact h.shown
  · rw [hw]
    exact fun p hp => (h.icons p hp).mono hc
  · rw [hw]
    exact h.controls

/-! ### Callbacks -/

theorem moveOn_eq {c : ImageCache} {new : List Answer} (h : c.answers = s.cache.answers ++ new) :
    s.moveOn c = new.foldl answer { s with cache := c } := by
  unfold moveOn
  rw [h, List.drop_left]

theorem window_setWindow (s : Views) (w : Nat) (win : RootWindowViews) :
    (s.setWindow w win).window w = win := by
  unfold setWindow
  exact Function.update_self w win s.window

theorem window_setWindow_of_ne (h : v ≠ w) (win : RootWindowViews) :
    (s.setWindow w win).window v = s.window v := by
  unfold setWindow
  exact Function.update_of_ne h win s.window

/-- The entries that `OnExtensionIconsLoaded` sets. -/
def entries (s : Views) (E : List Extension) (images : List (Option Image)) :
    List (Extension × Option Image) :=
  (E.zip images).map fun p => (p.1, p.2.or (s.cache.imageMap.getCachedImage kDefaultExtensionIcon))

theorem onExtensionIconsLoaded_eq (s : Views) (w : Nat) (E : List Extension)
    (images : List (Option Image)) :
    s.onExtensionIconsLoaded w E images = s.setWindow w ((s.window w).setExtensions (s.entries E images)) :=
  rfl

theorem entries_own (h : Sound s.cache []) (hm : List.Forall₂ (Made s.cache.created) (E.map iconInfo) images) :
    (s.entries E images).map Prod.fst = E ∧
      ∀ p ∈ s.entries E images, OwnIcon s.cache.created p.1 p.2 := by
  rw [List.forall₂_map_left_iff] at hm
  unfold entries
  constructor
  · rw [List.map_map]
    show (E.zip images).map Prod.fst = E
    exact List.map_fst_zip hm.length_eq.le
  · intro p hp
    obtain ⟨p', hp', rfl⟩ := List.mem_map.1 hp
    exact ownIcon_of_made h (List.forall₂_iff_zip.1 hm |>.2 hp')

/-- What `loading` picks. -/
def pick (callback : Nat → Option (Nat × List Extension)) (w : Nat) (t : List ImageInfo × Nat) :
    Option (List Extension) :=
  match callback t.2 with
  | some (v, E) => if v = w then some E else none
  | none => none

theorem loading_eq (s : Views) (w : Nat) : s.loading w = s.cache.waiting.filterMap (pick s.callback w) := rfl

theorem pick_none {callback : Nat → Option (Nat × List Extension)} {t : List ImageInfo × Nat}
    (h : callback t.2 = none) : pick callback w t = none := by
  unfold pick
  rw [h]

theorem pick_some {callback : Nat → Option (Nat × List Extension)} {t : List ImageInfo × Nat}
    (h : callback t.2 = some (v, E)) : pick callback w t = if v = w then some E else none := by
  unfold pick
  rw [h]

namespace Base

theorem congr (h : Base s) (hc : t.cache = s.cache) (hb : t.callback = s.callback) : Base t := by
  refine ⟨?_, ?_, ?_, ?_⟩
  · rw [hc]
    exact h.sound
  · rw [hc, hb]
    exact h.fresh
  · rw [hc, hb]
    exact h.infos
  · rw [hc, hb]
    exact h.posted

/-- The request of a task or of an answer. -/
theorem ticket (h : Base s) {t : List ImageInfo × Nat}
    (ht : t ∈ s.cache.waiting ++ s.cache.answers.map Answer.ticket) :
    s.cache.requests[t.2]? = some t.1 := by
  have hmem := h.sound.once.mem_iff.1 ht
  rwa [← Prod.mk.eta (p := t), List.mem_zipIdx_iff_getElem?] at hmem

theorem lt_of_waiting (h : Base s) {t : List ImageInfo × Nat} (ht : t ∈ s.cache.waiting) :
    t.2 < s.cache.requests.length :=
  (List.getElem?_eq_some_iff.1 (h.ticket (List.mem_append_left _ ht))).1

theorem step {e : ImageCache.Event} {c : ImageCache} (h : Base s) (hs : s.cache.step addRep e = some c) :
    Base { s with cache := c } := by
  have hl := step_later hs
  refine ⟨h.sound.step hs, fun r hr => h.fresh r (hl.requests.length_le.trans hr), fun r w E hr => ?_,
    fun r l hm => ?_⟩
  · obtain ⟨hlt, he⟩ := List.getElem?_eq_some_iff.1 (h.infos r w E hr)
    obtain ⟨l, hreq⟩ := hl.requests
    show c.requests[r]? = _
    rw [← hreq, List.getElem?_append_left hlt]
    exact h.infos r w E hr
  · rcases hl.posted r l hm with hm | rfl
    · exact h.posted r l hm
    · exact h.fresh _ (Nat.le_refl _)

theorem answer_own (h : Base s) {a : Answer} (ha : a ∈ s.cache.answers)
    (hcb : s.callback a.request = some (w, E)) :
    (s.entries E a.images).map Prod.fst = E ∧
      ∀ p ∈ s.entries E a.images, OwnIcon s.cache.created p.1 p.2 := by
  have hinfo : s.cache.requests[a.request]? = some a.info :=
    h.ticket (List.mem_append_right _ (List.mem_map_of_mem ha))
  have he : a.info = E.map iconInfo := Option.some.inj (hinfo.symm.trans (h.infos _ w E hcb))
  exact entries_own h.sound (he ▸ h.sound.answered a ha)

end Base

/-! ### Answers to earlier updates -/

theorem windowInv_setWindow {win : RootWindowViews}
    (hp : win.window = false → s.loading w = [] ∧ win.extensions = [] ∧ win.pendingExtensions = win.last)
    (hl : ∀ E ∈ (s.loading w).getLast?, E = win.last)
    (hs : win.window = true → s.loading w = [] → win.extensions.map Prod.fst = win.last)
    (hi : ∀ p ∈ win.extensions, OwnIcon s.cache.created p.1 p.2)
    (hc : win.withControls = true → win.controls = win.extensions.take 11) :
    WindowInv (s.setWindow w win) w := by
  refine ⟨?_, ?_, ?_, ?_, ?_⟩
  all_goals rw [window_setWindow]; assumption

theorem setWindow_others {win : RootWindowViews} (h : ∀ v, v ≠ w → WindowInv s v) :
    ∀ v, v ≠ w → WindowInv (s.setWindow w win) v := fun v hv =>
  (h v hv).congr (window_setWindow_of_ne hv win) rfl (List.Subset.refl _)

/-- New extensions with their icons, in a window that exists. -/
theorem windowInv_set {l : List (Extension × Option Image)} (hopen : (s.window w).window = true)
    (hl : ∀ E ∈ (s.loading w).getLast?, E = (s.window w).last)
    (hshown : s.loading w = [] → l.map Prod.fst = (s.window w).last)
    (hown : ∀ p ∈ l, OwnIcon s.cache.created p.1 p.2) :
    WindowInv (s.setWindow w ((s.window w).setExtensions l)) w := by
  have hf := RootWindowViews.setExtensions_frame (s.window w) l
  have hlast : ((s.window w).setExtensions l).last = (s.window w).last :=
    (congrArg RootWindowViews.last hf :)
  have hop : ((s.window w).setExtensions l).window = true :=
    (congrArg RootWindowViews.window hf :).trans hopen
  refine windowInv_setWindow (fun hc => ?_) ?_ ?_ ?_ (fun hcon => ?_)
  · cases hop.symm.trans hc
  · rwa [hlast]
  · rw [hlast, RootWindowViews.extensions_setExtensions]
    exact fun _ => hshown
  · rwa [RootWindowViews.extensions_setExtensions]
  · rw [RootWindowViews.extensions_setExtensions]
    exact RootWindowViews.controls_setExtensions ((congrArg RootWindowViews.withControls hf :) ▸ hcon)

/-- `OnExtensionIconsLoaded` for the update of `w` that has waited longest. -/
theorem WindowInv.answered (h : WindowInv s w) (hw : t.window w = s.window w)
    (hl : s.loading w = E :: t.loading w)
    (hown : (t.entries E images).map Prod.fst = E ∧
      ∀ p ∈ t.entries E images, OwnIcon t.cache.created p.1 p.2) :
    WindowInv (t.onExtensionIconsLoaded w E images) w := by
  have hopen : (s.window w).window = true := by
    cases hopen : (s.window w).window with
    | true => rfl
    | false =>
      have hnil := (h.pending hopen).1
      rw [hl] at hnil
      cases hnil
  have hlast : ∀ E' ∈ (E :: t.loading w).getLast?, E' = (t.window w).last := by
    rw [hw, ← hl]
    exact h.loading
  refine windowInv_set (hw ▸ hopen) (fun E' hE' => hlast E' ?_) (fun hnil => ?_) hown.2
  · have hE' : (t.loading w).getLast? = some E' := hE'
    show (E :: t.loading w).getLast? = some E'
    rw [List.getLast?_cons, hE']
    rfl
  · refine hown.1.trans (hlast E ?_)
    rw [hnil]
    rfl

structure Good (s : Views) : Prop where
  base : Base s
  window : ∀ w, WindowInv s w

theorem Good.moveOn {e : ImageCache.Event} {c : ImageCache} (h : Good s)
    (hs : s.cache.step addRep e = some c) : Good (s.moveOn c) := by
  obtain ⟨new, hnew, hone, hload⟩ := step_answers (β := List Extension) hs
  have hbase := h.base.step hs
  have hsub := (step_later hs).created
  have hwait : ∀ w, s.loading w = (new.map Answer.ticket).filterMap (pick s.callback w) ++
      loading { s with cache := c } w := fun w =>
    hload (pick s.callback w) (fun l => pick_none (h.base.fresh _ (Nat.le_refl _)))
      fun r l hm => pick_none (h.base.posted r l hm)
  rw [moveOn_eq hnew]
  cases new with
  | nil => exact ⟨hbase, fun w => (h.window w).congr rfl (hwait w).symm hsub⟩
  | cons a new =>
    obtain rfl : new = [] := List.eq_nil_of_length_eq_zero (by rw [List.length_cons] at hone; omega)
    have ha : a ∈ c.answers := hnew ▸ List.mem_append_right _ (.head _)
    show Good (answer { s with cache := c } a)
    unfold answer
    split
    · rename_i v E hcb
      have hcb : s.callback a.ticket.2 = some (v, E) := hcb
      refine ⟨hbase.congr rfl rfl, fun w => ?_⟩
      have hw := hwait w
      by_cases hv : v = w
      · subst hv
        rw [List.map_singleton, List.filterMap_cons, pick_some hcb, if_pos rfl] at hw
        exact (h.window v).answered (t := { s with cache := c }) rfl hw (hbase.answer_own ha hcb)
      · rw [List.map_singleton, List.filterMap_cons, pick_some hcb, if_neg hv] at hw
        exact (h.window w).congr (window_setWindow_of_ne (Ne.symm hv) _) hw.symm hsub
    · rename_i hcb
      have hcb : s.callback a.ticket.2 = none := hcb
      refine ⟨hbase, fun w => (h.window w).congr rfl ?_ hsub⟩
      have hw := hwait w
      rw [List.map_singleton, List.filterMap_cons, pick_none hcb] at hw
      exact hw.symm

/-! ### An update -/

/-- `w` is about to be given the extensions `E`, and exists. -/
structure Updating (s : Views) (w : Nat) (E : List Extension) : Prop where
  base : Base s
  others : ∀ v, v ≠ w → WindowInv s v
  window : (s.window w).window = true
  last : (s.window w).last = E
  icons : ∀ p ∈ (s.window w).extensions, OwnIcon s.cache.created p.1 p.2
  controls : (s.window w).withControls = true → (s.window w).controls = (s.window w).extensions.take 11
  inTurn : s.answeredAtOnce E = true → ∀ E' ∈ (s.loading w).getLast?, E' = E

/-- The request for the icons has been made. -/
def requested (s : Views) (w : Nat) (E : List Extension) : Views :=
  { s with
    callback := Function.update s.callback s.cache.requests.length (some (w, E))
    cache := { s.cache with requests := s.cache.requests ++ [E.map iconInfo] }.loadImages
      s.cache.requests.length (E.map iconInfo) }

theorem Base.requested (h : Base s) (w : Nat) (E : List Extension) : Base (s.requested w E) := by
  have hsound : Sound (s.requested w E).cache [] := (h.sound.request _).loadImages
  have hreq : (s.requested w E).cache.requests = s.cache.requests ++ [E.map iconInfo] :=
    requests_loadImages _ _ _
  refine ⟨hsound, fun r hr => ?_, fun r v E' hcb => ?_, fun r l hm => ?_⟩
  · rw [hreq, List.length_append, List.length_singleton] at hr
    exact (Function.update_of_ne (by omega) _ _).trans (h.fresh r (by omega))
  · rw [hreq]
    by_cases hr : r = s.cache.requests.length
    · subst hr
      have hcb : Function.update s.callback _ _ _ = _ := hcb
      rw [Function.update_self] at hcb
      cases hcb
      exact List.getElem?_concat_length
    · have hcb : Function.update s.callback _ _ _ = _ := hcb
      rw [Function.update_of_ne hr] at hcb
      have hi := h.infos r v E' hcb
      rw [List.getElem?_append_left (List.getElem?_eq_some_iff.1 hi).1]
      exact hi
  · have hui : (s.requested w E).cache.uiQueue = s.cache.uiQueue := uiQueue_loadImages _ _ _
    rw [hui] at hm
    have hlt : r < s.cache.requests.length :=
      h.lt_of_waiting (t := (l, r)) (List.mem_append_left _ (List.mem_map_of_mem hm))
    exact (Function.update_of_ne hlt.ne _ _).trans (h.posted r l hm)

/-- The requests made before are picked as before. -/
theorem pick_requested (h : Base s) (w v : Nat) (E : List Extension) :
    s.cache.waiting.filterMap (pick (s.requested w E).callback v) = s.loading v := by
  rw [loading_eq]
  refine List.filterMap_congr fun t ht => ?_
  have hcb : (s.requested w E).callback t.2 = s.callback t.2 :=
    Function.update_of_ne (h.lt_of_waiting ht).ne _ _
  unfold pick
  rw [hcb]

theorem answeredAtOnce_of_found (h : List.Forall₂ (Found s.cache.imageMap) (E.map iconInfo) images) :
    s.answeredAtOnce E = true := by
  rw [List.forall₂_map_left_iff] at h
  unfold answeredAtOnce
  induction h with
  | nil => rfl
  | cons hf _ ih =>
    rw [List.all_cons, ih, Bool.and_true, Bool.or_eq_true, beq_iff_eq]
    exact hf.imp And.left fun hm => by rw [hm]; rfl

theorem loadIcons_eq (s : Views) (w : Nat) (E : List Extension) :
    s.loadIcons w E = ((s.requested w E).cache.answers.drop s.cache.answers.length).foldl answer
      (s.requested w E) := rfl

/-- The callback of the request that has just been made. -/
theorem callback_requested (s : Views) (w : Nat) (E : List Extension) :
    (s.requested w E).callback s.cache.requests.length = some (w, E) :=
  Function.update_self _ _ s.callback

theorem Updating.loadIcons (h : Updating s w E) : Good (s.loadIcons w E) := by
  have hbase := h.base.requested w E
  have hpick : ∀ v, pick (s.requested w E).callback v (E.map iconInfo, s.cache.requests.length) =
      if w = v then some E else none := fun v => pick_some (callback_requested s w E)
  have hcreated : s.cache.created ⊆ (s.requested w E).cache.created :=
    (later_requests s.cache (E.map iconInfo)).created
  rw [loadIcons_eq]
  rcases waiting_loadImages { s.cache with requests := s.cache.requests ++ [E.map iconInfo] }
    s.cache.requests.length (E.map iconInfo) with ⟨ha, hw⟩ | ⟨hm, hw, a, ha, ht⟩
  · have ha : (s.requested w E).cache.answers = s.cache.answers := ha
    have hload : ∀ v, (s.requested w E).loading v = s.loading v ++ if w = v then [E] else [] := by
      intro v
      have hw : (s.requested w E).cache.waiting = s.cache.waiting ++ [_] := hw
      rw [loading_eq, hw, List.filterMap_append, pick_requested h.base, List.filterMap_cons, hpick]
      by_cases hv : w = v
      · rw [if_pos hv, if_pos hv]
        rfl
      · rw [if_neg hv, if_neg hv]
        rfl
    rw [ha, List.drop_length, List.foldl_nil]
    refine ⟨hbase, fun v => ?_⟩
    by_cases hv : v = w
    · subst hv
      have hl := hload v
      rw [if_pos rfl] at hl
      refine ⟨fun hop => ?_, fun E' hE' => ?_, fun _ hnil => ?_, fun p hp => (h.icons p hp).mono hcreated,
        h.controls⟩
      · cases hop.symm.trans h.window
      · rw [hl, List.getLast?_concat] at hE'
        cases hE'
        exact h.last.symm
      · rw [hl] at hnil
        cases List.append_eq_nil_iff.1 hnil |>.2
    · refine (h.others v hv).congr rfl ?_ hcreated
      rw [hload v, if_neg (Ne.symm hv), List.append_nil]
  · have ha : (s.requested w E).cache.answers = s.cache.answers ++ [a] := ha
    have hload : ∀ v, (s.requested w E).loading v = s.loading v := by
      intro v
      have hw : (s.requested w E).cache.waiting = s.cache.waiting := hw
      rw [loading_eq, hw, pick_requested h.base]
    have hcb : (s.requested w E).callback a.request = some (w, E) := by
      rw [show a.request = s.cache.requests.length from congrArg Prod.snd ht]
      exact callback_requested s w E
    have hown := hbase.answer_own (ha ▸ List.mem_append_right _ (.head _)) hcb
    have honce : s.answeredAtOnce E = true := answeredAtOnce_of_found (lookUp_of_not_missing hm).2
    rw [ha, List.drop_left]
    show Good (answer (s.requested w E) a)
    unfold answer
    rw [hcb]
    refine ⟨hbase.congr rfl rfl, fun v => ?_⟩
    by_cases hv : v = w
    · subst hv
      refine windowInv_set h.window (fun E' hE' => ?_) (fun _ => hown.1.trans h.last.symm) hown.2
      rw [hload v] at hE'
      exact (h.inTurn honce E' hE').trans h.last.symm
    · exact (h.others v hv).congr (window_setWindow_of_ne hv _) (hload v) hcreated

theorem good_of (hb : Base s) (ho : ∀ v, v ≠ w → WindowInv s v) (hw : WindowInv s w) : Good s := by
  refine ⟨hb, fun v => ?_⟩
  by_cases hv : v = w
  · exact hv ▸ hw
  · exact ho v hv

theorem Updating.viewsOnExtensionsChanged (h : Updating s w E) : Good (s.viewsOnExtensionsChanged w E) := by
  unfold Views.viewsOnExtensionsChanged
  split
  · rename_i hE
    subst hE
    have hl : ∀ E' ∈ (s.loading w).getLast?, E' = (s.window w).last := fun E' hE' =>
      (h.inTurn rfl E' hE').trans h.last.symm
    split
    · rename_i he
      refine good_of h.base h.others ⟨fun hop => ?_, hl, fun _ _ => ?_, h.icons, h.controls⟩
      · cases hop.symm.trans h.window
      · rw [he, h.last]
        rfl
    · refine good_of (h.base.congr rfl rfl) (setWindow_others h.others) (windowInv_set h.window hl ?_ ?_)
      · exact fun _ => h.last.symm
      · exact fun p hp => by cases hp
  · exact h.loadIcons

/-! ### Steps -/

theorem Good.onExtensionsChanged (h : Good s) (hr : Ready s (.onExtensionsChanged w E)) :
    Good ((s.setWindow w { s.window w with last := E }).onExtensionsChanged w E) := by
  have hw := h.window w
  have hwin := window_setWindow s w { s.window w with last := E }
  have hothers : ∀ v, v ≠ w → WindowInv (s.setWindow w { s.window w with last := E }) v :=
    setWindow_others fun v _ => h.window v
  unfold Views.onExtensionsChanged
  split
  · rename_i hop
    rw [hwin] at hop
    refine Updating.viewsOnExtensionsChanged ⟨h.base.congr rfl rfl, hothers, ?_, ?_, ?_, ?_, hr hop⟩
    all_goals rw [hwin]
    · exact hop
    · exact hw.icons
    · exact hw.controls
  · rename_i hop
    rw [hwin] at hop ⊢
    have hop : (s.window w).window = false := Bool.eq_false_iff.2 hop
    obtain ⟨hnil, hext, -⟩ := hw.pending hop
    refine good_of (w := w) (h.base.congr rfl rfl) (setWindow_others hothers) ?_
    refine windowInv_setWindow (fun _ => ⟨hnil, hext, rfl⟩) (fun E' hE' => ?_) (fun hc => ?_) hw.icons
      hw.controls
    · have hE' : E' ∈ (s.loading w).getLast? := hE'
      rw [hnil] at hE'
      cases hE'
    · cases hop.symm.trans hc

/-- Callbacks leave a window open. -/
theorem window_answers (s : Views) (answers : List Answer) (w : Nat) :
    ((answers.foldl answer s).window w).window = (s.window w).window := by
  induction answers generalizing s with
  | nil => rfl
  | cons a answers ih =>
    rw [List.foldl_cons, ih]
    unfold answer
    split
    · rename_i v E _
      rw [onExtensionIconsLoaded_eq]
      by_cases hv : w = v
      · subst hv
        rw [window_setWindow]
        exact (congrArg RootWindowViews.window (RootWindowViews.setExtensions_frame _ _) :)
      · rw [window_setWindow_of_ne hv]
    · rfl

theorem window_viewsOnExtensionsChanged (s : Views) (w : Nat) (E : List Extension) :
    ((s.viewsOnExtensionsChanged w E).window w).window = (s.window w).window := by
  unfold Views.viewsOnExtensionsChanged
  split
  · split
    · rfl
    · rw [window_setWindow]
      exact (congrArg RootWindowViews.window (RootWindowViews.setExtensions_frame _ _) :)
  · rw [loadIcons_eq]
    exact window_answers _ _ w

/-- The window of an open `w`, or its controls, replaced. -/
theorem Good.setWindow {win : RootWindowViews} (h : Good s)
    (hwin : { win with pendingExtensions := (s.window w).pendingExtensions,
                       controls := (s.window w).controls } = s.window w)
    (hp : (s.window w).window = false → win.pendingExtensions = (s.window w).pendingExtensions)
    (hc : win.withControls = true → win.controls = win.extensions.take 11) :
    Good (s.setWindow w win) := by
  have hw := h.window w
  have hopen : win.window = (s.window w).window := (congrArg RootWindowViews.window hwin :)
  have hlast : win.last = (s.window w).last := (congrArg RootWindowViews.last hwin :)
  have hext : win.extensions = (s.window w).extensions := (congrArg RootWindowViews.extensions hwin :)
  refine good_of (h.base.congr rfl rfl) (setWindow_others fun v _ => h.window v)
    (windowInv_setWindow (fun hop => ?_) ?_ ?_ ?_ hc)
  · rw [hopen] at hop
    rw [hext, hp hop, hlast]
    exact hw.pending hop
  · rw [hlast]
    exact hw.loading
  · rw [hopen, hext, hlast]
    exact hw.shown
  · rw [hext]
    exact hw.icons

theorem Good.updateExtensionControls (h : Good s) (w : Nat) :
    Good (s.setWindow w (s.window w).updateExtensionControls) := by
  unfold RootWindowViews.updateExtensionControls
  split
  · exact h.setWindow rfl (fun _ => rfl) fun _ => rfl
  · exact h.setWindow rfl (fun _ => rfl) (h.window w).controls

theorem Good.onViewsWindowCreated (h : Good s) (hop : (s.window w).window = false) :
    Good (s.onViewsWindowCreated w) := by
  have hw := h.window w
  obtain ⟨hnil, hext, hpend⟩ := hw.pending hop
  have hwin := window_setWindow s w { s.window w with window := true }
  have hbase : Base (s.setWindow w { s.window w with window := true }) := h.base.congr rfl rfl
  have hothers : ∀ v, v ≠ w → WindowInv (s.setWindow w { s.window w with window := true }) v :=
    setWindow_others fun v _ => h.window v
  unfold Views.onViewsWindowCreated
  show Good (if _ then _ else _)
  rw [hwin]
  have hpend : ({ s.window w with window := true } : RootWindowViews).pendingExtensions =
    (s.window w).last := hpend
  rw [hpend]
  have hloading : ∀ E' ∈ (s.loading w).getLast?, E' = (s.window w).last := hw.loading
  split
  · rename_i hlast
    refine good_of hbase hothers (windowInv_setWindow (fun hc => by cases hc) hloading (fun _ _ => ?_)
      hw.icons hw.controls)
    show (s.window w).extensions.map Prod.fst = (s.window w).last
    rw [hext, hlast]
    rfl
  · have hg : Good ((s.setWindow w { s.window w with window := true }).viewsOnExtensionsChanged w
        (s.window w).last) := by
      refine Updating.viewsOnExtensionsChanged ⟨hbase, hothers, ?_, ?_, ?_, ?_, fun _ E' hE' => hloading E' hE'⟩
      all_goals rw [hwin]
      · exact hw.icons
      · exact hw.controls
    have hopen := window_viewsOnExtensionsChanged (s.setWindow w { s.window w with window := true }) w
      (s.window w).last
    rw [hwin] at hopen
    refine hg.setWindow rfl (fun hc => ?_) (hg.window w).controls
    cases hopen.symm.trans hc

theorem Good.step {e : Event} (h : Good s) (hr : Ready s e) (hs : s.step addRep e = some t) : Good t := by
  cases e with
  | onExtensionsChanged w E =>
    cases hs
    exact h.onExtensionsChanged hr
  | onWindowCreated w =>
    obtain ⟨hop, hs⟩ := Option.ite_none_left_eq_some.1 hs
    cases hs
    exact (h.onViewsWindowCreated (Bool.eq_false_iff.2 hop)).updateExtensionControls w
  | cache e =>
    obtain ⟨c, hc, rfl⟩ := Option.map_eq_some_iff.1 hs
    exact h.moveOn hc

/-- Windows `w` with controls if `withControls w`; nothing has happened yet. -/
def initial (withControls : Nat → Bool) : Views where
  window w := { withControls := withControls w }

theorem good_initial (withControls : Nat → Bool) : Good (initial withControls) := by
  refine ⟨⟨sound_initial, fun _ _ => rfl, fun _ _ _ h => (by cases h), fun _ _ _ => rfl⟩, fun w => ?_⟩
  exact ⟨fun _ => ⟨rfl, rfl, rfl⟩, fun _ h => (by cases h), fun _ _ => rfl, fun _ h => (by cases h),
    fun _ => rfl⟩

/-! ### Runs -/

/-- `w` shows the extensions of its last update. Of more than eleven the controls show the first. -/
structure ShowsLast (s : Views) (w : Nat) : Prop where
  extensions : (s.window w).extensions.map Prod.fst = (s.window w).last
  icons : ∀ p ∈ (s.window w).extensions, OwnIcon s.cache.created p.1 p.2
  controls : (s.window w).withControls = true → (s.window w).controls = (s.window w).extensions.take 11

/-- The controls of a window with not more extensions than buttons. -/
theorem ShowsLast.buttons (h : ShowsLast s w) (hc : (s.window w).withControls = true)
    (hn : (s.window w).last.length ≤ 11) :
    (s.window w).controls.map Prod.fst = (s.window w).last ∧
      ∀ p ∈ (s.window w).controls, OwnIcon s.cache.created p.1 p.2 := by
  have hlen : (s.window w).extensions.length ≤ 11 := by
    have hlast := congrArg List.length h.extensions
    rw [List.length_map] at hlast
    omega
  rw [h.controls hc, List.take_of_length_le hlen]
  exact ⟨h.extensions, h.icons⟩

theorem extensionControls_last {withControls : Nat → Bool} {as : List Event}
    (hr : Lts.Run (step addRep) Ready (initial withControls) as s) (hw : s.cache.waiting = []) :
    ∀ w, (s.window w).window = true → ShowsLast s w ∧
      ((s.window w).withControls = true → (s.window w).last.length ≤ 11 →
        (s.window w).controls.map Prod.fst = (s.window w).last ∧
          ∀ p ∈ (s.window w).controls, OwnIcon s.cache.created p.1 p.2) := by
  have hg : Good s := hr.inv (I := Good) (fun _ _ _ h hready hs => h.step hready hs) (good_initial _)
  intro w hopen
  have hnil : s.loading w = [] := by rw [loading_eq, hw, List.filterMap_nil]
  have hlast : ShowsLast s w :=
    ⟨(hg.window w).shown hopen hnil, (hg.window w).icons, (hg.window w).controls⟩
  exact ⟨hlast, hlast.buttons⟩

def extensionA : Extension := { identifier := [1], iconPath := [97, 46, 112, 110, 103] }

def extensionB : Extension := { identifier := [2], iconPath := [] }

/-- Extensions that wait for the window, and an update whose icons are cached by then. -/
theorem extensionControls_last_pending : ∃ s, Lts.Run (step fun _ => true) Ready (initial fun _ => true)
      [.onExtensionsChanged 0 [extensionB, extensionA], .onWindowCreated 0,
        .cache (.runFile fun _ _ => some [1]), .cache .runUi, .onExtensionsChanged 0 [extensionA]] s ∧
    (s.window 0).last = [extensionA] ∧ s.cache.waiting = [] ∧ ShowsLast s 0 := by
  obtain ⟨s, hs, hl, hw, hopen⟩ : ∃ s,
      Lts.exec (Lts.checked (step fun _ => true) Ready) (initial fun _ => true)
        [.onExtensionsChanged 0 [extensionB, extensionA], .onWindowCreated 0,
          .cache (.runFile fun _ _ => some [1]), .cache .runUi, .onExtensionsChanged 0 [extensionA]] = some s ∧
      (s.window 0).last = [extensionA] ∧ s.cache.waiting = [] ∧ (s.window 0).window = true :=
    ⟨_, rfl, rfl, rfl, rfl⟩
  have hr := Lts.run_of_checked hs
  exact ⟨s, hr, hl, hw, (extensionControls_last hr hw 0 hopen).1⟩

/-- The extension is gone before its icon has been loaded, and comes back with the icon. -/
theorem update_overwritten :
    ¬ ∀ as s, Lts.Run (step fun _ => true) Lts.Any (initial fun _ => true) as s → s.cache.waiting = [] →
      ∀ w, (s.window w).window = true → (s.window w).withControls = true → (s.window w).last.length ≤ 11 →
        (s.window w).controls.map Prod.fst = (s.window w).last := by
  intro h
  obtain ⟨s, hs, hw, hopen, hc, hl, he⟩ : ∃ s, Lts.exec (step fun _ => true) (initial fun _ => true)
        [.onWindowCreated 0, .onExtensionsChanged 0 [extensionA], .onExtensionsChanged 0 [],
          .cache (.runFile fun _ _ => some [1]), .cache .runUi] = some s ∧
      s.cache.waiting = [] ∧ (s.window 0).window = true ∧ (s.window 0).withControls = true ∧
      (s.window 0).last = [] ∧ (s.window 0).controls.map Prod.fst = [extensionA] :=
    ⟨_, rfl, rfl, rfl, rfl, rfl, rfl⟩
  have hlast := h _ s (Lts.run_of_exec hs) hw 0 hopen hc (hl ▸ Nat.zero_le _)
  rw [hl, he] at hlast
  cases hlast

end Views

end NplBrowser
