import NplBrowser.ImageRequests

/-!
# Coherence of the image cache

What a callback is handed is what the cache holds when it runs, and the last load of an id, if it
succeeded, is what the cache holds in the end, as long as `UpdateCache` finds no entry where it
inserts one and a forced reload erases no image that a request in flight holds.
-/

namespace NplBrowser

namespace ImageCache

variable {addRep : RepContent → Bool} {m : ImageMap} {info : ImageInfo} {l : List ImageInfo}
  {x : Bytes} {image : Option Image} {s t : ImageCache}

/-- The entry of a callback for `info` is what `m` has cached. -/
def Cached (m : ImageMap) (info : ImageInfo) (image : Option Image) : Prop :=
  info.id ≠ kEmptyId → image = m.getCachedImage info.id

theorem Found.cached (h : Found m info image) : Cached m info image := by
  intro hne
  rcases h with ⟨he, -⟩ | h
  · exact absurd he hne
  · unfold ImageMap.getCachedImage
    rw [h]
    rfl

/-! ### `LoadImages` -/

/-- What `LoadImages` erases is loaded again. -/
theorem lookUp_map (h : ∀ p ∈ l.zip (lookUp m l).images, skip p.1 p.2 = false → p.1.id ≠ x) :
    (lookUp m l).map x = m x := by
  fun_induction lookUp m l with
  | case1 => rfl
  | case2 m info l hid r ih => exact ih fun p hp => h p (.tail _ hp)
  | case3 m info l hid image hm hf r ih =>
    have hne : info.id ≠ x := h (info, none) (.head _) (Bool.eq_false_iff.2 fun hs => hid (skip_none.1 hs))
    refine (ih fun p hp => h p (.tail _ hp)).trans ?_
    exact Function.update_of_ne (Ne.symm hne) none m
  | case4 m info l hid image hm hf r ih => exact ih fun p hp => h p (.tail _ hp)
  | case5 m info l hid hm r ih => exact ih fun p hp => h p (.tail _ hp)

/-- Images that are held stay in the map, those the request has been handed included. -/
theorem lookUp_held : ∀ {H : List Bytes}, spares H m l = true →
    (∀ x ∈ H, (lookUp m l).map x = m x) ∧
      ∀ p ∈ l.zip (lookUp m l).images, ∀ image, p.2 = some image →
        (lookUp m l).map p.1.id = some (some image) := by
  fun_induction lookUp m l
  case case1 => exact fun _ => ⟨fun _ _ => rfl, fun p hp => by cases hp⟩
  case case2 m info l hid r ih =>
    intro H h
    unfold spares at h
    rw [if_pos hid] at h
    refine ⟨(ih h).1, fun p hp image hi => ?_⟩
    rcases List.mem_cons.1 hp with rfl | hp
    · cases hi
    · exact (ih h).2 p hp image hi
  case case3 m info l hid image hm hf r ih =>
    intro H h
    unfold spares at h
    rw [if_neg hid, hm] at h
    dsimp only at h
    rw [if_pos hf, Bool.and_eq_true, Bool.not_eq_true'] at h
    have hnot : info.id ∉ H := fun hx => by
      rw [List.contains_iff_mem.2 hx] at h
      cases h.1
    refine ⟨fun x hx => ((ih h.2).1 x hx).trans ?_, fun p hp image hi => ?_⟩
    · exact Function.update_of_ne (fun he : x = info.id => hnot (he ▸ hx)) none m
    · rcases List.mem_cons.1 hp with rfl | hp
      · cases hi
      · exact (ih h.2).2 p hp image hi
  case case4 m info l hid image hm hf r ih =>
    intro H h
    unfold spares at h
    rw [if_neg hid, hm] at h
    dsimp only at h
    rw [if_neg hf] at h
    have hsub : ∀ x ∈ H, x ∈ if image.isSome then info.id :: H else H := by
      intro x hx
      split
      · exact .tail _ hx
      · exact hx
    refine ⟨fun x hx => (ih h).1 x (hsub x hx), fun p hp image' hi => ?_⟩
    rcases List.mem_cons.1 hp with rfl | hp
    · have hi : image = some image' := hi
      have hx : info.id ∈ if image.isSome then info.id :: H else H := by
        rw [hi]
        exact .head _
      exact ((ih h).1 info.id hx).trans (hi ▸ hm)
    · exact (ih h).2 p hp image' hi
  case case5 m info l hid hm r ih =>
    intro H h
    unfold spares at h
    rw [if_neg hid, hm] at h
    refine ⟨(ih h).1, fun p hp image hi => ?_⟩
    rcases List.mem_cons.1 hp with rfl | hp
    · cases hi
    · exact (ih h).2 p hp image hi

/-! ### `UpdateCache` -/

section

variable {request i : Nat} {u : List (ImageInfo × ImageContent)} {e : Option Image}

/-- The outcome of the last load of `x`. -/
def lastOutcome (x : Bytes) : List (Load × Option Image) → Option (Option Image)
  | [] => none
  | (load, image) :: l => (lastOutcome x l).or (if load.id = x then some image else none)

theorem lastOutcome_append (x : Bytes) (c c' : List (Load × Option Image)) :
    lastOutcome x (c ++ c') = (lastOutcome x c').or (lastOutcome x c) := by
  induction c with
  | nil => exact Option.or_none.symm
  | cons p c ih =>
    rw [List.cons_append, lastOutcome, lastOutcome, ih, Option.or_assoc]

theorem lastOutcome_of_last {c c' : List (Load × Option Image)} {load : Load}
    (h : ∀ p ∈ c', p.1.id ≠ load.id) :
    lastOutcome load.id (c ++ (load, image) :: c') = some image := by
  have hc' : lastOutcome load.id c' = none := by
    induction c' with
    | nil => rfl
    | cons p c' ih =>
      rw [lastOutcome, ih fun q hq => h q (.tail _ hq), if_neg (h p (.head _))]
      rfl
  rw [lastOutcome_append, lastOutcome, hc', if_pos rfl]
  rfl

theorem insert_of_some (h : m x = some e) (id : Bytes) : (m.insert id image) x = some e := by
  unfold ImageMap.insert
  split
  · exact h
  · have hne : x ≠ id := fun he => ‹¬ _› (by rw [← he, h]; rfl)
    rw [Function.update_of_ne hne]
    exact h

theorem insert_of_none {id : Bytes} (h : m id = none) : (m.insert id image) id = some image := by
  unfold ImageMap.insert
  rw [if_neg (by rw [h]; exact Bool.false_ne_true), Function.update_self]

theorem insert_of_ne {id : Bytes} (h : x ≠ id) : (m.insert id image) x = m x := by
  unfold ImageMap.insert
  split
  · rfl
  · exact Function.update_of_ne h _ m

theorem update_of_some (h : m x = some e) : (update addRep request i m u).map x = some e := by
  fun_induction update addRep request i m u with
  | case1 => exact h
  | case2 i m info content u hs r ih => exact ih h
  | case3 i m info content u hs load image r ih => exact ih (insert_of_some h _)

/-- An image that `UpdateCache` inserts is in the map afterwards. -/
theorem insert_of_inserts {id : Bytes}
    (h : (match m id with
      | some old => old.isNone && image.isNone
      | none => true) = true) : (m.insert id image) id = some image := by
  cases hm : m id with
  | none => exact insert_of_none hm
  | some old =>
    rw [hm, Bool.and_eq_true, Option.isNone_iff_eq_none, Option.isNone_iff_eq_none] at h
    rw [insert_of_some hm, h.1, h.2]

theorem update_cached (h : inserts addRep request i m u = true)
    (hheld : ∀ p ∈ u, ∀ image, p.2.image = some image → m p.1.id = some (some image)) :
    List.Forall₂ (fun p image => Cached (update addRep request i m u).map p.1 image) u
      (update addRep request i m u).images := by
  fun_induction update addRep request i m u with
  | case1 => exact .nil
  | case2 i m info content u hs r ih =>
    unfold inserts at h
    rw [if_pos hs] at h
    refine .cons (fun hne => ?_) (ih h fun p hp => hheld p (.tail _ hp))
    show content.image = ImageMap.getCachedImage (update addRep request (i + 1) m u).map info.id
    cases hi : content.image with
    | none =>
      rw [hi] at hs
      exact absurd (skip_none.1 hs) hne
    | some image =>
      unfold ImageMap.getCachedImage
      rw [update_of_some (hheld _ (.head _) image hi)]
      rfl
  | case3 i m info content u hs load image r ih =>
    unfold inserts at h
    rw [if_neg hs, Bool.and_eq_true] at h
    have hmem : ∀ p ∈ u, ∀ image', p.2.image = some image' →
        (m.insert info.id image) p.1.id = some (some image') := fun p hp image' hi =>
      insert_of_some (hheld p (.tail _ hp) image' hi) _
    refine .cons (fun _ => ?_) (ih h.2 hmem)
    show image = ImageMap.getCachedImage
      (update addRep request (i + 1) (m.insert info.id image) u).map info.id
    unfold ImageMap.getCachedImage
    rw [update_of_some (insert_of_inserts h.1)]
    rfl

/-- A load that succeeded, the last of its id, is in the map; an id that is not loaded keeps its
entry. -/
theorem update_last (h : inserts addRep request i m u = true) (x : Bytes) :
    (∀ image, lastOutcome x (update addRep request i m u).created = some (some image) →
      (update addRep request i m u).map x = some (some image)) ∧
    (lastOutcome x (update addRep request i m u).created = none →
      (update addRep request i m u).map x = m x ∧
        ∀ p ∈ u, skip p.1 p.2.image = false → p.1.id ≠ x) := by
  fun_induction update addRep request i m u with
  | case1 =>
    refine ⟨fun _ hl => ?_, fun _ => ⟨rfl, fun p hp => ?_⟩⟩
    · cases hl
    · cases hp
  | case2 i m info content u hs r ih =>
    unfold inserts at h
    rw [if_pos hs] at h
    refine ⟨(ih h).1, fun hl => ⟨((ih h).2 hl).1, fun p hp hsk => ?_⟩⟩
    rcases List.mem_cons.1 hp with rfl | hp
    · rw [hs] at hsk
      cases hsk
    · exact ((ih h).2 hl).2 p hp hsk
  | case3 i m info content u hs load image r ih =>
    unfold inserts at h
    rw [if_neg hs, Bool.and_eq_true] at h
    obtain ⟨ih₁, ih₂⟩ := ih h.2
    have hlast : lastOutcome x ((load, image) :: r.created) =
        (lastOutcome x r.created).or (if info.id = x then some image else none) := rfl
    refine ⟨fun image' hl => ?_, fun hl => ?_⟩
    · rw [hlast] at hl
      cases hr : lastOutcome x r.created with
      | some o =>
        rw [hr, Option.some_or] at hl
        exact ih₁ image' (hr.trans hl)
      | none =>
        rw [hr, Option.none_or] at hl
        obtain ⟨rfl, hi⟩ := Option.ite_none_right_eq_some.1 hl
        exact (ih₂ hr).1.trans ((insert_of_inserts h.1).trans hi)
    · rw [hlast, Option.or_eq_none_iff] at hl
      have hne : info.id ≠ x := fun he => by rw [if_pos he] at hl; cases hl.2
      refine ⟨(ih₂ hl.1).1.trans (insert_of_ne (Ne.symm hne)), fun p hp hsk => ?_⟩
      rcases List.mem_cons.1 hp with rfl | hp
      · exact hne
      · exact (ih₂ hl.1).2 p hp hsk

end

/-! ### The invariant -/

structure Inv (s : ImageCache) : Prop where
  cached : ∀ a ∈ s.answers, List.Forall₂ (Cached a.map) a.info a.images
  held : ∀ p ∈ s.inFlight, ∀ image, p.2 = some image → s.imageMap p.1.id = some (some image)
  last : ∀ x image, (∀ p ∈ s.inFlight, skip p.1 p.2 = false → p.1.id ≠ x) →
    lastOutcome x s.created = some (some image) → s.imageMap x = some (some image)

theorem inv_initial : Inv {} := by
  refine ⟨fun _ h => ?_, fun _ h => ?_, fun _ _ _ h => ?_⟩
  all_goals cases h

theorem mem_held {p : ImageInfo × Option Image} {image : Image} {l : List (ImageInfo × Option Image)}
    (hp : p ∈ l) (hi : p.2 = some image) : p.1.id ∈ ImageCache.held l :=
  List.mem_map_of_mem (List.mem_filter.2 ⟨hp, by rw [hi]; rfl⟩)

namespace Inv

variable {r : Nat}

/-- The queues have changed, and what the requests in flight have been handed has not. -/
theorem congr (h : Inv s) (hm : t.imageMap = s.imageMap) (ha : t.answers = s.answers)
    (hc : t.created = s.created) (hf : t.inFlight = s.inFlight) : Inv t := by
  refine ⟨?_, ?_, ?_⟩
  · rw [ha]
    exact h.cached
  · rw [hf, hm]
    exact h.held
  · rw [hf, hm, hc]
    exact h.last

theorem loadImages (h : Inv s) (hsp : spares (ImageCache.held s.inFlight) s.imageMap l = true) :
    Inv (s.loadImages r l) := by
  cases hm : (lookUp s.imageMap l).missing with
  | true =>
    obtain ⟨hold, hnew⟩ := lookUp_held hsp
    have hf := inFlight_loadImages (r := r) hm
    rw [loadImages_of_missing hm] at hf ⊢
    refine ⟨h.cached, ?_, ?_⟩
    · rw [hf]
      intro p hp image hi
      rcases List.mem_append.1 hp with hp | hp
      · exact (hold _ (mem_held hp hi)).trans (h.held p hp image hi)
      · exact hnew p hp image hi
    · rw [hf]
      intro x image hx hl
      refine (lookUp_map fun p hp => hx p (List.mem_append_right _ hp)).trans ?_
      exact h.last x image (fun p hp => hx p (List.mem_append_left _ hp)) hl
  | false =>
    have hfound := (lookUp_of_not_missing hm).2
    rw [loadImages_of_found hm]
    refine ⟨fun a ha => ?_, h.held, h.last⟩
    rcases List.mem_append.1 ha with ha | ha
    · exact h.cached a ha
    · rw [List.mem_singleton.1 ha]
      exact hfound.imp fun _ _ hfo => hfo.cached

theorem updateCache {q : List ImageTask} {contents : List ImageContent} (h : Inv s)
    (hq : s.uiQueue = .updateCache r l contents :: q) (hlen : contents.length = l.length)
    (hin : inserts addRep r 0 s.imageMap (l.zip contents) = true) :
    Inv ({ s with uiQueue := q }.updateCache addRep r l contents) := by
  have hf := inFlight_updateCache addRep hq
  have hheld : ∀ p ∈ l.zip contents, ∀ image, p.2.image = some image →
      s.imageMap p.1.id = some (some image) := by
    intro p hp image hi
    refine h.held (p.1, p.2.image) ?_ image hi
    rw [hf, ← map_zip_image]
    exact List.mem_append_left _ (List.mem_map_of_mem hp)
  refine ⟨fun a ha => ?_, ?_, ?_⟩
  · rcases List.mem_append.1 ha with ha | ha
    · exact h.cached a ha
    · rw [List.mem_singleton.1 ha]
      exact forall₂_of_zip hlen (update_cached hin hheld)
  · exact fun p hp image hi => update_of_some (h.held p (hf ▸ List.mem_append_right _ hp) image hi)
  · intro x image hx hl
    have hl : lastOutcome x (s.created ++ _) = _ := hl
    rw [lastOutcome_append] at hl
    obtain ⟨hlast, hkeep⟩ := update_last hin x
    cases hn : lastOutcome x (update addRep r 0 s.imageMap (l.zip contents)).created with
    | some o =>
      rw [hn, Option.some_or] at hl
      exact hlast image (hn.trans hl)
    | none =>
      rw [hn, Option.none_or] at hl
      obtain ⟨hk, hne⟩ := hkeep hn
      refine hk.trans (h.last x image (fun p hp hsk => ?_) hl)
      rw [hf] at hp
      rcases List.mem_append.1 hp with hp | hp
      · rw [← map_zip_image] at hp
        obtain ⟨p', hp', rfl⟩ := List.mem_map.1 hp
        exact hne p' hp' hsk
      · exact hx p hp hsk

end Inv

theorem Ready.spares {q : List ImageTask} {r : Nat} {l : List ImageInfo} (hr : Ready addRep s .runUi)
    (hq : s.uiQueue = .loadImages r l :: q) :
    ImageCache.spares (ImageCache.held s.inFlight) s.imageMap l = true := by
  unfold Ready at hr
  rw [hq] at hr
  exact hr

theorem Ready.inserts {q : List ImageTask} {r : Nat} {l : List ImageInfo} {contents : List ImageContent}
    (hr : Ready addRep s .runUi) (hq : s.uiQueue = .updateCache r l contents :: q) :
    ImageCache.inserts addRep r 0 s.imageMap (l.zip contents) = true := by
  unfold Ready at hr
  rw [hq] at hr
  exact hr

theorem Inv.step {e : Event} (h : Inv s) (hsound : Sound s []) (hr : Ready addRep s e)
    (hs : step addRep s e = some t) : Inv t := by
  unfold ImageCache.step at hs
  split at hs
  · rename_i onUI l
    cases hs
    have h' : Inv { s with requests := s.requests ++ [l] } := h.congr rfl rfl rfl rfl
    cases onUI with
    | true => exact h'.loadImages (hr rfl)
    | false => exact h'.congr rfl rfl rfl inFlight_post
  · split at hs
    · cases hs
    · rename_i task q hq
      cases hs
      cases task with
      | loadImages r l =>
        have hf := inFlight_pop hq
        have hsp := hr.spares hq
        rw [← hf] at hsp
        have h' : Inv { s with uiQueue := q } := h.congr rfl rfl rfl hf
        exact h'.loadImages hsp
      | updateCache r l contents =>
        exact h.updateCache hq (hsound.contents r l contents (hq ▸ .head _)) (hr.inserts hq)
  · split at hs
    · cases hs
    · rename_i read _ f q hq
      cases hs
      exact h.congr rfl rfl rfl (inFlight_runFileTask hq (hsound.images f (hq ▸ .head _)) read)

/-! ### Runs -/

/-- Each request is in one queue or has been answered, once; an answer has an entry for each info of
its request, in order, which is what was cached when the callback ran; with all requests answered,
the images were made in the order the loads were started, and of the loads of an id the last one, if
it succeeded, has left its image in the map. -/
structure Coherent (s : ImageCache) : Prop where
  once : (s.waiting ++ s.answers.map Answer.ticket).Perm s.requests.zipIdx
  answered : ∀ a ∈ s.answers, List.Forall₂ (Cached a.map) a.info a.images
  order : s.waiting = [] → s.created.map Prod.fst = s.started
  last : s.waiting = [] → ∀ c c' load image, s.created = c ++ (load, some image) :: c' →
    (∀ p ∈ c', p.1.id ≠ load.id) → s.imageMap.getCachedImage load.id = some image

theorem queues_of_waiting (h : s.waiting = []) : s.uiQueue = [] ∧ s.fileQueue = [] := by
  obtain ⟨hu, hf⟩ := List.append_eq_nil_iff.1 h
  exact ⟨List.map_eq_nil_iff.1 hu, List.map_eq_nil_iff.1 hf⟩

theorem Inv.coherent (h : Inv s) (hsound : Sound s []) : s.Coherent := by
  refine ⟨hsound.once, h.cached, fun hw => ?_, fun hw c c' load image hc hlast => ?_⟩
  · have hs := hsound.started
    rw [(queues_of_waiting hw).1, List.flatMap_nil, List.append_nil] at hs
    exact hs.symm
  · have hf : s.inFlight = [] := by
      unfold inFlight
      rw [(queues_of_waiting hw).1, (queues_of_waiting hw).2]
      rfl
    have hl : lastOutcome load.id s.created = some (some image) := hc ▸ lastOutcome_of_last hlast
    unfold ImageMap.getCachedImage
    rw [h.last load.id image (fun p hp => by rw [hf] at hp; cases hp) hl]
    rfl

theorem imageCache_coherent {as : List Event} (hr : Lts.Run (step addRep) (Ready addRep) {} as s) :
    s.Coherent := by
  have hi : Sound s [] ∧ Inv s := hr.inv (I := fun s => Sound s [] ∧ Inv s)
    (fun _ _ _ h hready hs => ⟨h.1.step hs, h.2.step h.1 hready hs⟩) ⟨sound_initial, inv_initial⟩
  exact hi.2.coherent hi.1

/-- Two images, one of them reloaded. -/
theorem imageCache_coherent_reload : ∃ s, Lts.Run (step fun _ => true) (Ready fun _ => true) {}
      [.loadImages true [.create1x [97] [46, 112, 110, 103] false, .empty],
        .loadImages false [.create1x [98] [46, 106, 112, 103] false],
        .runFile fun _ _ => some [1], .runUi, .runUi, .runFile fun _ _ => none,
        .loadImages true [{ ImageInfo.create1x [97] [46, 112, 110, 103] false with forceReload := true }],
        .runUi, .runFile fun _ _ => some [2], .runUi] s ∧
    s.created.length = 3 ∧ s.waiting = [] ∧ s.Coherent := by
  obtain ⟨s, hs, hc, hw⟩ : ∃ s, Lts.exec (Lts.checked (step fun _ => true) (Ready fun _ => true)) {}
      [.loadImages true [.create1x [97] [46, 112, 110, 103] false, .empty],
        .loadImages false [.create1x [98] [46, 106, 112, 103] false],
        .runFile fun _ _ => some [1], .runUi, .runUi, .runFile fun _ _ => none,
        .loadImages true [{ ImageInfo.create1x [97] [46, 112, 110, 103] false with forceReload := true }],
        .runUi, .runFile fun _ _ => some [2], .runUi] = some s ∧
      s.created.length = 3 ∧ s.waiting = [] := ⟨_, rfl, rfl, rfl⟩
  have hr := Lts.run_of_checked hs
  exact ⟨s, hr, hc, hw, imageCache_coherent hr⟩

/-- A forced reload is asked for while the first load is on its way: its image is handed out but
shadowed by the older one. -/
theorem reload_shadowed :
    ¬ ∀ as s, Lts.Run (step fun _ => true) Lts.Any {} as s → s.Coherent := by
  intro h
  obtain ⟨s, c, load, image, old, hs, hw, hc, hid, hm, hne⟩ : ∃ s c load image old,
      Lts.exec (step fun _ => true) {}
        [.loadImages true [.create1x [97] [46, 112, 110, 103] false],
          .loadImages true [{ ImageInfo.create1x [97] [46, 112, 110, 103] false with forceReload := true }],
          .runFile fun _ _ => some [1], .runFile fun _ _ => some [2], .runUi, .runUi] = some s ∧
      s.waiting = [] ∧ s.created = c ++ [(load, some image)] ∧ load.id = [97] ∧
      s.imageMap [97] = some (some old) ∧ old.load.request ≠ image.load.request :=
    ⟨_, [_], _, ⟨⟨[97], 1, 0⟩, _⟩, ⟨⟨[97], 0, 0⟩, _⟩, rfl, rfl, rfl, rfl, rfl, Nat.zero_ne_one⟩
  have hlast := (h _ s (Lts.run_of_exec hs)).last hw c [] load image hc fun p hp => by cases hp
  unfold ImageMap.getCachedImage at hlast
  rw [hid, hm] at hlast
  cases hlast
  exact hne rfl

end ImageCache

end NplBrowser
