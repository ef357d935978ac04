import Mathlib.Data.List.Forall2
import NplBrowser.ImageCache

/-!
# Requests of the image cache

What holds of every run: each request is answered once, with an entry for each of its infos; an
image that is cached or handed out was made by a load of its id; images are made in the order the
loads were started.
-/

namespace NplBrowser

namespace ImageCache

variable {addRep : RepContent → Bool} {m : ImageMap} {info : ImageInfo} {l : List ImageInfo}
  {x : Bytes} {image : Option Image} {s t : ImageCache}

theorem skip_none : skip info none = true ↔ info.id = kEmptyId := beq_iff_eq

theorem eq_none_of_skip (h : skip info image = false) : image = none ∧ info.id ≠ kEmptyId := by
  cases image with
  | none => exact ⟨rfl, fun he => by rw [skip_none.2 he] at h; cases h⟩
  | some image => cases h

/-! ### `LoadImages` -/

theorem length_lookUp (m : ImageMap) (l : List ImageInfo) : (lookUp m l).images.length = l.length := by
  fun_induction lookUp m l with
  | case1 => rfl
  | case2 m info l hid r ih => exact congrArg Nat.succ ih
  | case3 m info l hid image hm hf r ih => exact congrArg Nat.succ ih
  | case4 m info l hid image hm hf r ih => exact congrArg Nat.succ ih
  | case5 m info l hid hm r ih => exact congrArg Nat.succ ih

/-- The entry of an info that is found in `m`. -/
def Found (m : ImageMap) (info : ImageInfo) (image : Option Image) : Prop :=
  info.id = kEmptyId ∧ image = none ∨ m info.id = some image

/-- A request with nothing missing leaves the map as it is and is answered out of it. -/
theorem lookUp_of_not_missing (h : (lookUp m l).missing = false) :
    (lookUp m l).map = m ∧ List.Forall₂ (Found m) l (lookUp m l).images := by
  fun_induction lookUp m l with
  | case1 => exact ⟨rfl, .nil⟩
  | case2 m info l hid r ih => exact ⟨(ih h).1, .cons (.inl ⟨hid, rfl⟩) (ih h).2⟩
  | case3 => cases h
  | case4 m info l hid image hm hf r ih => exact ⟨(ih h).1, .cons (.inr hm) (ih h).2⟩
  | case5 => cases h

theorem of_erase {id : Bytes} {o : Option Image} (h : m.erase id x = some o) : m x = some o := by
  by_cases hx : x = id
  · subst hx
    rw [ImageMap.erase, Function.update_self] at h
    cases h
  · rwa [ImageMap.erase, Function.update_of_ne hx] at h

theorem lookUp_sub {o : Option Image} (h : (lookUp m l).map x = some o) : m x = some o := by
  fun_induction lookUp m l with
  | case1 => exact h
  | case2 m info l hid r ih => exact ih h
  | case3 m info l hid image hm hf r ih => exact of_erase (ih h)
  | case4 m info l hid image hm hf r ih => exact ih h
  | case5 m info l hid hm r ih => exact ih h

/-- An image that a request is handed comes out of the map. -/
theorem lookUp_handed {p : ImageInfo × Option Image} {image : Image}
    (hp : p ∈ l.zip (lookUp m l).images) (hi : p.2 = some image) : m p.1.id = some (some image) := by
  fun_induction lookUp m l with
  | case1 => cases hp
  | case2 m info l hid r ih =>
    rcases List.mem_cons.1 hp with rfl | hp
    · cases hi
    · exact ih hp
  | case3 m info l hid image' hm hf r ih =>
    rcases List.mem_cons.1 hp with rfl | hp
    · cases hi
    · exact of_erase (ih hp)
  | case4 m info l hid image' hm hf r ih =>
    rcases List.mem_cons.1 hp with rfl | hp
    · exact hm.trans (congrArg some hi)
    · exact ih hp
  | case5 m info l hid hm r ih =>
    rcases List.mem_cons.1 hp with rfl | hp
    · cases hi
    · exact ih hp

/-! ### `UpdateCache` -/

section

variable {r i : Nat} {u : List (ImageInfo × ImageContent)} {c c' : List (Load × Option Image)}
  {o : Option Image}

/-- `image` has come out of a load of `x`. -/
def MadeFor (c : List (Load × Option Image)) (x : Bytes) (image : Option Image) : Prop :=
  ∃ load, load.id = x ∧ (load, image) ∈ c

theorem MadeFor.mono (h : MadeFor c x image) (hc : c ⊆ c') : MadeFor c' x image := by
  obtain ⟨load, hid, hmem⟩ := h
  exact ⟨load, hid, hc hmem⟩

/-- The entry of a callback for `info`: made by a load of its id, or intentionally empty. -/
def Made (c : List (Load × Option Image)) (info : ImageInfo) (image : Option Image) : Prop :=
  info.id = kEmptyId ∧ image = none ∨ MadeFor c info.id image

theorem Made.mono (h : Made c info image) (hc : c ⊆ c') : Made c' info image :=
  h.imp id fun h => h.mono hc

theorem map_fst_update_created : (update addRep r i m u).created.map Prod.fst =
    loads r i (u.map fun p => (p.1, p.2.image)) := by
  fun_induction update addRep r i m u with
  | case1 => rfl
  | case2 i m info content u hs r ih =>
    rw [List.map_cons, loads, if_pos hs]
    exact ih
  | case3 i m info content u hs load image r ih =>
    exact (congrArg (load :: ·) ih).trans (if_neg hs).symm

theorem load_createImage {load : Load} {reps : List RepContent} {image : Image}
    (h : createImage addRep load reps = some image) : image.load = load := by
  unfold createImage at h
  split at h
  · cases h
  · split at h
    · cases h; rfl
    · cases h

theorem load_update_created {load : Load} {image : Image}
    (h : (load, some image) ∈ (update addRep r i m u).created) : image.load = load := by
  fun_induction update addRep r i m u with
  | case1 => cases h
  | case2 i m info content u hs r ih => exact ih h
  | case3 i m info content u hs load' image' r ih =>
    rcases List.mem_cons.1 h with he | h
    · obtain ⟨hl, hi⟩ := Prod.mk.inj he
      rw [hl]
      exact load_createImage hi.symm
    · exact ih h

theorem named_update_created {p : Load × Option Image} (h : p ∈ (update addRep r i m u).created) :
    p.1.id ≠ kEmptyId := by
  fun_induction update addRep r i m u with
  | case1 => cases h
  | case2 i m info content u hs r ih => exact ih h
  | case3 i m info content u hs load image r ih =>
    rcases List.mem_cons.1 h with rfl | h
    · exact (eq_none_of_skip (Bool.eq_false_iff.2 hs)).2
    · exact ih h

theorem of_insert {id : Bytes} (h : m.insert id image x = some o) : m x = some o ∨ x = id ∧ o = image := by
  unfold ImageMap.insert at h
  split at h
  · exact .inl h
  · by_cases hx : x = id
    · subst hx
      rw [Function.update_self] at h
      exact .inr ⟨rfl, (Option.some.inj h).symm⟩
    · rw [Function.update_of_ne hx] at h
      exact .inl h

theorem update_made_map (h : (update addRep r i m u).map x = some o) :
    m x = some o ∨ MadeFor (update addRep r i m u).created x o := by
  fun_induction update addRep r i m u with
  | case1 => exact .inl h
  | case2 i m info content u hs r ih => exact ih h
  | case3 i m info content u hs load image r ih =>
    rcases ih h with h | h
    · rcases of_insert h with h | ⟨rfl, rfl⟩
      · exact .inl h
      · exact .inr ⟨load, rfl, .head _⟩
    · exact .inr (h.mono (List.subset_cons_self _ _))

theorem update_made
    (h : ∀ p ∈ u, ∀ image, p.2.image = some image → MadeFor c p.1.id (some image)) :
    List.Forall₂ (fun p image => Made (c ++ (update addRep r i m u).created) p.1 image) u
      (update addRep r i m u).images := by
  fun_induction update addRep r i m u with
  | case1 => exact .nil
  | case2 i m info content u hs r ih =>
    refine .cons ?_ (ih fun p hp => h p (.tail _ hp))
    cases hi : content.image with
    | none =>
      rw [hi] at hs
      exact .inl ⟨skip_none.1 hs, rfl⟩
    | some image => exact .inr ((h _ (.head _) image hi).mono (List.subset_append_left _ _))
  | case3 i m info content u hs load image r ih =>
    refine .cons (.inr ⟨load, rfl, List.mem_append_right _ (.head _)⟩) ?_
    refine (ih fun p hp => h p (.tail _ hp)).imp fun p image hm => hm.mono ?_
    exact List.append_subset.2 ⟨List.subset_append_left _ _,
      fun q hq => List.mem_append_right _ (.tail _ hq)⟩

theorem map_zip_image (l : List ImageInfo) (contents : List ImageContent) :
    (l.zip contents).map (fun p => (p.1, p.2.image)) = l.zip (contents.map ImageContent.image) :=
  List.zip_map_right.symm

/-- From the entries of a request to its infos. -/
theorem forall₂_of_zip {R : ImageInfo → Option Image → Prop} {contents : List ImageContent}
    {images : List (Option Image)} (hlen : contents.length = l.length)
    (h : List.Forall₂ (fun p image => R p.1 image) (l.zip contents) images) : List.Forall₂ R l images := by
  have hall := List.forall₂_map_left_iff.2 h
  rwa [List.map_fst_zip hlen.ge] at hall

end

/-! ### Requests in flight -/

section

variable {r : Nat} {q : List ImageTask}

/-- The requests in the queues. -/
def waiting (s : ImageCache) : List (List ImageInfo × Nat) :=
  s.uiQueue.map ImageTask.ticket ++ s.fileQueue.map FileTask.ticket

theorem inFlight_post : inFlight { s with uiQueue := s.uiQueue ++ [.loadImages r l] } = s.inFlight := by
  unfold inFlight
  rw [List.flatMap_append]
  show s.uiQueue.flatMap ImageTask.handed ++ [] ++ _ = _
  rw [List.append_nil]

theorem inFlight_pop (hq : s.uiQueue = .loadImages r l :: q) :
    inFlight { s with uiQueue := q } = s.inFlight := by
  unfold inFlight
  rw [hq]
  rfl

/-- A request that has to wait for the FILE thread. -/
theorem loadImages_of_missing (h : (lookUp s.imageMap l).missing = true) :
    s.loadImages r l =
      { s with
        imageMap := (lookUp s.imageMap l).map
        fileQueue := s.fileQueue ++ [⟨r, l, (lookUp s.imageMap l).images⟩] } := if_pos h

/-- A request that is answered at once. -/
theorem loadImages_of_found (h : (lookUp s.imageMap l).missing = false) :
    s.loadImages r l =
      { s with answers := s.answers ++ [⟨r, l, (lookUp s.imageMap l).images, s.imageMap⟩] } := by
  unfold ImageCache.loadImages
  dsimp only
  rw [if_neg (by rw [h]; exact Bool.false_ne_true), (lookUp_of_not_missing h).1]

theorem inFlight_loadImages (h : (lookUp s.imageMap l).missing = true) :
    (s.loadImages r l).inFlight = s.inFlight ++ l.zip (lookUp s.imageMap l).images := by
  rw [loadImages_of_missing h]
  unfold inFlight
  rw [List.flatMap_append, ← List.append_assoc, List.flatMap_singleton]
  rfl

theorem inFlight_updateCache (addRep : RepContent → Bool) {contents : List ImageContent}
    (hq : s.uiQueue = .updateCache r l contents :: q) :
    s.inFlight = l.zip (contents.map ImageContent.image) ++
      ({ s with uiQueue := q }.updateCache addRep r l contents).inFlight := by
  unfold inFlight
  rw [hq, List.flatMap_cons, List.append_assoc]
  rfl

/-- `LoadMissing` hands on what it has been handed. -/
theorem map_image_loadMissing (read : Bytes → Bool → Option Bytes)
    (l : List (ImageInfo × Option Image)) :
    (loadMissing read l).map ImageContent.image = l.map Prod.snd := by
  unfold loadMissing
  rw [List.map_map]
  refine List.map_congr_left fun p _ => ?_
  show ImageContent.image (if skip p.1 p.2 then _ else _) = p.2
  split
  · rfl
  · exact (eq_none_of_skip (Bool.eq_false_iff.2 ‹_›)).1.symm

theorem zip_loadMissing {f : FileTask} (hlen : f.images.length = f.info.length)
    (read : Bytes → Bool → Option Bytes) :
    f.info.zip ((loadMissing read (f.info.zip f.images)).map ImageContent.image) = f.handed := by
  rw [map_image_loadMissing, List.map_snd_zip hlen.le]
  rfl

theorem inFlight_runFileTask {f : FileTask} {q : List FileTask} (hq : s.fileQueue = f :: q)
    (hlen : f.images.length = f.info.length) (read : Bytes → Bool → Option Bytes) :
    ({ s with fileQueue := q }.runFileTask read f).inFlight = s.inFlight := by
  unfold inFlight ImageCache.runFileTask
  rw [hq, List.flatMap_append, List.flatMap_singleton, List.flatMap_cons, ← zip_loadMissing hlen read,
    List.append_assoc]
  rfl

end

/-! ### Every run -/

/-- `E` is the requests that are in no queue because their task is running. -/
structure Sound (s : ImageCache) (E : List (List ImageInfo × Nat)) : Prop where
  contents : ∀ r info contents, .updateCache r info contents ∈ s.uiQueue → contents.length = info.length
  images : ∀ f ∈ s.fileQueue, f.images.length = f.info.length
  once : (E ++ s.waiting ++ s.answers.map Answer.ticket).Perm s.requests.zipIdx
  started : s.started = s.created.map Prod.fst ++ s.uiQueue.flatMap fun t => loads t.ticket.2 0 t.handed
  map : ∀ x image, s.imageMap x = some image → MadeFor s.created x image
  handed : ∀ p ∈ s.inFlight, ∀ image, p.2 = some image → MadeFor s.created p.1.id (some image)
  load : ∀ load image, (load, some image) ∈ s.created → image.load = load
  named : ∀ p ∈ s.created, p.1.id ≠ kEmptyId
  answered : ∀ a ∈ s.answers, List.Forall₂ (Made s.created) a.info a.images

theorem sound_initial : Sound {} [] := by
  refine ⟨fun _ _ _ h => ?_, fun _ h => ?_, .nil, rfl, fun _ _ h => ?_, fun _ h => ?_, fun _ _ h => ?_,
    fun _ h => ?_, fun _ h => ?_⟩
  all_goals cases h

namespace Sound

variable {r : Nat}

theorem request (h : Sound s []) (l : List ImageInfo) :
    Sound { s with requests := s.requests ++ [l] } [(l, s.requests.length)] := by
  refine { h with once := ?_ }
  show ([(l, s.requests.length)] ++ s.waiting ++ s.answers.map Answer.ticket).Perm
    (s.requests ++ [l]).zipIdx
  rw [List.zipIdx_append, Nat.zero_add]
  exact (h.once.cons _).trans (List.perm_append_singleton _ _).symm

theorem post (h : Sound s [(l, r)]) :
    Sound { s with uiQueue := s.uiQueue ++ [.loadImages r l] } [] := by
  refine { h with contents := fun n info contents hm => ?_, once := ?_, started := ?_, handed := ?_ }
  · rcases List.mem_append.1 hm with hm | hm
    · exact h.contents n info contents hm
    · cases List.mem_singleton.1 hm
  · refine (List.Perm.append_right _ ?_).trans h.once
    unfold waiting
    rw [List.map_append, List.nil_append, List.append_assoc]
    exact List.perm_middle
  · rw [List.flatMap_append]
    show s.started = _ ++ (_ ++ [])
    rw [List.append_nil]
    exact h.started
  · rw [inFlight_post]
    exact h.handed

theorem pop {q : List ImageTask} (h : Sound s []) (hq : s.uiQueue = .loadImages r l :: q) :
    Sound { s with uiQueue := q } [(l, r)] := by
  refine { h with contents := fun n info c hm => ?_, once := ?_, started := ?_, handed := ?_ }
  · exact h.contents n info c (hq ▸ .tail _ hm)
  · have ho := h.once
    unfold waiting at ho
    rw [hq] at ho
    exact ho
  · have hst := h.started
    rw [hq] at hst
    exact hst
  · rw [inFlight_pop hq]
    exact h.handed

theorem loadImages (h : Sound s [(l, r)]) : Sound (s.loadImages r l) [] := by
  cases hm : (lookUp s.imageMap l).missing with
  | true =>
    have hf := inFlight_loadImages (r := r) hm
    rw [loadImages_of_missing hm] at hf ⊢
    refine { h with images := fun f hfile => ?_, once := ?_, map := fun x image hx => ?_, handed := ?_ }
    · rcases List.mem_append.1 hfile with hfile | hfile
      · exact h.images f hfile
      · rw [List.mem_singleton.1 hfile]
        exact length_lookUp _ _
    · refine (List.Perm.append_right _ ?_).trans h.once
      unfold waiting
      rw [List.map_append, List.nil_append, ← List.append_assoc]
      exact List.perm_append_singleton _ _
    · exact h.map x image (lookUp_sub hx)
    · rw [hf]
      intro p hp image hi
      rcases List.mem_append.1 hp with hp | hp
      · exact h.handed p hp image hi
      · exact h.map _ _ (lookUp_handed hp hi)
  | false =>
    have hfound := (lookUp_of_not_missing hm).2
    rw [loadImages_of_found hm]
    refine { h with once := ?_, answered := fun a ha => ?_ }
    · refine List.Perm.trans ?_ h.once
      rw [List.map_append, ← List.append_assoc]
      exact List.perm_append_singleton _ _
    · rcases List.mem_append.1 ha with ha | ha
      · exact h.answered a ha
      · rw [List.mem_singleton.1 ha]
        exact hfound.imp fun info image hfo => hfo.imp id (h.map _ _)

theorem updateCache {q : List ImageTask} {contents : List ImageContent} (h : Sound s [])
    (hq : s.uiQueue = .updateCache r l contents :: q) :
    Sound ({ s with uiQueue := q }.updateCache addRep r l contents) [] := by
  have hlen : contents.length = l.length := h.contents r l contents (hq ▸ .head _)
  have hf := inFlight_updateCache addRep hq
  have hsub : s.created ⊆ s.created ++ (update addRep r 0 s.imageMap (l.zip contents)).created :=
    List.subset_append_left _ _
  have hhanded : ∀ p ∈ l.zip contents, ∀ image, p.2.image = some image →
      MadeFor s.created p.1.id (some image) := by
    intro p hp image hi
    refine h.handed (p.1, p.2.image) ?_ image hi
    rw [hf, ← map_zip_image]
    exact List.mem_append_left _ (List.mem_map_of_mem hp)
  refine ⟨fun n info c hm => h.contents n info c (hq ▸ .tail _ hm), h.images, ?_, ?_, ?_, ?_, ?_, ?_, ?_⟩
  · refine List.Perm.trans ?_ h.once
    unfold waiting
    rw [hq]
    show (q.map ImageTask.ticket ++ s.fileQueue.map FileTask.ticket ++
      (s.answers ++ [_]).map Answer.ticket).Perm ((l, r) :: _ ++ _ ++ _)
    rw [List.map_append, ← List.append_assoc]
    exact List.perm_append_singleton _ _
  · have hs := h.started
    rw [hq, List.flatMap_cons] at hs
    show s.started = (s.created ++ _).map Prod.fst ++ _
    rw [List.map_append, map_fst_update_created, List.append_assoc, map_zip_image]
    exact hs
  · intro x image hx
    rcases update_made_map hx with hx | hx
    · exact (h.map x image hx).mono hsub
    · exact hx.mono (List.subset_append_right _ _)
  · exact fun p hp image hi => (h.handed p (hf ▸ List.mem_append_right _ hp) image hi).mono hsub
  · intro load image hmem
    rcases List.mem_append.1 hmem with hmem | hmem
    · exact h.load load image hmem
    · exact load_update_created hmem
  · intro p hmem
    rcases List.mem_append.1 hmem with hmem | hmem
    · exact h.named p hmem
    · exact named_update_created hmem
  · intro a ha
    rcases List.mem_append.1 ha with ha | ha
    · exact (h.answered a ha).imp fun _ _ hm => hm.mono hsub
    · rw [List.mem_singleton.1 ha]
      exact forall₂_of_zip hlen (update_made hhanded)

theorem runFileTask {q : List FileTask} {f : FileTask} (h : Sound s []) (hq : s.fileQueue = f :: q)
    (read : Bytes → Bool → Option Bytes) : Sound ({ s with fileQueue := q }.runFileTask read f) [] := by
  have hlen : f.images.length = f.info.length := h.images f (hq ▸ .head _)
  refine ⟨fun n info c hm => ?_, fun u hu => h.images u (hq ▸ .tail _ hu), ?_, ?_, h.map, ?_, h.load,
    h.named, h.answered⟩
  · rcases List.mem_append.1 hm with hm | hm
    · exact h.contents n info c hm
    · cases List.mem_singleton.1 hm
      show (List.map _ _).length = _
      rw [List.length_map, List.length_zip, hlen, Nat.min_self]
  · refine List.Perm.trans (List.Perm.append_right _ ?_) h.once
    unfold waiting
    rw [hq]
    show ((s.uiQueue ++ [_]).map ImageTask.ticket ++ q.map FileTask.ticket).Perm
      (s.uiQueue.map ImageTask.ticket ++ f.ticket :: q.map FileTask.ticket)
    rw [List.map_append, List.append_assoc]
    rfl
  · show s.started ++ _ = s.created.map Prod.fst ++ (s.uiQueue ++ [_]).flatMap _
    rw [List.flatMap_append, List.flatMap_singleton, ← List.append_assoc, ← h.started]
    show _ = s.started ++ loads f.request 0 (f.info.zip _)
    rw [zip_loadMissing hlen]
    rfl
  · rw [inFlight_runFileTask hq hlen]
    exact h.handed

theorem step {e : Event} (h : Sound s []) (hs : step addRep s e = some t) : Sound t [] := by
  unfold ImageCache.step at hs
  split at hs
  · rename_i onUI l
    cases hs
    cases onUI with
    | true => exact (h.request l).loadImages
    | false => exact (h.request l).post
  · split at hs
    · cases hs
    · rename_i task q hq
      cases hs
      cases task with
      | loadImages r l => exact (h.pop hq).loadImages
      | updateCache r l contents => exact h.updateCache hq
  · split at hs
    · cases hs
    · rename_i read _ f q hq
      cases hs
      exact h.runFileTask hq read

end Sound

/-! ### Answers -/

section

variable {r : Nat} {q : List ImageTask}

/-- A request is in a queue after `LoadImages`, or it has been answered. -/
theorem waiting_loadImages (s : ImageCache) (r : Nat) (l : List ImageInfo) :
    (s.loadImages r l).answers = s.answers ∧ (s.loadImages r l).waiting = s.waiting ++ [(l, r)] ∨
      ((lookUp s.imageMap l).missing = false ∧ (s.loadImages r l).waiting = s.waiting ∧
        ∃ a, (s.loadImages r l).answers = s.answers ++ [a] ∧ a.ticket = (l, r)) := by
  cases hm : (lookUp s.imageMap l).missing with
  | true =>
    rw [loadImages_of_missing hm]
    refine .inl ⟨rfl, ?_⟩
    unfold waiting
    rw [List.map_append, ← List.append_assoc]
    rfl
  | false =>
    rw [loadImages_of_found hm]
    exact .inr ⟨rfl, rfl, _, rfl, rfl⟩

theorem waiting_pop {task : ImageTask} (hq : s.uiQueue = task :: q) :
    s.waiting = task.ticket :: waiting { s with uiQueue := q } := by
  unfold waiting
  rw [hq]
  rfl

theorem waiting_runFileTask {f : FileTask} {q : List FileTask} (hq : s.fileQueue = f :: q)
    (read : Bytes → Bool → Option Bytes) :
    ({ s with fileQueue := q }.runFileTask read f).waiting = s.waiting := by
  unfold waiting ImageCache.runFileTask
  rw [hq, List.map_append, List.append_assoc]
  rfl

/-- A step answers the oldest of the requests in flight, or none. `g` picks requests that are not
those a step may answer out of turn: one that is being made, or one that `LoadImages` has not run
for. -/
theorem step_answers {β : Type*} {e : Event} (hs : step addRep s e = some t) :
    ∃ new : List Answer, t.answers = s.answers ++ new ∧ new.length ≤ 1 ∧
      ∀ g : List ImageInfo × Nat → Option β, (∀ l, g (l, s.requests.length) = none) →
        (∀ r l, .loadImages r l ∈ s.uiQueue → g (l, r) = none) →
        s.waiting.filterMap g = (new.map Answer.ticket).filterMap g ++ t.waiting.filterMap g := by
  unfold ImageCache.step at hs
  split at hs
  · rename_i onUI l
    cases hs
    cases onUI with
    | true =>
      rcases waiting_loadImages { s with requests := s.requests ++ [l] } s.requests.length l with
        ⟨ha, hw⟩ | ⟨-, hw, a, ha, ht⟩
      · refine ⟨[], ha.trans (List.append_nil _).symm, Nat.zero_le _, fun g hg _ => ?_⟩
        rw [if_pos rfl, hw, List.filterMap_append, List.filterMap_cons_none (hg l)]
        exact (List.append_nil _).symm
      · refine ⟨[a], ha, Nat.le_refl _, fun g hg _ => ?_⟩
        rw [if_pos rfl, hw, List.map_singleton, ht, List.filterMap_cons_none (hg l)]
        rfl
    | false =>
      refine ⟨[], (List.append_nil _).symm, Nat.zero_le _, fun g hg _ => ?_⟩
      unfold waiting
      show _ = _ ++ (((s.uiQueue ++ [_]).map ImageTask.ticket) ++ _).filterMap g
      rw [List.map_append, List.filterMap_append, List.filterMap_append, List.filterMap_append]
      show _ = _ ++ (_ ++ [(l, s.requests.length)].filterMap g ++ _)
      rw [List.filterMap_cons_none (hg l), List.filterMap_nil, List.append_nil]
      rfl
  · split at hs
    · cases hs
    · rename_i task q hq
      cases hs
      cases task with
      | loadImages r l =>
        have hpop : s.waiting = (l, r) :: waiting { s with uiQueue := q } := waiting_pop hq
        rcases waiting_loadImages { s with uiQueue := q } r l with ⟨ha, hw⟩ | ⟨-, hw, a, ha, ht⟩
        · refine ⟨[], ha.trans (List.append_nil _).symm, Nat.zero_le _, fun g _ hg => ?_⟩
          have hr := hg r l (hq ▸ .head _)
          show _ = _ ++ ({ s with uiQueue := q }.loadImages r l).waiting.filterMap g
          rw [hw, hpop, List.filterMap_append, List.filterMap_cons_none hr, List.filterMap_cons_none hr,
            List.filterMap_nil, List.append_nil]
          rfl
        · refine ⟨[a], ha, Nat.le_refl _, fun g _ hg => ?_⟩
          have hr := hg r l (hq ▸ .head _)
          show _ = _ ++ ({ s with uiQueue := q }.loadImages r l).waiting.filterMap g
          rw [hw, hpop, List.map_singleton, ht, List.filterMap_cons_none hr, List.filterMap_cons_none hr]
          rfl
      | updateCache r l contents =>
        refine ⟨[_], rfl, Nat.le_refl _, fun g _ _ => ?_⟩
        rw [waiting_pop hq]
        show ([(l, r)] ++ waiting { s with uiQueue := q }).filterMap g = _
        rw [List.filterMap_append]
        rfl
  · split at hs
    · cases hs
    · rename_i read _ f q hq
      cases hs
      refine ⟨[], (List.append_nil _).symm, Nat.zero_le _, fun g _ _ => ?_⟩
      rw [waiting_runFileTask hq]
      rfl

/-- What a step does to the record of requests and images. -/
structure Later (s t : ImageCache) : Prop where
  requests : s.requests <+: t.requests
  created : s.created ⊆ t.created
  posted : ∀ r l, .loadImages r l ∈ t.uiQueue → .loadImages r l ∈ s.uiQueue ∨ r = s.requests.length

theorem uiQueue_loadImages (s : ImageCache) (r : Nat) (l : List ImageInfo) :
    (s.loadImages r l).uiQueue = s.uiQueue := by
  unfold ImageCache.loadImages
  dsimp only
  split <;> rfl

theorem requests_loadImages (s : ImageCache) (r : Nat) (l : List ImageInfo) :
    (s.loadImages r l).requests = s.requests := by
  unfold ImageCache.loadImages
  dsimp only
  split <;> rfl

theorem later_loadImages (s : ImageCache) (r : Nat) (l : List ImageInfo) : s.Later (s.loadImages r l) := by
  unfold ImageCache.loadImages
  dsimp only
  split <;> exact ⟨List.prefix_refl _, List.Subset.refl _, fun _ _ h => .inl h⟩

theorem Later.trans {u : ImageCache} (h₁ : s.Later t) (h₂ : t.Later u) (hr : t.requests = s.requests) :
    s.Later u :=
  ⟨h₁.requests.trans h₂.requests, fun _ h => h₂.created (h₁.created h), fun r l h =>
    (h₂.posted r l h).elim (h₁.posted r l) fun he => .inr (he.trans (congrArg List.length hr))⟩

theorem later_requests (s : ImageCache) (l : List ImageInfo) :
    s.Later ({ s with requests := s.requests ++ [l] }.loadImages s.requests.length l) := by
  have h := later_loadImages { s with requests := s.requests ++ [l] } s.requests.length l
  refine ⟨(List.prefix_append _ _).trans h.requests, h.created, fun r l' hm => .inl ?_⟩
  rwa [uiQueue_loadImages] at hm

theorem step_later {e : Event} (hs : step addRep s e = some t) : s.Later t := by
  unfold ImageCache.step at hs
  split at hs
  · rename_i onUI l
    cases hs
    cases onUI with
    | true => exact later_requests s l
    | false =>
      refine ⟨List.prefix_append _ _, List.Subset.refl _, fun r l' hm => ?_⟩
      rcases List.mem_append.1 hm with hm | hm
      · exact .inl hm
      · cases List.mem_singleton.1 hm
        exact .inr rfl
  · split at hs
    · cases hs
    · rename_i task q hq
      cases hs
      have hpop : s.Later { s with uiQueue := q } :=
        ⟨List.prefix_refl _, List.Subset.refl _, fun _ _ h => .inl (hq ▸ .tail _ h)⟩
      cases task with
      | loadImages r l => exact hpop.trans (later_loadImages _ r l) rfl
      | updateCache r l contents =>
        exact ⟨List.prefix_refl _, List.subset_append_left _ _, hpop.posted⟩
  · split at hs
    · cases hs
    · cases hs
      refine ⟨List.prefix_refl _, List.Subset.refl _, fun r l hm => ?_⟩
      rcases List.mem_append.1 hm with hm | hm
      · exact .inl hm
      · cases List.mem_singleton.1 hm

end

end ImageCache

end NplBrowser
