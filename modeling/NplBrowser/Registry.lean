import NplBrowser.Lib.Run
import NplBrowser.Plugin

/-!
# The plugin and its clients

`LibActivate` run after run, with the processes it launches: a process shows its window some time
later, under the parent and the id of its Start, and ends on a Quit or because the user closes the
window. `FindWindowEx` finds any window of the parent and class asked for; which one is part of the
event.

The map can only be right if nothing ends a window behind the plugin's back (`Registry.Kept`). Then
the ids in it are those of the processes that have not been sent a Quit (`Registry.Inv`), and Start
launches exactly where nothing is there.
-/

namespace NplBrowser

inductive Phase
  | starting | open | gone
deriving DecidableEq

/-- A launched client. -/
structure ClientProcess where
  id : Bytes
  parent : UInt64
  phase : Phase := .starting
  /-- A Quit has been delivered to its window. -/
  quit : Bool := false

namespace ClientProcess

/-- Its window is there, under this parent and class. -/
def shows (p : ClientProcess) (parent : UInt64) (cls : Bytes) : Bool :=
  p.phase = .open ∧ p.parent = parent ∧ cString p.id = cls

/-- It is there, starting or with its window, and will stay. -/
def Serves (p : ClientProcess) (id : Bytes) : Prop := p.phase ≠ .gone ∧ p.quit = false ∧ p.id = id

end ClientProcess

structure Registry where
  globalWndMap : Json := .null
  clients : List ClientProcess := []

inductive RegistryEvent
  | activate (tabMsg : TabMsg) (found : Option Nat)
  | appear (n : Nat)
  | close (n : Nat)

namespace Registry

/-- What `FindWindowEx` may find. -/
def finds (s : Registry) (parent : UInt64) (cls : Bytes) : Option Nat → Bool
  | some n => (s.clients[n]?).any (·.shows parent cls)
  | none => s.clients.all fun p => !p.shows parent cls

def activated (dumpFloat : Double → Bytes) (s : Registry) (tabMsg : TabMsg) (found : Option Nat) :
    Plugin Nat :=
  ((libActivate dumpFloat (fun _ _ => found) tabMsg).run { globalWndMap := s.globalWndMap }).1

/-- What becomes of the processes. -/
def perform (tabMsg : TabMsg) (clients : List ClientProcess) : Effect Nat → List ClientProcess
  | .shellExecute _ _ => clients ++ [{ id := tabMsg.windowId, parent := tabMsg.parent.getD 0 }]
  | .sendMessage n _ =>
    if tabMsg.cmd = lit "Quit" then clients.modify n ({ · with quit := true }) else clients
  | .activate _ _ _ _ => clients

def step (dumpFloat : Double → Bytes) (s : Registry) : RegistryEvent → Option Registry
  | .activate tabMsg found =>
    if tabMsg.parent.all fun parent => s.finds parent (cString tabMsg.windowId) found then
      let p := s.activated dumpFloat tabMsg found
      some { globalWndMap := p.globalWndMap, clients := p.effects.foldl (perform tabMsg) s.clients }
    else none
  | .appear n =>
    if (s.clients[n]?).any (·.phase = .starting) then
      some { s with clients := s.clients.modify n ({ · with phase := .open }) }
    else none
  | .close n =>
    if (s.clients[n]?).any (·.phase ≠ .gone) then
      some { s with clients := s.clients.modify n ({ · with phase := .gone }) }
    else none

/-- `LibActivate` launches a process. -/
def Launches (dumpFloat : Double → Bytes) (s : Registry) (tabMsg : TabMsg) : Prop :=
  ∃ file parameters, .shellExecute file parameters ∈ (s.activated dumpFloat tabMsg none).effects

/-- No process of the id is there, not even a starting one. -/
def Absent (s : Registry) (id : Bytes) : Prop := ∀ p ∈ s.clients, p.phase ≠ .gone → p.id ≠ id

/-- No process of the id is on its way out, and the parent handle can be read if it is needed. -/
def Startable (s : Registry) (tabMsg : TabMsg) : Prop :=
  (∀ p ∈ s.clients, p.phase ≠ .gone → p.id = tabMsg.windowId → p.quit = false) ∧
    (s.Absent tabMsg.windowId → tabMsg.parent ≠ none)

/-- A Quit for an id in the map reaches the window of that id, and no Quit that is sent reaches
another one; a Start does not meet a process on its way out; a process ends only after a Quit. -/
def Kept (s : Registry) : RegistryEvent → Prop
  | .activate tabMsg found =>
    (tabMsg.cmd = lit "Start" → s.Startable tabMsg) ∧
      (tabMsg.cmd = lit "Quit" → tabMsg.parent ≠ none →
        (s.globalWndMap.find tabMsg.windowId ≠ none → found ≠ none ∧ (read tabMsg).dumps = true) ∧
        ∀ n (p : ClientProcess), found = some n → s.clients[n]? = some p → (read tabMsg).dumps = true →
          p.id = tabMsg.windowId)
  | .appear _ => True
  | .close n => ∀ p : ClientProcess, s.clients[n]? = some p → p.quit = true

/-- The ids in the map are those being served, and no id is there twice. -/
structure Inv (s : Registry) : Prop where
  isMap : s.globalWndMap.isMap = true
  unique : ∀ (m n : Nat) (p q : ClientProcess), s.clients[m]? = some p → s.clients[n]? = some q →
    p.phase ≠ .gone → q.phase ≠ .gone → p.id = q.id → m = n
  registered : ∀ id, s.globalWndMap.find id ≠ none ↔
    ∃ n : Nat, ∃ p : ClientProcess, s.clients[n]? = some p ∧ p.Serves id

section
variable {dumpFloat : Double → Bytes} {s s' : Registry} {t : TabMsg} {found : Option Nat}

/-! ### What a message does -/

theorem activated_no_parent (h : t.parent = none) :
    s.activated dumpFloat t found = { globalWndMap := s.globalWndMap } := by
  rw [activated, libActivate_run, h]

theorem activated_start (hm : s.globalWndMap.isMap = true) (hp : t.parent ≠ none)
    (hc : t.cmd = lit "Start") : s.activated dumpFloat t found =
      if s.globalWndMap.find t.windowId = none then
        { globalWndMap := register s.globalWndMap t.windowId,
          effects := [.shellExecute (cString t.clientFile) (cString t.cmdline)] }
      else { globalWndMap := s.globalWndMap } := by
  obtain ⟨parent, hp⟩ := Option.ne_none_iff_exists'.1 hp
  rw [activated, libActivate_run, hp]
  simp only [if_pos hc]
  rw [startWindow_run hm]
  rfl

theorem copyData_eq_none_iff {input : Json} :
    copyData dumpFloat input = none ↔ input.dumps = false := by
  rw [copyData, Option.map_eq_none_iff, ← Option.not_isSome_iff_eq_none, Json.isSome_dump,
    Bool.not_eq_true]

theorem foldl_perform_sent (parent : UInt64) (clients : List ClientProcess) :
    (sent dumpFloat (fun _ _ => found) (read t) t.windowId t.cmd t.callbackFile t.parentHandle
      parent).1.foldl (perform t) clients =
      if t.cmd = lit "Quit" ∧ (read t).dumps = true then
        found.elim clients fun n => clients.modify n ({ · with quit := true })
      else clients := by
  unfold sent
  cases found with
  | none => simp
  | some n =>
    cases hd : copyData dumpFloat (read t) with
    | none =>
      have := copyData_eq_none_iff.1 hd
      simp [this]
    | some lpData =>
      have hdumps : (read t).dumps = true := by
        by_contra h
        rw [copyData_eq_none_iff.2 (by simpa using h)] at hd
        cases hd
      by_cases hc : t.callbackFile = [] <;> simp [hc, hdumps, perform]

theorem activated_other {parent : UInt64} (hp : t.parent = some parent) (hc : t.cmd ≠ lit "Start") :
    s.activated dumpFloat t found =
      { globalWndMap :=
          if t.cmd = lit "Quit" then unregister s.globalWndMap t.windowId else s.globalWndMap,
        effects := (sent dumpFloat (fun _ _ => found) (read t) t.windowId t.cmd t.callbackFile
          t.parentHandle parent).1 } := by
  rw [activated, libActivate_run, hp]
  simp only [if_neg hc]
  rw [sendCommand_run]
  rfl

/-! ### The invariant -/

theorem Inv.init : Inv ({} : Registry) where
  isMap := rfl
  unique m n p q hp := by simp at hp
  registered id := by simp [Json.find]

/-- A process may change, if it does not come back. -/
theorem Inv.modify (h : s.Inv) {n : Nat} {f : ClientProcess → ClientProcess} {map : Json}
    (hid : ∀ p, (f p).id = p.id) (hgone : ∀ p, s.clients[n]? = some p → p.phase = .gone →
      (f p).phase = .gone) (hmap : map.isMap = true)
    (hreg : ∀ id, map.find id ≠ none ↔
      ∃ m : Nat, ∃ p : ClientProcess, (s.clients.modify n f)[m]? = some p ∧ p.Serves id) :
    Inv { globalWndMap := map, clients := s.clients.modify n f } where
  isMap := hmap
  unique := by
    have hold : ∀ (m : Nat) (q : ClientProcess), (s.clients.modify n f)[m]? = some q → q.phase ≠ .gone →
        ∃ p : ClientProcess, s.clients[m]? = some p ∧ p.phase ≠ .gone ∧ p.id = q.id := by
      intro m q hq hne
      rw [List.getElem?_modify, Option.map_eq_map, Option.map_eq_some_iff] at hq
      obtain ⟨p, hp, rfl⟩ := hq
      refine ⟨p, hp, ?_, ?_⟩
      · intro hg
        split at hne
        · subst_vars; exact hne (hgone p hp hg)
        · exact hne hg
      · split
        exacts [(hid p).symm, rfl]
    intro m m' q q' hq hq' hne hne' hqid
    obtain ⟨p, hp, hpne, hpid⟩ := hold m q hq hne
    obtain ⟨p', hp', hpne', hpid'⟩ := hold m' q' hq' hne'
    exact h.unique m m' p p' hp hp' hpne hpne' (by rw [hpid, hpid', hqid])
  registered := hreg

/-- The processes that serve an id, when one has changed. -/
theorem serves_modify {n : Nat} {f : ClientProcess → ClientProcess} {p₀ : ClientProcess}
    (hp₀ : s.clients[n]? = some p₀) (id : Bytes) :
    (∃ m : Nat, ∃ p : ClientProcess, (s.clients.modify n f)[m]? = some p ∧ p.Serves id) ↔
      (f p₀).Serves id ∨ ∃ m : Nat, ∃ p : ClientProcess, m ≠ n ∧ s.clients[m]? = some p ∧ p.Serves id := by
  simp only [List.getElem?_modify, Option.map_eq_map, Option.map_eq_some_iff]
  constructor
  · rintro ⟨m, q, ⟨p, hp, rfl⟩, hserves⟩
    by_cases hm : n = m
    · subst hm
      rw [hp₀] at hp
      cases hp
      rw [if_pos rfl] at hserves
      exact .inl hserves
    · rw [if_neg hm] at hserves
      exact .inr ⟨m, p, Ne.symm hm, hp, hserves⟩
  · rintro (hserves | ⟨m, p, hm, hp, hserves⟩)
    · exact ⟨n, _, ⟨p₀, hp₀, rfl⟩, by rwa [if_pos rfl]⟩
    · exact ⟨m, _, ⟨p, hp, rfl⟩, by rwa [if_neg (Ne.symm hm)]⟩

theorem serves_split {n : Nat} {p₀ : ClientProcess} (hp₀ : s.clients[n]? = some p₀) (id : Bytes) :
    (∃ m : Nat, ∃ p : ClientProcess, s.clients[m]? = some p ∧ p.Serves id) ↔
      p₀.Serves id ∨ ∃ m : Nat, ∃ p : ClientProcess, m ≠ n ∧ s.clients[m]? = some p ∧ p.Serves id := by
  have h := serves_modify (f := fun p => p) hp₀ id
  have hmod : s.clients.modify n (fun p => p) = s.clients := List.modify_id _ _
  rwa [hmod] at h

theorem Inv.appear (h : s.Inv) {n : Nat} {p : ClientProcess} (hp : s.clients[n]? = some p)
    (hphase : p.phase = .starting) :
    Inv { s with clients := s.clients.modify n ({ · with phase := .open }) } := by
  refine h.modify (fun _ => rfl) ?_ h.isMap fun id => ?_
  · intro p' hp' hgone
    rw [hp] at hp'
    cases hp'
    rw [hphase] at hgone
    cases hgone
  · have hserves : ({ p with phase := .open } : ClientProcess).Serves id ↔ p.Serves id := by
      simp [ClientProcess.Serves, hphase]
    rw [h.registered, serves_split hp, serves_modify hp, hserves]

theorem Inv.close (h : s.Inv) {n : Nat} {p : ClientProcess} (hp : s.clients[n]? = some p)
    (hquit : p.quit = true) :
    Inv { s with clients := s.clients.modify n ({ · with phase := .gone }) } := by
  refine h.modify (fun _ => rfl) (fun _ _ _ => rfl) h.isMap fun id => ?_
  have hold : ¬ p.Serves id := fun hs => by simpa [hquit] using hs.2.1
  have hnew : ¬ ({ p with phase := .gone } : ClientProcess).Serves id := fun hs => hs.1 rfl
  rw [h.registered, serves_split hp, serves_modify hp]
  simp only [hold, hnew, false_or]

theorem Inv.quit (h : s.Inv) {n : Nat} {p : ClientProcess} (hp : s.clients[n]? = some p)
    (hopen : p.phase ≠ .gone) :
    Inv { globalWndMap := unregister s.globalWndMap p.id,
          clients := s.clients.modify n ({ · with quit := true }) } := by
  refine h.modify (fun _ => rfl) (fun _ _ hg => hg) (isMap_unregister h.isMap _) fun id => ?_
  have hnew : ¬ ({ p with quit := true } : ClientProcess).Serves id := fun hs => by
    have := hs.2.1
    simp at this
  rw [serves_modify hp, find_unregister]
  simp only [hnew, false_or]
  constructor
  · intro hne
    have hid : id ≠ p.id := fun heq => by simp [heq] at hne
    rw [if_neg hid, h.registered] at hne
    obtain ⟨m, q, hq, hserves⟩ := hne
    refine ⟨m, q, ?_, hq, hserves⟩
    rintro rfl
    rw [hp] at hq
    cases hq
    exact hid hserves.2.2.symm
  · rintro ⟨m, q, hm, hq, hserves⟩
    have hid : id ≠ p.id := by
      intro heq
      exact hm (h.unique m n q p hq hp hserves.1 hopen (hserves.2.2.trans heq))
    rw [if_neg hid, h.registered]
    exact ⟨m, q, hq, hserves⟩

theorem Inv.launch (h : s.Inv) {id : Bytes} (habsent : s.Absent id) (parent : UInt64) :
    Inv { globalWndMap := register s.globalWndMap id, clients := s.clients ++ [⟨id, parent, .starting, false⟩] } where
  isMap := rfl
  unique := by
    have hcase : ∀ (m : Nat) (q : ClientProcess), (s.clients ++ [⟨id, parent, .starting, false⟩])[m]? = some q →
        q.phase ≠ .gone → (s.clients[m]? = some q ∧ q.id ≠ id) ∨ (m = s.clients.length ∧ q.id = id) := by
      intro m q hq hne
      rcases Nat.lt_or_ge m s.clients.length with hm | hm
      · rw [List.getElem?_append_left hm] at hq
        exact .inl ⟨hq, habsent q (List.mem_of_getElem? hq) hne⟩
      · rw [List.getElem?_append_right hm, List.getElem?_singleton] at hq
        split at hq
        · cases hq
          exact .inr ⟨by omega, rfl⟩
        · cases hq
    intro m m' q q' hq hq' hne hne' hid
    rcases hcase m q hq hne with ⟨hold, hq₁⟩ | ⟨rfl, hq₁⟩ <;>
      rcases hcase m' q' hq' hne' with ⟨hold', hq₂⟩ | ⟨rfl, hq₂⟩
    · exact h.unique m m' q q' hold hold' hne hne' hid
    · exact absurd (hid.trans hq₂) hq₁
    · exact absurd (hid.symm.trans hq₁) hq₂
    · rfl
  registered := by
    intro k
    rw [find_register]
    constructor
    · intro hne
      by_cases hk : k = id
      · subst hk
        refine ⟨s.clients.length, ⟨k, parent, .starting, false⟩, ?_, by simp, rfl, rfl⟩
        rw [List.getElem?_append_right (Nat.le_refl _), Nat.sub_self]
        rfl
      · rw [if_neg hk, h.registered] at hne
        obtain ⟨m, q, hq, hserves⟩ := hne
        have hm : m < s.clients.length := (List.getElem?_eq_some_iff.1 hq).1
        exact ⟨m, q, by rwa [List.getElem?_append_left hm], hserves⟩
    · rintro ⟨m, q, hq, hserves⟩
      by_cases hk : k = id
      · simp [hk]
      · rw [if_neg hk, h.registered]
        rcases Nat.lt_or_ge m s.clients.length with hm | hm
        · rw [List.getElem?_append_left hm] at hq
          exact ⟨m, q, hq, hserves⟩
        · rw [List.getElem?_append_right hm, List.getElem?_singleton] at hq
          split at hq
          · cases hq
            exact absurd hserves.2.2.symm hk
          · cases hq

/-- Without an entry in the map, and with nothing on its way out, there is nothing. -/
theorem Inv.absent (h : s.Inv) {id : Bytes} (hfind : s.globalWndMap.find id = none)
    (hquit : ∀ p ∈ s.clients, p.phase ≠ .gone → p.id = id → p.quit = false) : s.Absent id := by
  intro p hmem hne hid
  obtain ⟨n, hp⟩ := List.mem_iff_getElem?.1 hmem
  exact (h.registered id).2 ⟨n, p, hp, hne, hquit p hmem hne hid, hid⟩ hfind

theorem Inv.not_absent (h : s.Inv) {id : Bytes} (hfind : s.globalWndMap.find id ≠ none) :
    ¬ s.Absent id := by
  intro habsent
  obtain ⟨n, p, hp, hserves⟩ := (h.registered id).1 hfind
  exact habsent p (List.mem_of_getElem? hp) hserves.1 hserves.2.2

theorem open_of_finds {parent : UInt64} {cls : Bytes} {n : Nat}
    (h : s.finds parent cls (some n) = true) : ∃ p, s.clients[n]? = some p ∧ p.phase = .open := by
  have hany : (s.clients[n]?).any (·.shows parent cls) = true := h
  cases hp : s.clients[n]? with
  | none => simp [hp] at hany
  | some p =>
    rw [hp, Option.any_some, ClientProcess.shows, decide_eq_true_eq] at hany
    exact ⟨p, rfl, hany.1⟩

/-- A Quit. -/
theorem Inv.sendQuit (h : s.Inv) {id : Bytes} {d : Bool}
    (hreach : s.globalWndMap.find id ≠ none → found ≠ none ∧ d = true)
    (hown : ∀ n (p : ClientProcess), found = some n → s.clients[n]? = some p → d = true → p.id = id)
    (hopen : ∀ n, found = some n → ∃ p, s.clients[n]? = some p ∧ p.phase = .open) :
    Inv { globalWndMap := unregister s.globalWndMap id,
          clients := if d = true then found.elim s.clients fun n =>
            s.clients.modify n ({ · with quit := true }) else s.clients } := by
  by_cases hsent : found ≠ none ∧ d = true
  · obtain ⟨hfound, hd⟩ := hsent
    obtain ⟨n, rfl⟩ := Option.ne_none_iff_exists'.1 hfound
    obtain ⟨p, hp, hphase⟩ := hopen n rfl
    have hid := hown n p rfl hp hd
    subst hid
    rw [if_pos hd]
    exact h.quit hp (by simp [hphase])
  · have hfind : s.globalWndMap.find id = none := by
      by_contra hc
      exact hsent (hreach hc)
    rw [unregister, if_pos hfind]
    have hsame : (if d = true then found.elim s.clients fun n =>
        s.clients.modify n ({ · with quit := true }) else s.clients) = s.clients := by
      split
      · rw [Classical.not_and_iff_not_or_not, not_not] at hsent
        rw [hsent.resolve_right (not_not_intro ‹_›)]
        rfl
      · rfl
    rw [hsame]
    exact h

theorem Inv.activate (h : s.Inv) (hk : s.Kept (.activate t found))
    (hs : s.step dumpFloat (.activate t found) = some s') : s'.Inv := by
  unfold step at hs
  rw [Option.ite_none_right_eq_some, Option.some.injEq] at hs
  obtain ⟨hfinds, rfl⟩ := hs
  cases hparent : t.parent with
  | none =>
    rw [activated_no_parent hparent]
    exact h
  | some parent =>
    by_cases hstart : t.cmd = lit "Start"
    · rw [activated_start h.isMap (by simp [hparent]) hstart]
      split
      · exact h.launch (h.absent ‹_› (hk.1 hstart).1) _
      · exact h
    · rw [activated_other hparent hstart]
      simp only [foldl_perform_sent]
      by_cases hquit : t.cmd = lit "Quit"
      · obtain ⟨hreach, hown⟩ := hk.2 hquit (by simp [hparent])
        simp only [hquit, if_true, true_and]
        refine h.sendQuit hreach hown fun n hn => ?_
        rw [hparent, Option.all_some, hn] at hfinds
        exact open_of_finds hfinds
      · simp only [hquit, if_false, false_and]
        exact h

theorem Inv.step {e : RegistryEvent} (h : s.Inv) (hk : s.Kept e) (hs : s.step dumpFloat e = some s') :
    s'.Inv := by
  cases e with
  | activate t found => exact h.activate hk hs
  | appear n =>
    unfold Registry.step at hs
    rw [Option.ite_none_right_eq_some, Option.some.injEq] at hs
    obtain ⟨hphase, rfl⟩ := hs
    cases hp : s.clients[n]? with
    | none => simp [hp] at hphase
    | some p => exact h.appear hp (by simpa [hp] using hphase)
  | close n =>
    unfold Registry.step at hs
    rw [Option.ite_none_right_eq_some, Option.some.injEq] at hs
    obtain ⟨hphase, rfl⟩ := hs
    cases hp : s.clients[n]? with
    | none => simp [hp] at hphase
    | some p => exact h.close hp (hk p hp)

theorem Inv.launches_iff (h : s.Inv) (hc : t.cmd = lit "Start") (hk : s.Startable t) :
    s.Launches dumpFloat t ↔ s.Absent t.windowId := by
  unfold Launches
  by_cases hfind : s.globalWndMap.find t.windowId = none
  · have habsent := h.absent hfind hk.1
    refine iff_of_true ?_ habsent
    rw [activated_start h.isMap (hk.2 habsent) hc, if_pos hfind]
    exact ⟨_, _, .head _⟩
  · refine iff_of_false ?_ (h.not_absent hfind)
    by_cases hp : t.parent = none
    · rw [activated_no_parent hp]
      rintro ⟨_, _, hmem⟩
      cases hmem
    · rw [activated_start h.isMap hp hc, if_neg hfind]
      rintro ⟨_, _, hmem⟩
      cases hmem

/-- In every state reached while the registry is kept, a Start launches a client exactly if no
process of its id is there, and no id has two. -/
theorem start_launches_iff {es : List RegistryEvent}
    (hrun : Lts.Run (Registry.step dumpFloat) Kept {} es s) :
    (∀ t : TabMsg, t.cmd = lit "Start" → s.Startable t →
      (s.Launches dumpFloat t ↔ s.Absent t.windowId)) ∧
    ∀ (m n : Nat) (p q : ClientProcess), s.clients[m]? = some p → s.clients[n]? = some q →
      p.phase ≠ .gone → q.phase ≠ .gone → p.id = q.id → m = n := by
  have h : s.Inv := hrun.inv (fun _ _ _ h hk hs => h.step hk hs) .init
  exact ⟨fun t hc hk => h.launches_iff hc hk, h.unique⟩

theorem step_activate {parent : UInt64} (hp : t.parent = some parent)
    (hf : s.finds parent (cString t.windowId) found = true) :
    s.step dumpFloat (.activate t found) = some
      { globalWndMap := (s.activated dumpFloat t found).globalWndMap,
        clients := (s.activated dumpFloat t found).effects.foldl (perform t) s.clients } := by
  have hall : (t.parent.all fun parent => s.finds parent (cString t.windowId) found) = true := by
    rw [hp, Option.all_some]
    exact hf
  exact if_pos hall

end

/-- A message of the id `main`, without a parent. -/
def message (cmd : Bytes) : TabMsg where
  cmd
  callbackFile := []
  cmdline := lit "-id=\"main\""
  clientName := []
  parentHandle := []
  cefclientConfigFilename := []
  pid := []
  id := lit "main"
  url := []
  resize := false
  visible := true
  enabled := true
  x := .zero
  y := .zero
  width := .zero
  height := .zero
  zoom := .zero

theorem parent_message (cmd : Bytes) : (message cmd).parent = some 0 := rfl

/-- The window is started, appears, is sent a Quit and closes; then it can be started again. -/
theorem start_launches_iff_again :
    let dumpFloat : Double → Bytes := fun _ => lit "0.0"
    ∃ s, Lts.exec (step dumpFloat) {} [.activate (message (lit "Start")) none, .appear 0,
        .activate (message (lit "Quit")) (some 0), .close 0] = some s ∧
      s.Launches dumpFloat (message (lit "Start")) := by
  intro dumpFloat
  let c : ClientProcess := ⟨lit "main", 0, .starting, false⟩
  let s₁ : Registry := { globalWndMap := register .null (lit "main"), clients := [c] }
  let s₂ : Registry := { s₁ with clients := [{ c with phase := .open }] }
  let s₃ : Registry :=
    { globalWndMap := unregister s₁.globalWndMap (lit "main"),
      clients := [{ c with phase := .open, quit := true }] }
  let s₄ : Registry := { s₃ with clients := [{ c with phase := .gone, quit := true }] }
  have hdumps : (read (message (lit "Quit"))).dumps = true := by decide +kernel
  have h₁ : step dumpFloat {} (.activate (message (lit "Start")) none) = some s₁ := by
    rw [step_activate rfl rfl, activated_start rfl (by simp [parent_message]) rfl]
    rfl
  have h₂ : s₁.step dumpFloat (.appear 0) = some s₂ := rfl
  have h₃ : s₂.step dumpFloat (.activate (message (lit "Quit")) (some 0)) = some s₃ := by
    rw [step_activate rfl rfl, activated_other rfl (by decide), foldl_perform_sent, hdumps]
    rfl
  have h₄ : s₃.step dumpFloat (.close 0) = some s₄ := rfl
  have hk₁ : Kept {} (.activate (message (lit "Start")) none) :=
    ⟨fun _ => ⟨nofun, by simp [parent_message]⟩, fun h => absurd h (by decide)⟩
  have hk₃ : s₂.Kept (.activate (message (lit "Quit")) (some 0)) := by
    refine ⟨fun h => absurd h (by decide), fun _ _ => ⟨fun _ => ⟨nofun, hdumps⟩, ?_⟩⟩
    rintro n p ⟨⟩ ⟨⟩ -
    rfl
  have hk₄ : s₃.Kept (.close 0) := by
    rintro p ⟨⟩
    rfl
  have hk₂ : s₁.Kept (.appear 0) := trivial
  have hrun := Lts.Run.cons hk₁ h₁ (.cons hk₂ h₂ (.cons hk₃ h₃ (.cons hk₄ h₄ (.nil s₄))))
  refine ⟨s₄, ?_, ((start_launches_iff hrun).1 (message (lit "Start")) rfl ⟨?_, by simp [parent_message]⟩).2 ?_⟩
  · rw [Lts.exec_cons h₁, Lts.exec_cons h₂, Lts.exec_cons h₃, Lts.exec_cons h₄]
    rfl
  · rintro p (_ | ⟨_, ⟨⟩⟩) hne
    exact absurd rfl hne
  · rintro p (_ | ⟨_, ⟨⟩⟩) hne
    exact absurd rfl hne

/-- The user closes the window: its id stays in the map, and cannot be started again. -/
theorem closed_by_user :
    let dumpFloat : Double → Bytes := fun _ => lit "0.0"
    ∃ s, Lts.exec (step dumpFloat) {} [.activate (message (lit "Start")) none, .appear 0, .close 0] =
        some s ∧ s.Absent (lit "main") ∧ ¬ s.Launches dumpFloat (message (lit "Start")) := by
  intro dumpFloat
  let c : ClientProcess := ⟨lit "main", 0, .starting, false⟩
  let s₁ : Registry := { globalWndMap := register .null (lit "main"), clients := [c] }
  let s₃ : Registry := { s₁ with clients := [{ c with phase := .gone }] }
  have h₁ : step dumpFloat {} (.activate (message (lit "Start")) none) = some s₁ := by
    rw [step_activate rfl rfl, activated_start rfl (by simp [parent_message]) rfl]
    rfl
  refine ⟨s₃, ?_, ?_, ?_⟩
  · rw [Lts.exec_cons h₁]
    rfl
  · rintro p (_ | ⟨_, ⟨⟩⟩) hne
    exact absurd rfl hne
  · rintro ⟨file, parameters, hmem⟩
    rw [activated_start rfl (by simp [parent_message]) rfl] at hmem
    cases hmem

end Registry

end NplBrowser
