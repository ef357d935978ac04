import NplBrowser.Codec
import NplBrowser.Registry

/-!
# What a failing call leaves behind

`LibActivate` changes `global_wnd_map` before each step that can fail: Start registers the id before
`ShellExecute`, whose result it does not look at, and Quit takes the id out before the message is
dumped. Nothing is undone, and no exception is caught. So a call is all or nothing exactly when
nothing fails in it (`allOrNothing_iff`).
-/

namespace NplBrowser

/-! ## Which messages can be dumped -/

namespace BrowserParams

theorem dumps_toJson_iff {p : BrowserParams} :
    p.toJson.dumps = true ↔ ∀ s ∈ p.strings, utf8 s = true := by
  refine ⟨?_, dumps_toJson⟩
  intro h s hs
  rw [toJson, Json.dumps_object] at h
  have hmem : ∀ {k v}, (k, Json.string v) ∈ p.members → utf8 v = true := by
    intro k v hkv
    have hfound := Assoc.mem_of_find? (Assoc.find?_insertAll p.nodup_members hkv [])
    have hd := (h _ hfound).2
    rwa [Json.dumps] at hd
  have hkey : ∃ k, (k, Json.string s) ∈ p.members := by
    simp only [strings, List.mem_cons, List.not_mem_nil, or_false] at hs
    rcases hs with rfl | rfl | rfl | rfl | rfl | rfl | rfl | rfl | rfl
    exacts [⟨lit "cmd", by simp [members]⟩, ⟨lit "callback_file", by simp [members]⟩,
      ⟨lit "cmdline", by simp [members]⟩, ⟨lit "client_name", by simp [members]⟩,
      ⟨lit "parent_handle", by simp [members]⟩, ⟨lit "cefclient_config_filename", by simp [members]⟩,
      ⟨lit "pid", by simp [members]⟩, ⟨lit "id", by simp [members]⟩, ⟨lit "url", by simp [members]⟩]
  obtain ⟨k, hk⟩ := hkey
  exact hmem hk

end BrowserParams

/-! ## A call -/

section
variable {ω : Type}

/-- What a call meets: the text of floats, the windows there are, and whether a process can be
launched. -/
structure Host (ω : Type) where
  dumpFloat : Double → Bytes
  findWindowEx : UInt64 → Bytes → Option ω
  shellExecute : Bytes → Bytes → Bool

variable (host : Host ω) (map : Json) (t : TabMsg)

/-- The map after the call, what the call has done, and whether an exception escapes. -/
def activate : Plugin ω × Except PluginError Unit :=
  (libActivate host.dumpFloat host.findWindowEx t).run { globalWndMap := map }

/-- An exception has been thrown, by the conversion of the handle or the dump, or a process could not
be launched. -/
def Failed : Prop :=
  (∃ e, (activate host map t).2 = .error e) ∨
    ∃ file parameters, .shellExecute file parameters ∈ (activate host map t).1.effects ∧
      host.shellExecute file parameters = false

structure AllOrNothing : Prop where
  noEscape : (activate host map t).2 = .ok ()
  launched : ∀ id, map.find id = none → (activate host map t).1.globalWndMap.find id ≠ none →
    id = t.windowId ∧ ∃ file parameters,
      .shellExecute file parameters ∈ (activate host map t).1.effects ∧
        host.shellExecute file parameters = true
  sent : t.cmd = lit "Quit" → ∀ parent hwnd, t.parent = some parent →
    host.findWindowEx parent (cString t.windowId) = some hwnd → map.find t.windowId ≠ none →
      (activate host map t).1.globalWndMap.find t.windowId = none →
        ∃ lpData, copyData host.dumpFloat (read t) = some lpData ∧
          .sendMessage hwnd lpData ∈ (activate host map t).1.effects
  unchanged : Failed host map t → (activate host map t).1.globalWndMap = map

/-- The parent handle is a number; a new id's process can be launched; a message that finds its
window is valid UTF-8. -/
def NothingFails : Prop :=
  ∃ parent, t.parent = some parent ∧
    if t.cmd = lit "Start" then
      map.find t.windowId = none → host.shellExecute (cString t.clientFile) (cString t.cmdline) = true
    else host.findWindowEx parent (cString t.windowId) ≠ none → ∀ s ∈ t.params.strings, utf8 s = true

variable {host map t}

/-! ### By the kind of message -/

theorem activate_no_parent (h : t.parent = none) :
    activate host map t = ({ globalWndMap := map }, .error .stoull) := by
  rw [activate, libActivate_run, h]

theorem activate_start (hm : map.isMap = true) (hp : t.parent ≠ none) (hc : t.cmd = lit "Start") :
    activate host map t =
      (if map.find t.windowId = none then
        { globalWndMap := register map t.windowId,
          effects := [.shellExecute (cString t.clientFile) (cString t.cmdline)] }
      else { globalWndMap := map }, .ok ()) := by
  obtain ⟨parent, hp⟩ := Option.ne_none_iff_exists'.1 hp
  rw [activate, libActivate_run, hp]
  simp only [if_pos hc]
  rw [startWindow_run hm]
  rfl

theorem activate_other {parent : UInt64} (hp : t.parent = some parent) (hc : t.cmd ≠ lit "Start") :
    activate host map t =
      ({ globalWndMap := if t.cmd = lit "Quit" then unregister map t.windowId else map,
         effects := (sent host.dumpFloat host.findWindowEx (read t) t.windowId t.cmd t.callbackFile
          t.parentHandle parent).1 },
        (sent host.dumpFloat host.findWindowEx (read t) t.windowId t.cmd t.callbackFile t.parentHandle
          parent).2) := by
  rw [activate, libActivate_run, hp]
  simp only [if_neg hc]
  rw [sendCommand_run]
  rfl

/-- The map never becomes anything but null or an object. -/
theorem isMap_activate (hm : map.isMap = true) : (activate host map t).1.globalWndMap.isMap = true := by
  cases hp : t.parent with
  | none => rwa [activate_no_parent hp]
  | some parent =>
    by_cases hc : t.cmd = lit "Start"
    · rw [activate_start hm (by simp [hp]) hc]
      dsimp only
      split
      exacts [rfl, hm]
    · rw [activate_other hp hc]
      dsimp only
      split
      exacts [isMap_unregister hm _, hm]

theorem copyData_read_eq_none : copyData host.dumpFloat (read t) = none ↔ ¬ ∀ s ∈ t.params.strings, utf8 s = true := by
  rw [← BrowserParams.dumps_toJson_iff, Registry.copyData_eq_none_iff, Bool.not_eq_true]
  rfl

/-- A message throws if it finds its window and cannot be dumped. -/
theorem sent_error_iff {parent : UInt64} :
    (∃ e, (sent host.dumpFloat host.findWindowEx (read t) t.windowId t.cmd t.callbackFile t.parentHandle
      parent).2 = .error e) ↔
      host.findWindowEx parent (cString t.windowId) ≠ none ∧ copyData host.dumpFloat (read t) = none := by
  unfold sent
  cases host.findWindowEx parent (cString t.windowId) with
  | none => simp
  | some hwnd => cases copyData host.dumpFloat (read t) <;> simp

/-- Nothing is launched but by Start. -/
theorem not_shellExecute_sent (parent : UInt64) (file parameters : Bytes) :
    .shellExecute file parameters ∉ (sent host.dumpFloat host.findWindowEx (read t) t.windowId t.cmd
      t.callbackFile t.parentHandle parent).1 := by
  unfold sent
  split
  · simp
  · split
    · simp
    · by_cases hfile : t.callbackFile = [] <;> simp [hfile]

/-! ### All or nothing -/

theorem NothingFails.not_failed (hm : map.isMap = true) (h : NothingFails host map t) : ¬ Failed host map t := by
  obtain ⟨parent, hp, h⟩ := h
  by_cases hc : t.cmd = lit "Start"
  · rw [if_pos hc] at h
    rw [Failed, activate_start hm (by simp [hp]) hc]
    rintro (⟨e, he⟩ | ⟨file, parameters, hmem, hfail⟩)
    · cases he
    · dsimp only at hmem
      split at hmem
      · rename_i hfind
        rw [List.mem_singleton, Effect.shellExecute.injEq] at hmem
        rw [hmem.1, hmem.2, h hfind] at hfail
        cases hfail
      · cases hmem
  · rw [if_neg hc] at h
    rw [Failed, activate_other hp hc]
    rintro (⟨e, he⟩ | ⟨file, parameters, hmem, -⟩)
    · obtain ⟨hfound, hdata⟩ := sent_error_iff.1 ⟨e, he⟩
      exact copyData_read_eq_none.1 hdata (h hfound)
    · exact not_shellExecute_sent _ _ _ hmem

theorem NothingFails.allOrNothing (hm : map.isMap = true) (h : NothingFails host map t) :
    AllOrNothing host map t := by
  have hnot := h.not_failed hm
  obtain ⟨parent, hp, hcond⟩ := h
  constructor
  · cases hr : (activate host map t).2 with
    | ok u => rfl
    | error e => exact absurd (.inl ⟨e, hr⟩) hnot
  · intro id hnone hsome
    by_cases hc : t.cmd = lit "Start"
    · rw [if_pos hc] at hcond
      rw [activate_start hm (by simp [hp]) hc] at hsome ⊢
      dsimp only at hsome ⊢
      by_cases hfind : map.find t.windowId = none
      · rw [if_pos hfind] at hsome ⊢
        dsimp only at hsome ⊢
        rw [find_register] at hsome
        by_cases hid : id = t.windowId
        · exact ⟨hid, _, _, .head _, hcond hfind⟩
        · rw [if_neg hid] at hsome
          exact absurd hnone hsome
      · rw [if_neg hfind] at hsome
        exact absurd hnone hsome
    · rw [activate_other hp hc] at hsome
      dsimp only at hsome
      split at hsome
      · rw [find_unregister] at hsome
        split at hsome
        exacts [absurd rfl hsome, absurd hnone hsome]
      · exact absurd hnone hsome
  · intro hquit parent' hwnd hp' hfound _ _
    have hc : t.cmd ≠ lit "Start" := by
      rw [hquit]
      decide
    rw [hp, Option.some.injEq] at hp'
    subst hp'
    rw [if_neg hc] at hcond
    have hutf := hcond (by rw [hfound]; exact Option.some_ne_none _)
    obtain ⟨lpData, hdata⟩ := Option.ne_none_iff_exists'.1 (mt copyData_read_eq_none.1 (not_not_intro hutf))
    refine ⟨lpData, hdata, ?_⟩
    rw [activate_other hp hc]
    simp [sent, hfound, hdata]
  · intro hfailed
    exact absurd hfailed hnot

theorem AllOrNothing.nothingFails (hm : map.isMap = true) (h : AllOrNothing host map t) :
    NothingFails host map t := by
  have hok := h.noEscape
  cases hp : t.parent with
  | none =>
    rw [activate_no_parent hp] at hok
    cases hok
  | some parent =>
    refine ⟨parent, hp, ?_⟩
    split
    · rename_i hc
      intro hfind
      have hrun : activate host map t = _ := activate_start hm (by simp [hp]) hc
      rw [if_pos hfind] at hrun
      have hlaunch := h.launched t.windowId hfind (by rw [hrun, find_register, if_pos rfl]; exact Option.some_ne_none _)
      obtain ⟨-, file, parameters, hmem, hdone⟩ := hlaunch
      rw [hrun, List.mem_singleton, Effect.shellExecute.injEq] at hmem
      rwa [hmem.1, hmem.2] at hdone
    · rename_i hc
      intro hfound
      by_contra hutf
      obtain ⟨e, he⟩ := sent_error_iff.2 ⟨hfound, copyData_read_eq_none.2 hutf⟩
      rw [activate_other hp hc, he] at hok
      cases hok

/-- A call is all or nothing exactly when nothing fails in it. -/
theorem allOrNothing_iff (host : Host ω) (map : Json) (t : TabMsg) (hm : map.isMap = true) :
    AllOrNothing host map t ↔ NothingFails host map t :=
  ⟨fun h => h.nothingFails hm, fun h => h.allOrNothing hm⟩

end

/-- No window yet, and a process can be launched or cannot. -/
def emptyHost (launches : Bool) : Host Nat := ⟨fun _ => lit "0.0", fun _ _ => none, fun _ _ => launches⟩

theorem allOrNothing_start : AllOrNothing (emptyHost true) .null (Registry.message (lit "Start")) :=
  (allOrNothing_iff _ _ _ rfl).2 ⟨0, rfl, fun _ => rfl⟩

/-- The process cannot be launched, and its id is in the map. -/
theorem not_allOrNothing_launch :
    ¬ ∀ (host : Host Nat) (map : Json) (t : TabMsg), map.isMap = true → AllOrNothing host map t := by
  intro h
  obtain ⟨parent, -, hlaunch⟩ :=
    (h (emptyHost false) .null (Registry.message (lit "Start")) rfl).nothingFails rfl
  rw [if_pos (show (Registry.message (lit "Start")).cmd = lit "Start" from rfl)] at hlaunch
  exact absurd (hlaunch rfl) (by decide)

end NplBrowser
