import NplBrowser.ConfigUse
import NplBrowser.JsonParser
import NplBrowser.RootWindowWin
import NplBrowser.StdString

/-!
# Commands (`HandleCustomMsg` and `HandleCustomTask`)

A `WM_COPYDATA` message is handled in two halves. `handleCustomMsg` makes a string of the memory it
was given a pointer to, parses it and looks for `cmd`; whatever is thrown there is caught, and only
then is a task posted. `handleCustomTask`, run by the message loop with the parsed value, converts
the other fields and carries the command out, with no `try` around it.

The parser is a parameter: it takes the text to a value, or throws (`none`). The program's is
`parseText`. Every string in a parsed value is valid UTF-8, so that the log line that dumps the value
does not throw; the `DCHECK` of `HandleCustomMsg`, which compares the window with the find dialog, is
not compiled into a release.
-/

namespace NplBrowser

/-- The fields `HandleCustomTask` reads. -/
structure Command where
  cmd : Bytes
  id : Bytes
  url : Bytes
  resize : Bool
  visible : Bool
  enabled : Bool
  x : Int32
  y : Int32
  width : Int32
  height : Int32
  zoom : Double
  parentHandle : Bytes
  cefclientConfigFilename : Bytes
  pid : Bytes

namespace Command

def key (c : Command) : Bytes := c.id ++ lit "_" ++ c.parentHandle

end Command

/-- The conversions, in the order of the source. -/
def readCommand (input : Json) : Except JsonError Command := do
  let cmd ← (← input.at' (lit "cmd")).getString
  let id ← (← input.at' (lit "id")).getString
  let url ← (← input.at' (lit "url")).getString
  let resize ← (← input.at' (lit "resize")).getBool
  let visible ← (← input.at' (lit "visible")).getBool
  let enabled ← (← input.at' (lit "enabled")).getBool
  let x ← (← input.at' (lit "x")).getInt
  let y ← (← input.at' (lit "y")).getInt
  let width ← (← input.at' (lit "width")).getInt
  let height ← (← input.at' (lit "height")).getInt
  let zoom ← (← input.at' (lit "zoom")).getDouble
  let parentHandle ← (← input.at' (lit "parent_handle")).getString
  let cefclientConfigFilename ← (← input.at' (lit "cefclient_config_filename")).getString
  let pid ← (← input.at' (lit "pid")).getString
  return { cmd, id, url, resize, visible, enabled, x, y, width, height, zoom, parentHandle,
           cefclientConfigFilename, pid }

/-- `json::parse`, its exceptions caught. -/
def parseText (text : Bytes) : Option Json := (Json.parse atof text).toOption

/-- The input to post a task with, if nothing was thrown. -/
def handleCustomMsg (parse : Bytes → Option Json) (lpData : Bytes) : Option Json := do
  let input ← parse (cString lpData)
  match input.at' (lit "cmd") with
  | .ok (.string _) => return input
  | _ => none

/-- What a task can see and change: the window, the config files with the instance of this process,
and the `ModifyZoom` tasks posted to the UI thread. -/
structure Client where
  window : RootWindowWin
  files : Bytes → File
  inst : Option CefClientConfig := none
  zooms : List Double := []

namespace Client

/-- `CefClientConfig::GetInstance(filename, pid)->m`. -/
def withInstance {α : Type} (s : Client) (filename pid : Bytes) (m : ConfigM α) :
    Client × Except JsonError α :=
  let c := getInstance s.inst filename pid
  let (file, c', r) := (m c).exec (s.files c.mFileName)
  ({ s with files := Function.update s.files c.mFileName file, inst := some c' }, r)

end Client

def checkCefWindow (c : Command) (s : Client) : Client × Except JsonError Unit :=
  match s.withInstance c.cefclientConfigFilename c.pid (readJsonValue c.key false) with
  | (s, .error e) => (s, .error e)
  | (s, .ok hasBrowser) =>
    if !hasBrowser then s.withInstance c.cefclientConfigFilename c.pid (writeJsonValue c.key true)
    else (s, .ok ())

open RootWindowWin in
/-- The command on a window with a browser; the result is the zoom level for `ModifyZoom`, which
posts itself to the UI thread. -/
def carryOut (c : Command) : M (Option Double) := do
  if c.cmd = lit "Start" then
    return none
  else if c.cmd = lit "Open" then
    if c.url ≠ [] then
      M.modify fun w => { w with look := { w.look with url := c.url } }
    if c.resize then
      setBounds c.x c.y c.width c.height
    if c.visible then
      showNormal
      return some c.zoom
    return none
  else if c.cmd = lit "ChangePosSize" then
    setBounds c.x c.y c.width c.height
    return none
  else if c.cmd = lit "Show" then
    if c.visible then
      showNormal
      return some c.zoom
    else
      hide
      return none
  else if c.cmd = lit "Zoom" then
    return some c.zoom
  else if c.cmd = lit "EnableWindow" then
    enableWindow c.enabled
    return none
  else if c.cmd = lit "Quit" then
    close true
    return none
  else
    return none

def handleCustomTask (input : Json) (s : Client) : Client × Except JsonError Unit :=
  match readCommand input with
  | .error e => (s, .error e)
  | .ok c =>
    let (b, w) := RootWindowWin.getBrowser.run s.window
    let s := { s with window := w }
    if c.cmd = lit "CheckCefWindow" then
      if b then checkCefWindow c s else (s, .ok ())
    else if !b then (s, .ok ())
    else
      let (zoom, w) := (carryOut c).run s.window
      ({ s with window := w, zooms := s.zooms ++ zoom.toList }, .ok ())

/-! ### What a well-formed command is -/

/-- Every field is there, with a value of which the library makes one of the field's type. -/
structure Decodes (input : Json) (c : Command) : Prop where
  cmd : input.find (lit "cmd") = some (.string c.cmd)
  id : input.find (lit "id") = some (.string c.id)
  url : input.find (lit "url") = some (.string c.url)
  resize : input.find (lit "resize") = some (.boolean c.resize)
  visible : input.find (lit "visible") = some (.boolean c.visible)
  enabled : input.find (lit "enabled") = some (.boolean c.enabled)
  x : ∃ v, input.find (lit "x") = some v ∧ v.getInt = .ok c.x
  y : ∃ v, input.find (lit "y") = some v ∧ v.getInt = .ok c.y
  width : ∃ v, input.find (lit "width") = some v ∧ v.getInt = .ok c.width
  height : ∃ v, input.find (lit "height") = some v ∧ v.getInt = .ok c.height
  zoom : ∃ v, input.find (lit "zoom") = some v ∧ v.getDouble = .ok c.zoom
  parentHandle : input.find (lit "parent_handle") = some (.string c.parentHandle)
  cefclientConfigFilename :
    input.find (lit "cefclient_config_filename") = some (.string c.cefclientConfigFilename)
  pid : input.find (lit "pid") = some (.string c.pid)

namespace Json

/-- A field is read when it is there; in its absence it is null, from which nothing converts. -/
theorem at_bind_eq_ok_iff {α β : Type} {j : Json} {k : Bytes} {conv : Json → Except JsonError α}
    (hnull : ∀ a, conv null ≠ .ok a) {f : α → Except JsonError β} {b : β} :
    (do let v ← j.at' k; let a ← conv v; f a) = .ok b ↔
      ∃ a, (∃ v, j.find k = some v ∧ conv v = .ok a) ∧ f a = .ok b := by
  have hbind : ∀ v, (do let a ← conv v; f a) = .ok b ↔ ∃ a, conv v = .ok a ∧ f a = .ok b := by
    intro v
    cases conv v <;> simp [bind, Except.bind]
  have habsent : ¬ (do let a ← conv null; f a) = .ok b := by
    rw [hbind]
    rintro ⟨a, ha, -⟩
    exact hnull a ha
  cases j with
  | object fs =>
    cases hf : Assoc.find? k fs with
    | none =>
      have hat : (object fs).at' k = .ok null := by simp [at', index, hf, Functor.map, Except.map]
      simpa [hat, find, hf, bind, Except.bind] using habsent
    | some v =>
      have hat : (object fs).at' k = .ok v := by simp [at', index, hf, Functor.map, Except.map]
      rw [hat]
      show (do let a ← conv v; f a) = .ok b ↔ _
      simpa [find, hf] using hbind v
  | null =>
    have hat : null.at' k = .ok null := rfl
    simpa [hat, find, bind, Except.bind] using habsent
  | _ => simp [at', index, find, Functor.map, Except.map, bind, Except.bind]

variable {β : Type} {j : Json} {k : Bytes} {b : β}

theorem at_string_iff {f : Bytes → Except JsonError β} :
    (do let v ← j.at' k; let a ← v.getString; f a) = .ok b ↔
      ∃ a, j.find k = some (string a) ∧ f a = .ok b := by
  rw [at_bind_eq_ok_iff (by rintro a ⟨⟩)]
  refine exists_congr fun a => and_congr_left fun _ => ⟨?_, fun h => ⟨_, h, rfl⟩⟩
  rintro ⟨v, hv, ha⟩
  cases v <;> cases ha
  exact hv

theorem at_bool_iff {f : Bool → Except JsonError β} :
    (do let v ← j.at' k; let a ← v.getBool; f a) = .ok b ↔
      ∃ a, j.find k = some (boolean a) ∧ f a = .ok b := by
  rw [at_bind_eq_ok_iff (by rintro a ⟨⟩)]
  refine exists_congr fun a => and_congr_left fun _ => ⟨?_, fun h => ⟨_, h, rfl⟩⟩
  rintro ⟨v, hv, ha⟩
  cases v <;> cases ha
  exact hv

theorem at_int_iff {f : Int32 → Except JsonError β} :
    (do let v ← j.at' k; let a ← v.getInt; f a) = .ok b ↔
      ∃ a, (∃ v, j.find k = some v ∧ v.getInt = .ok a) ∧ f a = .ok b :=
  at_bind_eq_ok_iff (by rintro a ⟨⟩)

theorem at_double_iff {f : Double → Except JsonError β} :
    (do let v ← j.at' k; let a ← v.getDouble; f a) = .ok b ↔
      ∃ a, (∃ v, j.find k = some v ∧ v.getDouble = .ok a) ∧ f a = .ok b :=
  at_bind_eq_ok_iff (by rintro a ⟨⟩)

end Json

theorem readCommand_eq_ok_iff {input : Json} {c : Command} :
    readCommand input = .ok c ↔ Decodes input c := by
  simp only [readCommand, Json.at_string_iff, Json.at_bool_iff, Json.at_int_iff, Json.at_double_iff]
  constructor
  · rintro ⟨_, h₁, _, h₂, _, h₃, _, h₄, _, h₅, _, h₆, _, h₇, _, h₈, _, h₉, _, h₁₀, _, h₁₁, _, h₁₂, _,
      h₁₃, _, h₁₄, h⟩
    cases h
    exact ⟨h₁, h₂, h₃, h₄, h₅, h₆, h₇, h₈, h₉, h₁₀, h₁₁, h₁₂, h₁₃, h₁₄⟩
  · rintro ⟨h₁, h₂, h₃, h₄, h₅, h₆, h₇, h₈, h₉, h₁₀, h₁₁, h₁₂, h₁₃, h₁₄⟩
    exact ⟨_, h₁, _, h₂, _, h₃, _, h₄, _, h₅, _, h₆, _, h₇, _, h₈, _, h₉, _, h₁₀, _, h₁₁, _, h₁₂, _,
      h₁₃, _, h₁₄, rfl⟩

theorem Decodes.toOption {input : Json} {c : Command} (h : Decodes input c) :
    (readCommand input).toOption = some c := by
  rw [readCommand_eq_ok_iff.2 h]
  rfl

theorem Decodes.unique {input : Json} {c c' : Command} (h : Decodes input c) (h' : Decodes input c') :
    c = c' := by
  rw [← readCommand_eq_ok_iff] at h h'
  rw [h] at h'
  exact Except.ok.inj h'

theorem Json.at_eq_string_iff {j : Json} {k a : Bytes} :
    j.at' k = .ok (.string a) ↔ j.find k = some (.string a) := by
  have h := Json.at_string_iff (j := j) (k := k) (f := fun a => .ok a) (b := a)
  constructor
  · intro hat
    obtain ⟨a', hf, hb⟩ := h.1 (by rw [hat]; rfl)
    cases hb
    exact hf
  · intro hf
    cases j with
    | object fs =>
      simp only [Json.find] at hf
      simp [Json.at', Json.index, hf, Functor.map, Except.map]
    | _ => cases hf

/-- The first half accepts every object whose `cmd` is a string. -/
theorem handleCustomMsg_eq_some_iff {parse : Bytes → Option Json} {lpData : Bytes} {input : Json} :
    handleCustomMsg parse lpData = some input ↔
      parse (cString lpData) = some input ∧ ∃ cmd, input.find (lit "cmd") = some (.string cmd) := by
  unfold handleCustomMsg
  cases hp : parse (cString lpData) with
  | none => simp
  | some j =>
    simp only [Option.bind_eq_bind, Option.bind_some, Option.some.injEq]
    constructor
    · intro h
      split at h
      · rename_i cmd hat
        cases h
        exact ⟨rfl, cmd, Json.at_eq_string_iff.1 hat⟩
      · cases h
    · rintro ⟨rfl, cmd, hf⟩
      rw [Json.at_eq_string_iff.2 hf]
      rfl

/-! ### The config store under a command -/

/-- `mRoot` after the file has been read. -/
def loaded (file : File) (c : CefClientConfig) : Json :=
  match file with
  | some t => t.parseInto c.mRoot.clear
  | none => c.mRoot.clear

/-- `ReadRoot` leaves a file behind. -/
def created (file : File) (c : CefClientConfig) : Text := file.getD (.ofDump c.mRoot.clear)

theorem exec_readRoot {α : Type} (m : ConfigM α) (c : CefClientConfig) (file : File) :
    ((readRoot >>= fun _ => m) c).exec file =
      (m { c with mRoot := loaded file c }).exec (some (created file c)) := by
  cases file <;> rfl

/-- The root, and the entry of the pid in it, can be indexed by a key. -/
def Usable (root : Json) (pid : Bytes) : Prop :=
  root.isMap = true ∧ ∀ config, root.find pid = some config → config.isMap = true

open ConfigM Cell.Prog

theorem createOrGetConfig_throws {c : CefClientConfig} (hc : c.mRoot.isMap = false) (pid : Bytes) :
    createOrGetConfig pid c = .ret (c, .error (.typeError 305)) := by
  obtain ⟨f, p, root⟩ := c
  cases root <;> first | rfl | cases hc

/-- The flag that `ReadJsonValue` finds. -/
def found (root : Json) (pid key : Bytes) : Option Bool :=
  (root.find pid).bind fun config => (config.find key).bind Json.flag

theorem readJsonValue_exec {c : CefClientConfig} {file : File} (h : (loaded file c).isMap = true)
    (key : Bytes) (v : Bool) :
    ∃ root, root.isMap = true ∧ (readJsonValue key v c).exec file =
      (some (created file c), { c with mRoot := root },
        .ok ((found (loaded file c) c.mPid key).getD v)) := by
  rw [readJsonValue, exec_readRoot]
  generalize loaded file c = root at h ⊢
  cases hf : Assoc.find? c.mPid root.fields with
  | none =>
    have hget := createOrGetConfig_none (c := { c with mRoot := root }) h hf
    refine ⟨.object (Assoc.insert c.mPid .null root.fields), rfl, ?_⟩
    simp only [bind_apply, mPid_apply, bind_ret, hget, found, Json.find_eq, hf]
    rfl
  | some config =>
    have hget := createOrGetConfig_some (c := { c with mRoot := root }) hf
    refine ⟨root, h, ?_⟩
    simp only [bind_apply, mPid_apply, bind_ret, hget, found, Json.find_eq, hf, Option.bind_some]
    cases hk : Assoc.find? key config.fields with
    | none => rfl
    | some j => cases j <;> rfl

theorem readJsonValue_throws {c : CefClientConfig} {file : File} (h : (loaded file c).isMap = false)
    (key : Bytes) (v : Bool) :
    ((readJsonValue key v c).exec file).2.2 = .error (.typeError 305) := by
  rw [readJsonValue, exec_readRoot]
  simp only [bind_apply, mPid_apply, bind_ret,
    createOrGetConfig_throws (c := { c with mRoot := loaded file c }) h]
  rfl

/-- Writing throws exactly on a root or an entry that cannot be indexed. -/
theorem writeJsonValue_ok_iff (c : CefClientConfig) (file : File) (key : Bytes) (v : Bool) :
    ((writeJsonValue key v c).exec file).2.2 = .ok () ↔ Usable (loaded file c) c.mPid := by
  rw [writeJsonValue, exec_readRoot]
  generalize loaded file c = root
  cases h : root.isMap with
  | false =>
    have hget := createOrGetConfig_throws (c := { c with mRoot := root }) h c.mPid
    simp [setConfigValue, hget, Usable, h]
  | true =>
    cases hf : Assoc.find? c.mPid root.fields with
    | none =>
      have hget := createOrGetConfig_none (c := { c with mRoot := root }) h hf
      simp [setConfigValue, hget, Usable, h, Json.find_eq, hf, Json.set, writeRoot]
    | some config =>
      have hget := createOrGetConfig_some (c := { c with mRoot := root }) hf
      have husable : Usable root c.mPid ↔ config.isMap = true := by
        simp [Usable, h, Json.find_eq, hf]
      rw [husable]
      cases hc : config.isMap with
      | false =>
        have hset : config.set key (.boolean v) = .error (.typeError 305) := by
          cases config <;> first | rfl | cases hc
        simp [setConfigValue, hget, hset]
      | true => simp [setConfigValue, hget, Json.set_eq hc, Json.set_eq h, writeRoot]

theorem usable_clear {j : Json} (h : j.isMap = true) (pid : Bytes) : Usable j.clear pid := by
  rcases Json.eq_of_isMap h with ⟨rfl, -⟩ | h
  · exact ⟨rfl, nofun⟩
  · rw [h]; exact ⟨rfl, nofun⟩

theorem Json.isMap_of_clear {j : Json} (h : j.clear.isMap = true) : j.isMap = true := by
  cases j <;> first | rfl | cases h

/-- A second read finds the entries the first one did. -/
theorem usable_loaded_again {c : CefClientConfig} {file : File} {root : Json} (hroot : root.isMap = true)
    (h : (loaded file c).isMap = true) (pid : Bytes) :
    Usable (loaded (some (created file c)) { c with mRoot := root }) pid ↔
      Usable (loaded file c) pid := by
  match file, h with
  | none, h =>
    have hdump : Text.ofDump c.mRoot.clear = .json c.mRoot.clear (Json.dumps_clear _) := by
      rw [Text.ofDump, dif_pos (Json.dumps_clear _)]
    simp only [created, Option.getD_none, hdump]
    exact Iff.rfl
  | some (.json j _), _ => exact Iff.rfl
  | some (.broken (some p) _), _ => exact Iff.rfl
  | some (.broken none _), h =>
    exact iff_of_true (usable_clear hroot pid) (usable_clear (Json.isMap_of_clear h) pid)

namespace Client

/-- What `GetInstance` gives finds a root, and an entry of its pid, if there is one, that can be
indexed by a key. -/
def StoreUsable (s : Client) (filename pid : Bytes) : Prop :=
  let i := getInstance s.inst filename pid
  Usable (loaded (s.files i.mFileName) i) i.mPid

end Client

theorem usable_of_found {root : Json} {pid key : Bytes} {b : Bool} (hroot : root.isMap = true)
    (h : found root pid key = some b) : Usable root pid := by
  obtain ⟨config, hc, hb⟩ := Option.bind_eq_some_iff.1 h
  obtain ⟨v, hv, -⟩ := Option.bind_eq_some_iff.1 hb
  refine ⟨hroot, fun config' hc' => ?_⟩
  rw [hc] at hc'
  cases hc'
  cases config with
  | object fs => rfl
  | _ => cases hv

theorem checkCefWindow_ok_iff {c : Command} {s : Client} :
    (checkCefWindow c s).2 = .ok () ↔ s.StoreUsable c.cefclientConfigFilename c.pid := by
  unfold checkCefWindow Client.StoreUsable
  generalize hi : getInstance s.inst c.cefclientConfigFilename c.pid = i
  cases h : (loaded (s.files i.mFileName) i).isMap with
  | false =>
    have hread : (s.withInstance c.cefclientConfigFilename c.pid (readJsonValue c.key false)).2 =
        .error (.typeError 305) := by
      simp only [Client.withInstance, hi]
      exact readJsonValue_throws h c.key false
    split
    · rename_i heq
      simp [Usable, h]
    · rename_i heq
      rw [heq] at hread
      cases hread
  | true =>
    obtain ⟨root, hroot, hexec⟩ := readJsonValue_exec h c.key false
    simp only [Client.withInstance, hi, hexec]
    cases hf : found (loaded (s.files i.mFileName) i) i.mPid c.key with
    | some b =>
      have husable := usable_of_found h hf
      cases b with
      | true => simp [husable]
      | false =>
        have hw := writeJsonValue_ok_iff { i with mRoot := root }
          (some (created (s.files i.mFileName) i)) c.key true
        rw [usable_loaded_again hroot h] at hw
        simpa [getInstance] using hw
    | none =>
      have hw := writeJsonValue_ok_iff { i with mRoot := root }
        (some (created (s.files i.mFileName) i)) c.key true
      rw [usable_loaded_again hroot h] at hw
      simpa [getInstance] using hw

end NplBrowser
