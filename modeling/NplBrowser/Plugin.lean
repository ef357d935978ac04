import NplBrowser.Dump

/-!
# The plugin (`NplCefBrowserImporter.cpp`)

`LibActivate` turns the message table of a script into a JSON value (`Read`, `ToJson`) and acts on
it: Start launches a client process unless the id is in `global_wnd_map`, every other command is sent
to the window of that parent and class, and Quit takes the id out of the map first. What it does to
the outside is recorded as `Effect`s; `FindWindowEx` is a parameter.
-/

namespace NplBrowser

/-- A message table, its fields converted as `Read` has them converted. -/
structure TabMsg where
  cmd : Bytes
  callbackFile : Bytes
  cmdline : Bytes
  clientName : Bytes
  parentHandle : Bytes
  cefclientConfigFilename : Bytes
  pid : Bytes
  id : Bytes
  url : Bytes
  resize : Bool
  visible : Bool
  enabled : Bool
  x : Double
  y : Double
  width : Double
  height : Double
  zoom : Double

structure BrowserParams where
  cmd : Bytes := []
  callbackFile : Bytes := []
  cmdline : Bytes := []
  clientName : Bytes := []
  parentHandle : Bytes := []
  cefclientConfigFilename : Bytes := []
  pid : Bytes := []
  id : Bytes := []
  url : Bytes := []
  x : Int32 := 0
  y : Int32 := 0
  width : Int32 := 800
  height : Int32 := 600
  visible : Bool := true
  resize : Bool := true
  enabled : Bool := true
  zoom : Double := .zero

namespace BrowserParams

/-- The assignments of `ToJson`. -/
def members (p : BrowserParams) : List (Bytes × Json) :=
  [(lit "cmd", .string p.cmd),
   (lit "callback_file", .string p.callbackFile),
   (lit "cmdline", .string p.cmdline),
   (lit "client_name", .string p.clientName),
   (lit "parent_handle", .string p.parentHandle),
   (lit "cefclient_config_filename", .string p.cefclientConfigFilename),
   (lit "pid", .string p.pid),
   (lit "id", .string p.id),
   (lit "url", .string p.url),
   (lit "x", .integer p.x.toInt64),
   (lit "y", .integer p.y.toInt64),
   (lit "width", .integer p.width.toInt64),
   (lit "height", .integer p.height.toInt64),
   (lit "visible", .boolean p.visible),
   (lit "resize", .boolean p.resize),
   (lit "enabled", .boolean p.enabled),
   (lit "zoom", .float p.zoom)]

def toJson (p : BrowserParams) : Json := .object (Assoc.insertAll p.members [])

def names : List Bytes :=
  [lit "cmd", lit "callback_file", lit "cmdline", lit "client_name", lit "parent_handle",
   lit "cefclient_config_filename", lit "pid", lit "id", lit "url", lit "x", lit "y", lit "width",
   lit "height", lit "visible", lit "resize", lit "enabled", lit "zoom"]

theorem map_fst_members (p : BrowserParams) : p.members.map Prod.fst = names := rfl

theorem nodup_members (p : BrowserParams) : (p.members.map Prod.fst).Nodup := by
  rw [map_fst_members]
  decide

theorem find_toJson {p : BrowserParams} {k : Bytes} {v : Json} (h : (k, v) ∈ p.members) :
    p.toJson.find k = some v :=
  Assoc.find?_insertAll p.nodup_members h []

theorem at_toJson {p : BrowserParams} {k : Bytes} {v : Json} (h : (k, v) ∈ p.members) :
    p.toJson.at' k = .ok v := by
  have hf := find_toJson h
  rw [Json.find_eq] at hf
  rw [Json.at', Json.index_eq hf]
  rfl

end BrowserParams

/-- `Read`, up to `ToJson`. -/
def TabMsg.params (t : TabMsg) : BrowserParams where
  cmd := t.cmd
  callbackFile := t.callbackFile
  cmdline := t.cmdline
  clientName := t.clientName
  parentHandle := t.parentHandle
  cefclientConfigFilename := t.cefclientConfigFilename
  pid := t.pid
  id := t.id
  url := t.url
  resize := t.resize
  visible := t.visible
  enabled := t.enabled
  x := t.x.toInt32
  y := t.y.toInt32
  width := t.width.toInt32
  height := t.height.toInt32
  zoom := t.zoom

def read (tabMsg : TabMsg) : Json := tabMsg.params.toJson

/-! ### The message -/

section
variable (dumpFloat : Double → Bytes)

/-- What `WM_COPYDATA` carries: `cbData` bytes from the start of the dump and its NUL. -/
def copyData (input : Json) : Option Bytes :=
  (input.dump dumpFloat).map fun s =>
    let m := s ++ [0]
    let cbData := strnlen m 4096 + 1
    m.take cbData

end

/-! ### `LibActivate` -/

/-- `ω` is what `FindWindowEx` finds. -/
inductive Effect (ω : Type)
  | shellExecute (file parameters : Bytes)
  | sendMessage (hwnd : ω) (lpData : Bytes)
  | activate (file cmd id parentHandle : Bytes)

inductive PluginError
  | json (e : JsonError)
  | stoull

structure Plugin (ω : Type) where
  globalWndMap : Json := .null
  effects : List (Effect ω) := []

/-- Code of the plugin; what it has done stays done when it throws. -/
def PluginM (ω α : Type) := Plugin ω → Plugin ω × Except PluginError α

namespace PluginM

variable {ω α β : Type}

instance : Monad (PluginM ω) where
  pure a s := (s, .ok a)
  bind m f s :=
    match m s with
    | (s, .ok a) => f a s
    | (s, .error e) => (s, .error e)

def run (m : PluginM ω α) (s : Plugin ω) : Plugin ω × Except PluginError α := m s

def get : PluginM ω (Plugin ω) := fun s => (s, .ok s)
def throws (e : PluginError) : PluginM ω α := fun s => (s, .error e)
def json (r : Except JsonError α) : PluginM ω α := fun s => (s, r.mapError .json)
def setMap (j : Json) : PluginM ω Unit := fun s => ({ s with globalWndMap := j }, .ok ())
def emit (e : Effect ω) : PluginM ω Unit := fun s => ({ s with effects := s.effects ++ [e] }, .ok ())

def string (input : Json) (key : Bytes) : PluginM ω Bytes :=
  json do (← input.at' key).getString

variable {s s' : Plugin ω}

@[simp] theorem run_pure (a : α) : (pure a : PluginM ω α).run s = (s, .ok a) := rfl
@[simp] theorem run_throws (e : PluginError) : (throws e : PluginM ω α).run s = (s, .error e) := rfl
@[simp] theorem run_get : (get : PluginM ω _).run s = (s, .ok s) := rfl
@[simp] theorem run_json (r : Except JsonError α) :
    (json r : PluginM ω α).run s = (s, r.mapError .json) := rfl
@[simp] theorem run_setMap (j : Json) :
    (setMap j : PluginM ω Unit).run s = ({ s with globalWndMap := j }, .ok ()) := rfl
@[simp] theorem run_emit (e : Effect ω) :
    (emit e).run s = ({ s with effects := s.effects ++ [e] }, .ok ()) := rfl
@[simp] theorem run_ite (c : Prop) [Decidable c] (m n : PluginM ω α) :
    (if c then m else n).run s = if c then m.run s else n.run s := by
  split <;> rfl

theorem run_bind_ok {m : PluginM ω α} {f : α → PluginM ω β} {a : α} (h : m.run s = (s', .ok a)) :
    (m >>= f).run s = (f a).run s' := by
  show (match m.run s with
    | (s, .ok a) => f a s
    | (s, .error e) => (s, .error e)) = _
  rw [h]
  rfl

theorem run_bind_error {m : PluginM ω α} {f : α → PluginM ω β} {e : PluginError}
    (h : m.run s = (s', .error e)) : (m >>= f).run s = (s', .error e) := by
  show (match m.run s with
    | (s, .ok a) => f a s
    | (s, .error e) => (s, .error e)) = _
  rw [h]

end PluginM

open PluginM

section
variable {ω : Type} (dumpFloat : Double → Bytes) (findWindowEx : UInt64 → Bytes → Option ω)

/-- The `HWND` in a text; an empty one is NULL. -/
def handle (s : Bytes) : PluginM ω UInt64 :=
  if s = [] then pure 0
  else match stoull s with
    | some n => pure n
    | none => throws .stoull

/-- `NPL_Activate`. -/
def nplActivate (file cmd id parentHandle : Bytes) : PluginM ω Unit :=
  if file = [] then pure () else emit (.activate file cmd id parentHandle)

/-- The branch of Start. -/
def startWindow (input : Json) (id clientName : Bytes) : PluginM ω Unit := do
  let cmdline ← string input (lit "cmdline")
  if (← get).globalWndMap.find id = none then
    setMap (← json ((← get).globalWndMap.set id (.boolean true)))
    emit (.shellExecute (cString clientName) (cString cmdline))

def sendMessage (input : Json) (id cmd callbackFile parentHandleS : Bytes) (parentHandle : UInt64) :
    PluginM ω Unit :=
  match findWindowEx parentHandle (cString id) with
  | some hwnd =>
    match copyData dumpFloat input with
    | none => throws (.json (.typeError 316))
    | some lpData => do
      emit (.sendMessage hwnd lpData)
      nplActivate callbackFile cmd id parentHandleS
  | none => pure ()

/-- The branch of every other command. -/
def sendCommand (input : Json) (id cmd callbackFile parentHandleS : Bytes) (parentHandle : UInt64) :
    PluginM ω Unit := do
  if cmd = lit "Quit" then
    if (← get).globalWndMap.find id ≠ none then
      setMap (← json ((← get).globalWndMap.erase id))
  sendMessage dumpFloat findWindowEx input id cmd callbackFile parentHandleS parentHandle

def libActivate (tabMsg : TabMsg) : PluginM ω Unit := do
  let input := read tabMsg
  let id ← string input (lit "id")
  let cmd ← string input (lit "cmd")
  let callbackFile ← string input (lit "callback_file")
  let parentHandleS ← string input (lit "parent_handle")
  let parentHandle ← handle parentHandleS
  let clientName ← string input (lit "client_name")
  let clientName := if clientName = [] then lit "cefcleint.exe" else clientName
  let id := if id = [] then lit "CEFCLIENT" else id
  if cmd = lit "Start" then
    startWindow input id clientName
  else
    sendCommand dumpFloat findWindowEx input id cmd callbackFile parentHandleS parentHandle

/-! #### By the kind of message -/

/-- What `sendMessage` adds to the effects. -/
def sent (input : Json) (id cmd callbackFile parentHandleS : Bytes) (parent : UInt64) :
    List (Effect ω) × Except PluginError Unit :=
  match findWindowEx parent (cString id) with
  | none => ([], .ok ())
  | some hwnd =>
    match copyData dumpFloat input with
    | none => ([], .error (.json (.typeError 316)))
    | some lpData =>
      (.sendMessage hwnd lpData ::
        if callbackFile = [] then [] else [.activate callbackFile cmd id parentHandleS], .ok ())

variable {dumpFloat findWindowEx} {t : TabMsg} {s : Plugin ω}

/-- The id the map goes by. -/
def TabMsg.windowId (t : TabMsg) : Bytes := if t.id = [] then lit "CEFCLIENT" else t.id

def TabMsg.parent (t : TabMsg) : Option UInt64 :=
  if t.parentHandle = [] then some 0 else stoull t.parentHandle

def TabMsg.clientFile (t : TabMsg) : Bytes :=
  if t.clientName = [] then lit "cefcleint.exe" else t.clientName

theorem run_string_read {k : Bytes} (v : Bytes) (h : (k, .string v) ∈ t.params.members) :
    (string (read t) k : PluginM ω Bytes).run s = (s, .ok v) := by
  rw [read, string, run_json, BrowserParams.at_toJson h]
  rfl

theorem handle_run (t : TabMsg) (s : Plugin ω) : (handle t.parentHandle).run s =
    match t.parent with
    | some n => (s, .ok n)
    | none => (s, .error .stoull) := by
  unfold handle TabMsg.parent
  split
  · rfl
  · cases stoull t.parentHandle <;> rfl

theorem libActivate_run : (libActivate dumpFloat findWindowEx t).run s =
    match t.parent with
    | none => (s, .error .stoull)
    | some parent =>
      if t.cmd = lit "Start" then (startWindow (read t) t.windowId t.clientFile).run s
      else (sendCommand dumpFloat findWindowEx (read t) t.windowId t.cmd t.callbackFile t.parentHandle
        parent).run s := by
  have hh := handle_run t s
  unfold libActivate
  rw [run_bind_ok (run_string_read t.id (by simp [BrowserParams.members, TabMsg.params])),
    run_bind_ok (run_string_read t.cmd (by simp [BrowserParams.members, TabMsg.params])),
    run_bind_ok (run_string_read t.callbackFile (by simp [BrowserParams.members, TabMsg.params])),
    run_bind_ok (run_string_read t.parentHandle (by simp [BrowserParams.members, TabMsg.params]))]
  cases h : t.parent with
  | none =>
    rw [h] at hh
    rw [run_bind_error hh]
  | some parent =>
    rw [h] at hh
    rw [run_bind_ok hh,
      run_bind_ok (run_string_read t.clientName (by simp [BrowserParams.members, TabMsg.params])),
      run_ite]
    rfl

/-- The map with an id in it, and without. -/
def register (j : Json) (id : Bytes) : Json := .object (Assoc.insert id (.boolean true) j.fields)

def unregister (j : Json) (id : Bytes) : Json :=
  if j.find id = none then j else .object (Assoc.erase id j.fields)

theorem isMap_unregister {j : Json} (h : j.isMap = true) (id : Bytes) :
    (unregister j id).isMap = true := by
  unfold unregister
  split
  exacts [h, rfl]

theorem find_register (j : Json) (id k : Bytes) :
    (register j id).find k = if k = id then some (.boolean true) else j.find k := by
  rw [Json.find_eq j]
  show Assoc.find? k (Assoc.insert id _ j.fields) = _
  split
  · subst_vars; rw [Assoc.find?_insert_self]
  · rw [Assoc.find?_insert_ne ‹_›]

theorem find_unregister (j : Json) (id k : Bytes) :
    (unregister j id).find k = if k = id then none else j.find k := by
  unfold unregister
  by_cases hk : k = id
  · subst hk
    rw [if_pos rfl]
    split
    · assumption
    · exact Assoc.find?_erase_self _ _
  · rw [if_neg hk]
    split
    · rfl
    · rw [Json.find_eq j]
      exact Assoc.find?_erase_ne hk _

theorem startWindow_run (hm : s.globalWndMap.isMap = true) (id file : Bytes) :
    (startWindow (read t) id file).run s =
      (if s.globalWndMap.find id = none then
        { globalWndMap := register s.globalWndMap id,
          effects := s.effects ++ [.shellExecute (cString file) (cString t.cmdline)] }
      else s, .ok ()) := by
  unfold startWindow
  rw [run_bind_ok (run_string_read t.cmdline (by simp [BrowserParams.members, TabMsg.params])),
    run_bind_ok run_get, run_ite]
  split
  · rw [run_bind_ok run_get, run_bind_ok (a := register s.globalWndMap id) ?_, run_bind_ok (run_setMap _)]
    · rfl
    · rw [run_json, Json.set_eq hm]
      rfl
  · rfl

theorem sendCommand_run (id cmd callbackFile parentHandleS : Bytes) (parent : UInt64) (input : Json) :
    (sendCommand dumpFloat findWindowEx input id cmd callbackFile parentHandleS parent).run s =
      let e := sent dumpFloat findWindowEx input id cmd callbackFile parentHandleS parent
      ({ globalWndMap := if cmd = lit "Quit" then unregister s.globalWndMap id else s.globalWndMap,
         effects := s.effects ++ e.1 }, e.2) := by
  have hsend : ∀ s : Plugin ω,
      (sendMessage dumpFloat findWindowEx input id cmd callbackFile parentHandleS parent).run s =
        let e := sent dumpFloat findWindowEx input id cmd callbackFile parentHandleS parent
        ({ s with effects := s.effects ++ e.1 }, e.2) := by
    intro s
    unfold sendMessage sent
    cases findWindowEx parent (cString id) with
    | none => simp
    | some hwnd =>
      cases copyData dumpFloat input with
      | none => simp
      | some lpData =>
        show (emit (.sendMessage hwnd lpData) >>= fun _ => nplActivate callbackFile cmd id
          parentHandleS).run s = _
        rw [run_bind_ok (run_emit _)]
        unfold nplActivate
        split <;> simp
  unfold sendCommand
  rw [run_ite]
  split
  · rw [run_bind_ok run_get, run_ite]
    unfold unregister
    by_cases hf : s.globalWndMap.find id = none
    · rw [if_neg (not_not_intro hf), if_pos hf, hsend]
    · have herase : s.globalWndMap.erase id = .ok (.object (Assoc.erase id s.globalWndMap.fields)) := by
        cases hm : s.globalWndMap with
        | object fs => rfl
        | _ => rw [hm] at hf; exact absurd rfl hf
      rw [if_pos hf, if_neg hf, run_bind_ok run_get, run_bind_ok (a := .object _) ?_,
        run_bind_ok (run_setMap _), hsend]
      rw [run_json, herase]
      rfl
  · rw [hsend]

end

end NplBrowser
