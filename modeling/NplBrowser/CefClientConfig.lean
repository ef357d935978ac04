import NplBrowser.Lib.Section
import NplBrowser.Json

/-!
# The config file (`CefClientConfig.cpp`)

The code of the class is a program over the one file it names: `readRoot` reads the whole file, or
writes it when it is absent, `writeRoot` truncates it and writes it anew. A method may throw, and
what it did to `mRoot` and to the file before that stays done.

A file is what the library makes of its text. A text that parses is the value it parses to (the rest
of the file behind the value is not looked at). Any other text is `broken`: the parser throws,
`readRoot` swallows the exception, and `mRoot` is left with what the parser had built by then; the
empty text leaves it as `clear` had made it. Every string that was parsed is valid UTF-8, so the log
line that dumps `mRoot` at the end of `readRoot` does not throw.
-/

namespace NplBrowser

open Cell (Prog)

inductive Text
  | json (j : Json) (valid : j.dumps = true)
  | broken (p : Option Json) (valid : ∀ j ∈ p, j.dumps = true)

/-- `none`: there is no such file. -/
abbrev File := Option Text

namespace Text

/-- What `<< j` puts into a file: a dump that throws leaves the text it had got to. -/
def ofDump (j : Json) : Text :=
  if h : j.dumps = true then json j h
  else broken j.dumped fun _ hp => Json.dumps_of_dumped (Option.mem_def.1 hp)

/-- `>> root`, its exception swallowed: the root afterwards. -/
def parseInto (root : Json) : Text → Json
  | json j _ => j
  | broken p _ => p.getD root

end Text

structure CefClientConfig where
  mFileName : Bytes
  mPid : Bytes
  mRoot : Json := .null

/-- Methods of the class. -/
def ConfigM (α : Type) := CefClientConfig → Prog File (CefClientConfig × Except JsonError α)

namespace ConfigM

variable {α β : Type}

instance : Monad ConfigM where
  pure a c := .ret (c, .ok a)
  bind m f c := (m c).bind fun
    | (c, .ok a) => f a c
    | (c, .error e) => .ret (c, .error e)
  map f m c := (m c).bind fun r => .ret (r.1, f <$> r.2)

def throws (r : Except JsonError α) : ConfigM α := fun c => .ret (c, r)

def mPid : ConfigM Bytes := fun c => .ret (c, .ok c.mPid)
def mRoot : ConfigM Json := fun c => .ret (c, .ok c.mRoot)
def setRoot (j : Json) : ConfigM Unit := fun c => .ret ({ c with mRoot := j }, .ok ())

@[simp] theorem pure_apply (a : α) (c : CefClientConfig) :
    (pure a : ConfigM α) c = .ret (c, .ok a) := rfl

@[simp] theorem bind_apply (m : ConfigM α) (f : α → ConfigM β) (c : CefClientConfig) :
    (m >>= f) c = (m c).bind fun
      | (c, .ok a) => f a c
      | (c, .error e) => .ret (c, .error e) := rfl

@[simp] theorem throws_apply (r : Except JsonError α) (c : CefClientConfig) :
    throws r c = .ret (c, r) := rfl

@[simp] theorem mPid_apply (c : CefClientConfig) : mPid c = .ret (c, .ok c.mPid) := rfl
@[simp] theorem mRoot_apply (c : CefClientConfig) : mRoot c = .ret (c, .ok c.mRoot) := rfl
@[simp] theorem setRoot_apply (j : Json) (c : CefClientConfig) :
    setRoot j c = .ret ({ c with mRoot := j }, .ok ()) := rfl

end ConfigM

open ConfigM

/-! ### The methods

The `root` that the source passes around is a reference to `mRoot`, and `config` one to the element
`mRoot[mPid]`. -/

def readRoot : ConfigM Unit := fun c =>
  let root := c.mRoot.clear
  .read fun
    | some t => .ret ({ c with mRoot := t.parseInto root }, .ok ())
    | none => .rewrite (some (.ofDump root)) (.ret ({ c with mRoot := root }, .ok ()))

def writeRoot : ConfigM Unit := fun c => .rewrite (some (.ofDump c.mRoot)) (.ret (c, .ok ()))

def createOrGetConfig (pid : Bytes) : ConfigM Json := do
  if ((← mRoot).find pid).isNone then
    setRoot (← throws ((← mRoot).set pid .null))
  let (root, config) ← throws ((← mRoot).index pid)
  setRoot root
  return config

def setConfigValue (pid key : Bytes) (value : Bool) : ConfigM Unit := do
  let config ← createOrGetConfig pid
  let config ← throws (config.set key (.boolean value))
  setRoot (← throws ((← mRoot).set pid config))

def writeJsonValue (key : Bytes) (value : Bool) : ConfigM Unit := do
  readRoot
  setConfigValue (← mPid) key value
  writeRoot

/-- Returns what `value` is afterwards. -/
def readJsonValue (key : Bytes) (value : Bool) : ConfigM Bool := do
  readRoot
  let config ← createOrGetConfig (← mPid)
  match config.find key with
  | some (.boolean b) => return b
  | _ => return value

-- the file is read twice, and it is the second `mRoot` that is pruned and written
def eraseJsonValue (key : Bytes) : ConfigM Unit := do
  readRoot
  readRoot
  let config ← createOrGetConfig (← mPid)
  let config ← throws (config.erase key)
  setRoot (← throws ((← mRoot).set (← mPid) config))
  if config.empty then
    setRoot (← throws ((← mRoot).erase (← mPid)))
  writeRoot

def clear : ConfigM Unit := do
  readRoot
  let (root, config) ← throws ((← mRoot).index (← mPid))
  setRoot root
  if !config.isNull then
    setRoot (← throws (root.erase (← mPid)))
    writeRoot

/-- The instance every caller gets: the first caller's, whatever the others ask for. -/
def getInstance (inst : Option CefClientConfig) (filename pid : Bytes) : CefClientConfig :=
  inst.getD { mFileName := filename, mPid := pid }

end NplBrowser
