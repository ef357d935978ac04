import Mathlib.Logic.Function.Basic
import NplBrowser.CefClientConfig

/-!
# The config file as a store of flags

What the file is for: it keeps, for each pid that has an entry, a flag for some keys (`Store`).
`FileSays file a`: the file is absent, empty, null or an object of objects of booleans, and its
entries are `a`. Each method, run on such a file, does the operation of its name to the store. The
methods are taken apart at `readRoot` (`sound_readRoot`): what is left behind it is a pure change of
`mRoot` and at most one write. `Call.sound` states this for all four in the form that the sequential
and the shared use of a file both start from.
-/

namespace NplBrowser

abbrev Store := Bytes → Option (Bytes → Option Bool)

namespace Store

def empty : Store := fun _ => none

def config (a : Store) (pid : Bytes) : Bytes → Option Bool := (a pid).getD fun _ => none

def value (a : Store) (pid key : Bytes) : Option Bool := a.config pid key

def write (a : Store) (pid key : Bytes) (v : Bool) : Store :=
  Function.update a pid (some (Function.update (a.config pid) key (some v)))

open Classical in
/-- An entry that has lost its last key goes too. -/
noncomputable def erase (a : Store) (pid key : Bytes) : Store :=
  let m := Function.update (a.config pid) key none
  Function.update a pid (if m = fun _ => none then none else some m)

def clear (a : Store) (pid : Bytes) : Store := Function.update a pid none

theorem value_write (a : Store) (pid key : Bytes) (v : Bool) (p k : Bytes) :
    (a.write pid key v).value p k = if p = pid ∧ k = key then some v else a.value p k := by
  by_cases hp : p = pid
  · subst hp
    by_cases hk : k = key
    · subst hk; simp [value, config, write]
    · simp [value, config, write, hk]
  · simp [value, config, write, hp]

theorem value_erase (a : Store) (pid key p k : Bytes) :
    (a.erase pid key).value p k = if p = pid ∧ k = key then none else a.value p k := by
  by_cases hp : p = pid
  · subst hp
    have h : (a.erase p key).config p = Function.update (a.config p) key none := by
      rw [config, erase, Function.update_self]
      by_cases h : Function.update (a.config p) key none = fun _ => none
      · rw [if_pos h, h]; rfl
      · rw [if_neg h]; rfl
    show (a.erase p key).config p k = _
    rw [h]
    by_cases hk : k = key
    · subst hk; simp
    · simp [hk, value]
  · simp [value, config, erase, hp]

theorem value_clear (a : Store) (pid p k : Bytes) :
    (a.clear pid).value p k = if p = pid then none else a.value p k := by
  by_cases hp : p = pid
  · subst hp; simp [value, config, clear]
  · simp [value, config, clear, hp]

theorem clear_of_none {a : Store} {pid : Bytes} (h : a pid = none) : a.clear pid = a := by
  rw [clear, ← h, Function.update_eq_self]

end Store

/-! ### Values that hold flags -/

namespace Json

def flag : Json → Option Bool
  | boolean b => some b
  | _ => none

/-- An object of booleans. -/
def isConfig (j : Json) : Bool := j.isObject && j.fields.all fun e => e.2.flag.isSome

/-- An object of objects of booleans, or null. -/
def isRoot (j : Json) : Bool := j.isMap && j.fields.all fun e => e.2.isConfig

def flags (j : Json) (key : Bytes) : Option Bool := (Assoc.find? key j.fields).bind flag

def store (j : Json) : Store := fun pid => (Assoc.find? pid j.fields).map flags

theorem isMap_of_isConfig {j : Json} (h : j.isConfig = true) : j.isMap = true := by
  rw [isConfig, Bool.and_eq_true] at h
  rw [isMap, h.1, Bool.or_true]

theorem eq_object_of_isConfig {j : Json} (h : j.isConfig = true) : j = object j.fields := by
  rw [isConfig, Bool.and_eq_true] at h
  cases j <;> first | rfl | cases h.1

theorem isConfig_insert {j : Json} (h : j.isConfig = true ∨ j = null) (k : Bytes) (b : Bool) :
    (object (Assoc.insert k (boolean b) j.fields)).isConfig = true := by
  have hj : ∀ e ∈ j.fields, e.2.flag.isSome = true := by
    rcases h with h | rfl
    · rw [isConfig, Bool.and_eq_true, List.all_eq_true] at h; exact h.2
    · intro e he; cases he
  rw [isConfig, Bool.and_eq_true, List.all_eq_true]
  refine ⟨rfl, fun e he => ?_⟩
  rcases Assoc.mem_insert he with rfl | he
  exacts [rfl, hj e he]

theorem isConfig_erase {j : Json} (h : j.isConfig = true) (k : Bytes) :
    (object (Assoc.erase k j.fields)).isConfig = true := by
  rw [isConfig, Bool.and_eq_true, List.all_eq_true] at h ⊢
  exact ⟨rfl, fun e he => h.2 e (Assoc.mem_erase he)⟩

theorem flags_insert (j : Json) (k : Bytes) (b : Bool) :
    (object (Assoc.insert k (boolean b) j.fields)).flags = Function.update j.flags k (some b) := by
  funext k'
  by_cases hk : k' = k
  · subst hk; simp [flags, fields, flag]
  · simp [flags, fields, Assoc.find?_insert_ne hk, hk]

theorem flags_erase (j : Json) (k : Bytes) :
    (object (Assoc.erase k j.fields)).flags = Function.update j.flags k none := by
  funext k'
  by_cases hk : k' = k
  · subst hk; simp [flags, fields]
  · simp [flags, fields, Assoc.find?_erase_ne hk, hk]

/-- An object of booleans without a flag is empty. -/
theorem flags_eq_iff {fs : List (Bytes × Json)} (h : (object fs).isConfig = true) :
    ((object fs).flags = fun _ => none) ↔ fs = [] := by
  rw [isConfig, Bool.and_eq_true, List.all_eq_true] at h
  constructor
  · intro hf
    refine Assoc.eq_nil_iff_find?.2 fun k => ?_
    have hk : (Assoc.find? k fs).bind flag = none := congrFun hf k
    cases hv : Assoc.find? k fs with
    | none => rfl
    | some v =>
      have hv' := h.2 _ (Assoc.mem_of_find? hv)
      rw [hv, Option.bind_some] at hk
      rw [hk] at hv'; cases hv'
  · rintro rfl; rfl

/-- The root holds nothing but flags, and they are `a`. -/
structure Says (root : Json) (a : Store) : Prop where
  isRoot : root.isRoot = true
  dumps : root.dumps = true
  store : root.store = a

namespace Says

variable {root : Json} {a : Store}

theorem isMap (h : root.Says a) : root.isMap = true := by
  have := h.isRoot
  rw [Json.isRoot, Bool.and_eq_true] at this
  exact this.1

theorem of_clear {j : Json} (h : j.isMap = true) : j.clear.Says .empty := by
  rcases eq_of_isMap h with ⟨rfl, -⟩ | h
  · exact ⟨rfl, rfl, rfl⟩
  · rw [h]; exact ⟨rfl, rfl, rfl⟩

theorem eq_object (h : root.Says a) {pid : Bytes} {j : Json}
    (hf : Assoc.find? pid root.fields = some j) : root = object root.fields := by
  rcases eq_of_isMap h.isMap with ⟨-, h₀⟩ | h₀
  · rw [h₀] at hf; cases hf
  · exact h₀

theorem find? (h : root.Says a) (pid : Bytes) :
    (Assoc.find? pid root.fields = none ∧ a pid = none) ∨
    ∃ config, Assoc.find? pid root.fields = some config ∧ config.isConfig = true ∧
      config.dumps = true ∧ a pid = some config.flags := by
  have ha : a pid = (Assoc.find? pid root.fields).map flags := by rw [← h.store]; rfl
  cases hf : Assoc.find? pid root.fields with
  | none => exact .inl ⟨rfl, by rw [ha, hf]; rfl⟩
  | some config =>
    have hmem := Assoc.mem_of_find? hf
    have hroot := h.isRoot
    rw [Json.isRoot, Bool.and_eq_true, List.all_eq_true] at hroot
    have hd := h.dumps
    rw [h.eq_object hf, dumps_object] at hd
    exact .inr ⟨config, rfl, hroot.2 _ hmem, (hd _ hmem).2, by rw [ha, hf]; rfl⟩

theorem fields_dumps (h : root.Says a) : (object root.fields).dumps = true := by
  rcases eq_of_isMap h.isMap with ⟨-, h₀⟩ | h₀
  · rw [h₀]; rfl
  · rw [← h₀]; exact h.dumps

/-- `root[pid] = config`. -/
theorem insert (h : root.Says a) {pid : Bytes} (hpid : utf8 pid = true) {config : Json}
    (hc : config.isConfig = true) (hd : config.dumps = true) :
    (object (Assoc.insert pid config root.fields)).Says
      (Function.update a pid (some config.flags)) where
  isRoot := by
    have hroot := h.isRoot
    rw [Json.isRoot, Bool.and_eq_true, List.all_eq_true] at hroot ⊢
    refine ⟨rfl, fun e he => ?_⟩
    rcases Assoc.mem_insert he with rfl | he
    exacts [hc, hroot.2 e he]
  dumps := dumps_insert hpid hd h.fields_dumps
  store := by
    funext p
    rw [← h.store]
    by_cases hp : p = pid
    · subst hp; simp [Json.store, fields]
    · simp [Json.store, fields, Assoc.find?_insert_ne hp, hp]

/-- An entry whose key is in the file already. -/
theorem replace (h : root.Says a) {pid : Bytes} {j config : Json}
    (hf : Assoc.find? pid root.fields = some j) (hc : config.isConfig = true)
    (hd : config.dumps = true) :
    (object (Assoc.insert pid config root.fields)).Says
      (Function.update a pid (some config.flags)) :=
  h.insert (dumps_object.1 h.fields_dumps _ (Assoc.mem_of_find? hf)).1 hc hd

/-- `root.erase(pid)`. -/
theorem erase (h : root.Says a) (pid : Bytes) :
    (object (Assoc.erase pid root.fields)).Says (a.clear pid) where
  isRoot := by
    have hroot := h.isRoot
    rw [Json.isRoot, Bool.and_eq_true, List.all_eq_true] at hroot ⊢
    exact ⟨rfl, fun e he => hroot.2 e (Assoc.mem_erase he)⟩
  dumps := dumps_erase h.fields_dumps
  store := by
    funext p
    rw [← h.store]
    by_cases hp : p = pid
    · subst hp; simp [Json.store, fields, Store.clear]
    · simp [Json.store, fields, Assoc.find?_erase_ne hp, hp, Store.clear]

end Says
end Json

/-! ### Files -/

namespace File

/-- Absent, empty, null or an object of objects of booleans. -/
def WellFormed : File → Prop
  | none => True
  | some (.json j _) => j.isRoot = true
  | some (.broken p _) => p = none

def store : File → Store
  | none => .empty
  | some t => (t.parseInto .null).store

end File

def FileSays (file : File) (a : Store) : Prop := file.WellFormed ∧ file.store = a

theorem FileSays.of_dump {j : Json} {a : Store} (h : j.Says a) :
    FileSays (some (.ofDump j)) a := by
  rw [Text.ofDump, dif_pos h.dumps]; exact ⟨h.isRoot, h.store⟩

/-! ### The methods -/

open Cell (Prog)
open ConfigM

section
variable {α : Type} {c : CefClientConfig} {a : Store} {pid key : Bytes} {v : Bool}

/-- What comes behind `readRoot` starts from a root that says what the file said. -/
theorem sound_readRoot {m : ConfigM α} {post : Store → CefClientConfig × Except JsonError α → Store → Prop}
    (hc : c.mRoot.isMap = true)
    (h : ∀ root a, Json.Says root a → (m { c with mRoot := root }).Sound FileSays post a) :
    ((readRoot >>= fun _ => m) c).Sound FileSays post a := by
  have hclear := Json.Says.of_clear hc
  intro file a ha
  obtain ⟨hwf, rfl⟩ := ha
  match file, hwf with
  | none, _ => exact .inl ⟨.of_dump hclear, h _ _ hclear⟩
  | some (.json j hj), hwf => exact h j _ ⟨hwf, hj, rfl⟩
  | some (.broken _ _), hwf => cases hwf; exact h _ _ hclear

theorem createOrGetConfig_some {config : Json} (h : Assoc.find? pid c.mRoot.fields = some config) :
    createOrGetConfig pid c = .ret (c, .ok config) := by
  simp [createOrGetConfig, Json.find_eq, h, Json.index_eq h]

theorem createOrGetConfig_none (hc : c.mRoot.isMap = true)
    (h : Assoc.find? pid c.mRoot.fields = none) :
    createOrGetConfig pid c =
      .ret ({ c with mRoot := .object (Assoc.insert pid .null c.mRoot.fields) }, .ok .null) := by
  have hi : (Json.object (Assoc.insert pid .null c.mRoot.fields)).index pid =
      .ok (.object (Assoc.insert pid .null c.mRoot.fields), .null) :=
    Json.index_eq (Assoc.find?_insert_self ..)
  simp [createOrGetConfig, Json.find_eq, h, Json.set_eq hc, hi]

/-- The element is the entry of the pid, or null where there was none. -/
theorem createOrGetConfig_says (h : c.mRoot.Says a) (pid : Bytes) :
    ∃ root config, createOrGetConfig pid c = .ret ({ c with mRoot := root }, .ok config) ∧
      root.isMap = true ∧ (∀ j, Assoc.insert pid j root.fields = Assoc.insert pid j c.mRoot.fields) ∧
      (config.isConfig = true ∨ config = .null) ∧ (Json.object config.fields).dumps = true ∧
      config.flags = a.config pid := by
  rcases h.find? pid with ⟨hf, ha⟩ | ⟨config, hf, hconf, hd, ha⟩
  · refine ⟨_, _, createOrGetConfig_none h.isMap hf, rfl, fun j => ?_, .inr rfl, rfl, ?_⟩
    · exact Assoc.insert_insert ..
    · rw [Store.config, ha]; rfl
  · refine ⟨c.mRoot, config, createOrGetConfig_some hf, h.isMap, fun _ => rfl, .inl hconf, ?_, ?_⟩
    · rw [← Json.eq_object_of_isConfig hconf]; exact hd
    · rw [Store.config, ha]; rfl

theorem setConfigValue_says (h : c.mRoot.Says a) (hpid : utf8 pid = true) (hkey : utf8 key = true) :
    ∃ root, setConfigValue pid key v c = .ret ({ c with mRoot := root }, .ok ()) ∧
      root.Says (a.write pid key v) := by
  obtain ⟨root, config, hget, hroot, hins, hconf, hd, hflags⟩ := createOrGetConfig_says h pid
  have hmap : config.isMap = true := by
    rcases hconf with h | rfl
    exacts [Json.isMap_of_isConfig h, rfl]
  refine ⟨.object (Assoc.insert pid (.object (Assoc.insert key (.boolean v) config.fields))
    c.mRoot.fields), ?_, ?_⟩
  · simp [setConfigValue, hget, Json.set_eq hmap, Json.set_eq hroot, hins]
  · have := h.insert hpid (Json.isConfig_insert hconf key v) (Json.dumps_insert hkey rfl hd)
    rwa [Json.flags_insert, hflags] at this

end

/-! ### Calls -/

inductive Call
  | write (key : Bytes) (value : Bool)
  | read (key : Bytes) (value : Bool)
  | erase (key : Bytes)
  | clear

namespace Call

/-- The call; of `read` the result is what its argument is afterwards. -/
def run : Call → ConfigM (Option Bool)
  | write key value => (fun _ => none) <$> writeJsonValue key value
  | read key value => some <$> readJsonValue key value
  | erase key => (fun _ => none) <$> eraseJsonValue key
  | clear => (fun _ => none) <$> NplBrowser.clear

/-- What a call by the process `pid` is for: its result and the store afterwards. -/
noncomputable def spec (pid : Bytes) (a : Store) : Call → Except JsonError (Option Bool) × Store
  | write key value => (.ok none, a.write pid key value)
  | read key value => (.ok (some ((a.value pid key).getD value)), a)
  | erase key => if (a pid).isSome then (.ok none, a.erase pid key) else (.error (.typeError 307), a)
  | clear => (.ok none, a.clear pid)

/-- The file can only take strings that are valid UTF-8. -/
def Writable (pid : Bytes) : Call → Prop
  | write key _ => utf8 pid = true ∧ utf8 key = true
  | _ => True

end Call

/-- Calls leave the names alone, and a root that can be indexed. -/
def CefClientConfig.Next (c c' : CefClientConfig) : Prop :=
  c'.mFileName = c.mFileName ∧ c'.mPid = c.mPid ∧ c'.mRoot.isMap = true

section
variable {c : CefClientConfig} {a : Store} {key : Bytes} {v : Bool}

/-- What a method promises: `f` is the result and the effect the store prescribes. -/
def Post {α : Type} (c : CefClientConfig) (f : Store → Except JsonError α × Store) (a : Store)
    (r : CefClientConfig × Except JsonError α) (a' : Store) : Prop :=
  c.Next r.1 ∧ (r.2, a') = f a

theorem Post.map {α β : Type} {f : Store → Except JsonError α × Store}
    {f' : Store → Except JsonError β × Store} {g : α → β} (hf : ∀ a, f' a = (g <$> (f a).1, (f a).2))
    {r : CefClientConfig × Except JsonError α} {a a' : Store} (h : Post c f a r a') :
    Post c f' a (r.1, g <$> r.2) a' := by
  refine ⟨h.1, ?_⟩
  rw [hf, ← h.2]

theorem writeJsonValue_sound (hc : c.mRoot.isMap = true) (hpid : utf8 c.mPid = true)
    (hkey : utf8 key = true) :
    (writeJsonValue key v c).Sound FileSays (Post c fun a => (.ok (), a.write c.mPid key v)) a := by
  refine sound_readRoot hc fun root a h => ?_
  obtain ⟨root', hset, h'⟩ := setConfigValue_says (c := { c with mRoot := root }) (v := v) h hpid hkey
  simp only [bind_apply, mPid_apply, Prog.bind_ret, hset, writeRoot]
  exact .inr ⟨_, _, rfl, ⟨⟨rfl, rfl, h'.isMap⟩, rfl⟩, .of_dump h'⟩

theorem readJsonValue_sound (hc : c.mRoot.isMap = true) :
    (readJsonValue key v c).Sound FileSays
      (Post c fun a => (.ok ((a.value c.mPid key).getD v), a)) a := by
  refine sound_readRoot hc fun root a h => ?_
  obtain ⟨root', config, hget, hroot, -, hconf, -, hflags⟩ :=
    createOrGetConfig_says (c := { c with mRoot := root }) h c.mPid
  have hval : a.value c.mPid key = (Assoc.find? key config.fields).bind Json.flag := by
    rw [Store.value, ← hflags]; rfl
  simp only [bind_apply, mPid_apply, Prog.bind_ret, hget, Json.find_eq]
  have hmem : ∀ j, Assoc.find? key config.fields = some j → j.flag.isSome = true := by
    intro j hj
    rcases hconf with hconf | rfl
    · rw [Json.isConfig, Bool.and_eq_true, List.all_eq_true] at hconf
      exact hconf.2 _ (Assoc.mem_of_find? hj)
    · cases hj
  cases hj : Assoc.find? key config.fields with
  | none =>
    refine ⟨⟨rfl, rfl, hroot⟩, ?_⟩
    show (Except.ok v, a) = (Except.ok ((a.value c.mPid key).getD v), a)
    rw [hval, hj]; rfl
  | some j =>
    cases j with
    | boolean b =>
      refine ⟨⟨rfl, rfl, hroot⟩, ?_⟩
      show (Except.ok b, a) = (Except.ok ((a.value c.mPid key).getD v), a)
      rw [hval, hj]; rfl
    | _ => cases hmem _ hj

theorem eraseJsonValue_sound (key : Bytes) (hc : c.mRoot.isMap = true) :
    (eraseJsonValue key c).Sound FileSays (Post c fun a =>
      if (a c.mPid).isSome then (.ok (), a.erase c.mPid key) else (.error (.typeError 307), a)) a := by
  refine sound_readRoot hc fun root₁ a₁ h₁ => ?_
  refine sound_readRoot (c := { c with mRoot := root₁ }) h₁.isMap fun root a h => ?_
  rcases h.find? c.mPid with ⟨hf, ha⟩ | ⟨config, hf, hconf, hd, ha⟩
  · -- null cannot be erased from
    simp only [bind_apply, mPid_apply, Prog.bind_ret, throws_apply, Json.erase,
      createOrGetConfig_none (c := { c with mRoot := root }) h.isMap hf]
    refine ⟨⟨rfl, rfl, rfl⟩, ?_⟩
    simp [ha]
  · have hobj := Json.eq_object_of_isConfig hconf
    have herase : config.erase key = .ok (.object (Assoc.erase key config.fields)) := by
      rw [hobj]; rfl
    have hconf' := Json.isConfig_erase hconf key
    have hflags := Json.flags_erase config key
    have hcfg : a.config c.mPid = config.flags := by rw [Store.config, ha]; rfl
    simp only [bind_apply, mPid_apply, mRoot_apply, setRoot_apply, Prog.bind_ret, throws_apply, herase,
      createOrGetConfig_some (c := { c with mRoot := root }) hf, Json.set_eq h.isMap]
    by_cases hnil : Assoc.erase key config.fields = []
    · -- the pid has lost its last key
      rw [if_pos (by rw [hnil]; rfl)]
      simp only [bind_apply, mPid_apply, mRoot_apply, setRoot_apply, Prog.bind_ret, throws_apply,
        Json.erase, writeRoot, Assoc.erase_insert]
      refine .inr ⟨_, a.erase c.mPid key, rfl, ⟨⟨rfl, rfl, rfl⟩, ?_⟩, .of_dump ?_⟩
      · simp [ha]
      · have hnone := (Json.flags_eq_iff hconf').2 hnil
        rw [Store.erase, hcfg, ← hflags, if_pos hnone]
        exact h.erase c.mPid
    · have hempty : ¬ (Json.object (Assoc.erase key config.fields)).empty = true := by
        simpa [Json.empty] using hnil
      rw [if_neg hempty]
      simp only [writeRoot]
      refine .inr ⟨_, a.erase c.mPid key, rfl, ⟨⟨rfl, rfl, rfl⟩, ?_⟩, .of_dump ?_⟩
      · simp [ha]
      · have hsome := mt (Json.flags_eq_iff hconf').1 hnil
        rw [Store.erase, hcfg, ← hflags, if_neg hsome]
        exact h.replace hf hconf' (Json.dumps_erase (hobj ▸ hd))

theorem clear_sound (hc : c.mRoot.isMap = true) :
    (NplBrowser.clear c).Sound FileSays (Post c fun a => (.ok (), a.clear c.mPid)) a := by
  refine sound_readRoot hc fun root a h => ?_
  rcases h.find? c.mPid with ⟨hf, ha⟩ | ⟨config, hf, hconf, -, -⟩
  · simp only [bind_apply, mPid_apply, mRoot_apply, setRoot_apply, Prog.bind_ret, throws_apply,
      Json.index_eq_null h.isMap hf]
    refine ⟨⟨rfl, rfl, rfl⟩, ?_⟩
    show (Except.ok (), a) = (Except.ok (), a.clear c.mPid)
    rw [Store.clear_of_none ha]
  · have hobj := Json.eq_object_of_isConfig hconf
    have hnull : (!config.isNull) = true := by rw [hobj]; rfl
    have hroot : root = .object root.fields := h.eq_object hf
    have herase : root.erase c.mPid = .ok (.object (Assoc.erase c.mPid root.fields)) := by
      rw [hroot]; rfl
    simp only [bind_apply, mPid_apply, mRoot_apply, setRoot_apply, Prog.bind_ret, throws_apply,
      Json.index_eq hf, hnull, if_true, herase, writeRoot]
    exact .inr ⟨_, _, rfl, ⟨⟨rfl, rfl, rfl⟩, rfl⟩, .of_dump (h.erase c.mPid)⟩

end

/-- Every call does to the file and returns what the store prescribes. -/
theorem Call.sound {call : Call} {c : CefClientConfig} (hc : c.mRoot.isMap = true)
    (hw : call.Writable c.mPid) (a : Store) :
    (call.run c).Sound FileSays (Post c fun a => spec c.mPid a call) a := by
  cases call with
  | write key value =>
    exact (writeJsonValue_sound hc hw.1 hw.2).map fun _ _ _ => Post.map fun _ => rfl
  | read key value => exact (readJsonValue_sound hc).map fun _ _ _ => Post.map fun _ => rfl
  | erase key =>
    refine (eraseJsonValue_sound key hc).map fun _ _ _ => Post.map fun a => ?_
    rw [spec]
    split <;> rfl
  | clear => exact (clear_sound hc).map fun _ _ _ => Post.map fun _ => rfl

end NplBrowser
