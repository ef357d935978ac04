import NplBrowser.ConfigStore

/-!
# The config file in one process

The two uses one process makes of it: the `EraseJsonValue` of a clean exit (`cefclient_win.cc`,
`RunMain`), and the calls a command handler makes through `GetInstance`, each with the file name and
the pid of its message.

The clean exit does its work exactly on a file that has an entry for the pid; without one the
element it erases from is null, and `erase` throws. The calls through `GetInstance` behave as one map
of flags under (file name, pid, key) as long as they all ask for the names the instance was made
with: whatever a later caller asks for, it works with the first one's file and pid.
-/

namespace NplBrowser

/-! ### The clean exit -/

/-- What `EraseJsonValue(key)` is to leave of a file with the entries `a`: it returns, the key is
gone, so is the pid's object if it held nothing else, and the rest is as it was. -/
structure Erased (pid key : Bytes) (a : Store)
    (out : File × CefClientConfig × Except JsonError Unit) : Prop where
  returns : out.2.2 = .ok ()
  wellFormed : out.1.WellFormed
  gone : out.1.store.value pid key = none
  pruned : (∀ k, k ≠ key → a.value pid k = none) → out.1.store pid = none
  others : ∀ p, p ≠ pid → out.1.store p = a p
  rest : ∀ k, k ≠ key → out.1.store.value pid k = a.value pid k

theorem Store.erase_eq_none {a : Store} {pid key : Bytes}
    (h : ∀ k, k ≠ key → a.value pid k = none) : a.erase pid key pid = none := by
  have hnone : Function.update (a.config pid) key none = fun _ => none := by
    funext k
    by_cases hk : k = key
    · subst hk; simp
    · rw [Function.update_of_ne hk]; exact h k hk
  rw [Store.erase, Function.update_self, if_pos hnone]

/-- A text that is a root replaces whatever `mRoot` was. -/
theorem eraseJsonValue_text (c : CefClientConfig) (key : Bytes) (j : Json) (h : j.dumps = true) :
    (eraseJsonValue key c).exec (some (.json j h)) =
      (eraseJsonValue key { c with mRoot := .null }).exec (some (.json j h)) := rfl

/-- An `mRoot` that is neither null nor an object stays so when the file has no text. -/
theorem eraseJsonValue_of_not_isMap {c : CefClientConfig} (hc : c.mRoot.isMap = false) (key : Bytes)
    {file : File} (hfile : file = none ∨ ∃ h, file = some (.broken none h)) :
    ((eraseJsonValue key c).exec file).2.2 ≠ .ok () := by
  obtain ⟨f, p, root⟩ := c
  rcases hfile with rfl | ⟨h, rfl⟩ <;> cases root <;>
    first | (cases hc; done) | (intro h; cases h)

/-- Where the pid has no entry, the element is null and `erase` throws. -/
theorem eraseJsonValue_throws {c : CefClientConfig} {file : File} (hwf : file.WellFormed)
    (hpid : file.store c.mPid = none) (key : Bytes) :
    ((eraseJsonValue key c).exec file).2.2 ≠ .ok () := by
  have hmap : ∀ c' : CefClientConfig, c'.mRoot.isMap = true → c'.mPid = c.mPid →
      ((eraseJsonValue key c').exec file).2.2 ≠ .ok () := by
    intro c' hc hp hok
    obtain ⟨a', hpost, -⟩ := (eraseJsonValue_sound (a := file.store) key hc).exec ⟨hwf, rfl⟩
    have h := hpost.2
    simp only [hp, hpid, Option.isSome_none, hok] at h
    cases h
  cases hc : c.mRoot.isMap with
  | true => exact hmap c hc rfl
  | false =>
    match file, hwf with
    | none, _ => exact eraseJsonValue_of_not_isMap hc key (.inl rfl)
    | some (.broken _ h), hwf => cases hwf; exact eraseJsonValue_of_not_isMap hc key (.inr ⟨h, rfl⟩)
    | some (.json j h), _ =>
      rw [eraseJsonValue_text]
      exact hmap { c with mRoot := .null } rfl rfl

/-- Where it has one, the clean exit does what it is for. -/
theorem eraseJsonValue_erased {c : CefClientConfig} {file : File} (hwf : file.WellFormed)
    (hpid : (file.store c.mPid).isSome = true) (key : Bytes) :
    Erased c.mPid key file.store ((eraseJsonValue key c).exec file) := by
  obtain ⟨j, h, rfl⟩ : ∃ j h, file = some (.json j h) := by
    match file, hwf with
    | none, _ => cases hpid
    | some (.broken _ h), hwf => cases hwf; cases hpid
    | some (.json j h), _ => exact ⟨j, h, rfl⟩
  rw [eraseJsonValue_text]
  obtain ⟨a', hpost, hwf', rfl⟩ := (eraseJsonValue_sound
    (c := { c with mRoot := .null }) (a := File.store (some (.json j h))) key rfl).exec ⟨hwf, rfl⟩
  have hres := hpost.2
  simp only [if_pos hpid, Prod.mk.injEq] at hres
  refine ⟨hres.1, hwf', ?_, fun hk => ?_, fun p hp => ?_, fun k hk => ?_⟩ <;> rw [hres.2]
  · rw [Store.value_erase, if_pos ⟨rfl, rfl⟩]
  · exact Store.erase_eq_none hk
  · exact Function.update_of_ne hp ..
  · rw [Store.value_erase, if_neg fun h => hk h.2]

/-- The clean exit does what it is for on exactly the files that have an entry for the pid. -/
theorem eraseJsonValue_erased_iff (c : CefClientConfig) (key : Bytes) (file : File)
    (hwf : file.WellFormed) :
    Erased c.mPid key file.store ((eraseJsonValue key c).exec file) ↔
      (file.store c.mPid).isSome = true := by
  refine ⟨fun h => ?_, fun h => eraseJsonValue_erased hwf h key⟩
  by_contra hnone
  rw [Bool.not_eq_true, Option.isSome_eq_false_iff, Option.isNone_iff_eq_none] at hnone
  exact eraseJsonValue_throws hwf hnone key h.returns

theorem eraseJsonValue_erased_iff_entry :
    let file : File := some (.ofDump (.object [(lit "42", .object [(lit "main_", .boolean true)])]))
    Erased (lit "42") (lit "main_") file.store
        ((eraseJsonValue (lit "main_") { mFileName := lit "c.json", mPid := lit "42" }).exec file) ↔
      (file.store (lit "42")).isSome = true :=
  eraseJsonValue_erased_iff { mFileName := lit "c.json", mPid := lit "42" } (lit "main_")
    (some (.ofDump (.object [(lit "42", .object [(lit "main_", .boolean true)])]))) rfl

/-- No message ever wrote to the file. -/
theorem eraseJsonValue_absent : ¬ Erased (lit "42") (lit "main_") Store.empty
    ((eraseJsonValue (lit "main_") { mFileName := lit "c.json", mPid := lit "42" }).exec none) := by
  intro h
  cases h.returns

/-! ### Calls through `GetInstance` -/

structure Request where
  filename : Bytes
  pid : Bytes
  call : Call

/-- The files, the instance once there is one, and the results of the calls so far. -/
structure ConfigSys where
  files : Bytes → File
  inst : Option CefClientConfig := none
  results : List (Except JsonError (Option Bool)) := []

namespace ConfigSys

/-- `GetInstance(filename, pid)->call`. -/
def step (s : ConfigSys) (q : Request) : ConfigSys :=
  let c := getInstance s.inst q.filename q.pid
  let (file, c', r) := (q.call.run c).exec (s.files c.mFileName)
  { files := Function.update s.files c.mFileName file, inst := some c', results := s.results ++ [r] }

/-- The flags under (file name, pid, key). -/
def flags (s : ConfigSys) : Bytes × Bytes × Bytes → Option Bool :=
  fun x => (s.files x.1).store.value x.2.1 x.2.2

end ConfigSys

namespace Request

/-- What the request is to return and to do to the map of flags. -/
def spec (q : Request) (m : Bytes × Bytes × Bytes → Option Bool) :
    Option Bool × (Bytes × Bytes × Bytes → Option Bool) :=
  match q.call with
  | .write key value => (none, Function.update m (q.filename, q.pid, key) (some value))
  | .read key value => (some ((m (q.filename, q.pid, key)).getD value), m)
  | .erase key => (none, Function.update m (q.filename, q.pid, key) none)
  | .clear => (none, fun x => if x.1 = q.filename ∧ x.2.1 = q.pid then none else m x)

def specRun : List Request → (Bytes × Bytes × Bytes → Option Bool) →
    List (Option Bool) × (Bytes × Bytes × Bytes → Option Bool)
  | [], m => ([], m)
  | q :: qs, m =>
    let (r, m') := q.spec m
    let (rs, m'') := specRun qs m'
    (r :: rs, m'')

/-- The instance, if there is one, has the names the request asks for, what is written is valid
UTF-8, and what is erased is there. -/
def Served (s : ConfigSys) (q : Request) : Prop :=
  (∀ c ∈ s.inst, c.mFileName = q.filename ∧ c.mPid = q.pid) ∧ q.call.Writable q.pid ∧
    ∀ key, q.call = .erase key → (s.flags (q.filename, q.pid, key)).isSome = true

end Request

namespace ConfigSys

/-- Every file holds flags only, and the instance can look them up. -/
structure Inv (s : ConfigSys) : Prop where
  files : ∀ f, (s.files f).WellFormed
  inst : ∀ c ∈ s.inst, c.mRoot.isMap = true

variable {s t : ConfigSys} {q : Request}

theorem Inv.getInstance (h : s.Inv) (hq : q.Served s) :
    let c := getInstance s.inst q.filename q.pid
    c.mFileName = q.filename ∧ c.mPid = q.pid ∧ c.mRoot.isMap = true := by
  cases hi : s.inst with
  | none => exact ⟨rfl, rfl, rfl⟩
  | some c => exact ⟨(hq.1 c hi).1, (hq.1 c hi).2, h.inst c hi⟩

/-- A served request leaves the flags of other files alone, and does to those of its own what the
store prescribes. -/
theorem Inv.step (h : s.Inv) (hq : q.Served s) :
    (s.step q).Inv ∧ ∃ r a', (s.step q).results = s.results ++ [r] ∧
      (r, a') = Call.spec q.pid (s.files q.filename).store q.call ∧
      ∀ x, (s.step q).flags x = if x.1 = q.filename then a'.value x.2.1 x.2.2 else s.flags x := by
  obtain ⟨hf, hp, hmap⟩ := h.getInstance hq
  have hw := hq.2.1
  rw [← hp] at hw
  have hstep := (Call.sound hmap hw (s.files q.filename).store).exec ⟨h.files q.filename, rfl⟩
  simp only [ConfigSys.step, flags, hf]
  generalize (q.call.run _).exec _ = out at hstep ⊢
  obtain ⟨file, c', r⟩ := out
  obtain ⟨a', ⟨⟨-, -, hmap'⟩, hspec⟩, hwf, hstore⟩ := hstep
  rw [hp] at hspec
  refine ⟨⟨fun f => ?_, fun c hc => ?_⟩, r, a', rfl, hspec, fun x => ?_⟩
  · by_cases hfile : f = q.filename
    · subst hfile; simpa using hwf
    · simpa [hfile] using h.files f
  · cases hc; exact hmap'
  · split
    · rename_i hx; rw [hx, Function.update_self, hstore]
    · rename_i hx; rw [Function.update_of_ne hx]

/-- A change of one flag in the store of its file is that change of the map. -/
theorem flags_update (s : ConfigSys) (f p key : Bytes) (v : Option Bool) (x : Bytes × Bytes × Bytes) :
    (if x.1 = f then if x.2.1 = p ∧ x.2.2 = key then v else (s.files f).store.value x.2.1 x.2.2
      else s.flags x) = Function.update s.flags (f, p, key) v x := by
  obtain ⟨f', p', k'⟩ := x
  by_cases hx : (f', p', k') = (f, p, key)
  · cases hx
    simp
  · rw [Function.update_of_ne hx]
    simp only [Prod.mk.injEq, not_and] at hx
    split
    · rename_i hf
      obtain rfl : f' = f := hf
      rw [if_neg fun h => hx rfl h.1 h.2]
      rfl
    · rfl

/-- The flags and the result are those of the map. -/
theorem Inv.step_spec (h : s.Inv) (hq : q.Served s) :
    (s.step q).results = s.results ++ [.ok (q.spec s.flags).1] ∧
      (s.step q).flags = (q.spec s.flags).2 := by
  obtain ⟨-, r, a', hres, hspec, hflags⟩ := h.step hq
  obtain ⟨f, p, call⟩ := q
  rw [hres]
  cases call with
  | write key v =>
    cases hspec
    refine ⟨rfl, funext fun x => ?_⟩
    rw [hflags, Store.value_write]
    exact s.flags_update f p key (some v) x
  | read key v =>
    cases hspec
    refine ⟨rfl, funext fun x => ?_⟩
    rw [hflags]
    split
    · rename_i hf; simp only [Request.spec, flags, hf]
    · rfl
  | erase key =>
    have hkey := hq.2.2 key rfl
    have hpid : ((s.files f).store p).isSome = true := by
      cases hn : (s.files f).store p with
      | some m => rfl
      | none =>
        have hnone : s.flags (f, p, key) = none := by simp [flags, Store.value, Store.config, hn]
        rw [hnone] at hkey; cases hkey
    simp only [Call.spec, hpid, if_true] at hspec
    cases hspec
    refine ⟨rfl, funext fun x => ?_⟩
    rw [hflags, Store.value_erase]
    exact s.flags_update f p key none x
  | clear =>
    cases hspec
    refine ⟨rfl, funext fun x => ?_⟩
    rw [hflags, Store.value_clear]
    by_cases hf : x.1 = f
    · by_cases hp : x.2.1 = p
      · simp [Request.spec, hf, hp]
      · simp [Request.spec, hf, hp, flags]
    · simp [Request.spec, hf]

end ConfigSys

/-- As long as every request asks for the names of the instance, the files behave as one map of
flags: every result is the one of the map, none is an exception, and the files hold what it holds. -/
theorem configSys_refines_map {s t : ConfigSys} {qs : List Request}
    (hfiles : ∀ f, (s.files f).WellFormed) (hinst : s.inst = none)
    (hrun : Lts.Run (fun s q => some (ConfigSys.step s q)) (fun s q => q.Served s) s qs t) :
    t.results = s.results ++ (Request.specRun qs s.flags).1.map .ok ∧
      t.flags = (Request.specRun qs s.flags).2 ∧ ∀ f, (t.files f).WellFormed := by
  have h : s.Inv := ⟨hfiles, by simp [hinst]⟩
  clear hfiles hinst
  induction hrun with
  | nil s => simpa [Request.specRun] using h.files
  | @cons s s' t q qs hq hs _ ih =>
    cases hs
    obtain ⟨hres, hflags⟩ := h.step_spec hq
    obtain ⟨ihres, ihflags, ihwf⟩ := ih (h.step hq).1
    rw [hflags] at ihres ihflags
    refine ⟨?_, ihflags, ihwf⟩
    rw [ihres, hres, List.append_assoc]
    rfl

/-- Writing and reading back a flag, from no files at all. -/
theorem configSys_refines_map_write_read :
    let q call : Request := { filename := lit "c.json", pid := lit "42", call }
    let s : ConfigSys := { files := fun _ => none }
    ((s.step (q (.write (lit "main_") true))).step (q (.read (lit "main_") false))).results =
      [.ok none, .ok (some true)] := by
  intro q s
  have h₁ : (q (.write (lit "main_") true)).Served s :=
    ⟨fun c hc => (by cases hc), ⟨rfl, rfl⟩, fun key hkey => (by cases hkey)⟩
  have h₂ : (q (.read (lit "main_") false)).Served (s.step (q (.write (lit "main_") true))) :=
    ⟨fun c hc => (by cases hc; exact ⟨rfl, rfl⟩), trivial, fun key hkey => (by cases hkey)⟩
  exact (configSys_refines_map (s := s) (fun _ => trivial) rfl
    (.cons h₁ rfl (.cons h₂ rfl (.nil _)))).1

/-- A second message with another file name and pid reads the flag of the first. -/
theorem configSys_other_names :
    let s : ConfigSys := { files := fun _ => none }
    let q₁ : Request := ⟨lit "c.json", lit "42", .write (lit "main_") true⟩
    let q₂ : Request := ⟨lit "d.json", lit "43", .read (lit "main_") false⟩
    ((s.step q₁).step q₂).results ≠ (Request.specRun [q₁, q₂] s.flags).1.map .ok := by
  intro s q₁ q₂ h
  have hcode : ((s.step q₁).step q₂).results = [.ok none, .ok (some true)] := rfl
  have hspec : (Request.specRun [q₁, q₂] s.flags).1 = [none, some false] := rfl
  rw [hcode, hspec] at h
  simp at h

end NplBrowser
