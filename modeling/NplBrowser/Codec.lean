import Mathlib.Algebra.Order.BigOperators.Group.List
import Mathlib.Tactic.Ring
import NplBrowser.Command
import NplBrowser.JsonRoundTrip
import NplBrowser.Plugin

/-!
# From the plugin's parameters to the client's command

The text that `LibActivate` makes of its parameters, and what of it arrives. The receiver is given
the first `cbData` bytes, and whatever lies behind them in its memory. Up to 4096 bytes the terminating
NUL is among them, and the command is read back field by field (`BrowserParams.decodes_toJson`); a
longer text loses it (`copyData_carries_iff`). The parser is a parameter that reads the text, as `parseText`
does (`BrowserParams.parseText_toJson`).
-/

namespace NplBrowser

namespace Json

theorem find?_parsedMembers (k : Bytes) (fs : List (Bytes × Json)) :
    Assoc.find? k (parsedMembers fs) = (Assoc.find? k fs).map parsed := by
  induction fs with
  | nil => rfl
  | cons e fs ih =>
    rw [parsedMembers, Assoc.find?_cons, Assoc.find?_cons, ih]
    split <;> rfl

theorem find_parsed (j : Json) (k : Bytes) : j.parsed.find k = (j.find k).map parsed := by
  cases j with
  | object fs => exact find?_parsedMembers k fs
  | integer i => rw [parsed]; split <;> rfl
  | float x => rw [parsed]; split <;> rfl
  | _ => rfl

/-- An `int` comes back whichever type the parser gives the number. -/
theorem getInt_parsed (x : Int32) : (integer x.toInt64).parsed.getInt = .ok x := by
  rw [parsed]
  split
  · show Except.ok (Int32.ofInt x.toInt64.toInt) = _
    rw [Int32.toInt_toInt64, Int32.ofInt_toInt]
  · have h0 : 0 ≤ x.toInt64 := Int64.not_lt.1 ‹_›
    show Except.ok (Int32.ofInt x.toInt64.toUInt64.toNat) = _
    rw [Int64.toNat_toUInt64_of_le h0, Int64.cast_toNatClampNeg _ h0, Int32.toInt_toInt64,
      Int32.ofInt_toInt]

end Json

namespace BrowserParams

variable {p : BrowserParams}

def strings (p : BrowserParams) : List Bytes :=
  [p.cmd, p.callbackFile, p.cmdline, p.clientName, p.parentHandle, p.cefclientConfigFilename, p.pid,
   p.id, p.url]

/-- What `HandleCustomTask` is meant to read. -/
def command (p : BrowserParams) : Command where
  cmd := p.cmd
  id := p.id
  url := p.url
  resize := p.resize
  visible := p.visible
  enabled := p.enabled
  x := p.x
  y := p.y
  width := p.width
  height := p.height
  zoom := p.zoom
  parentHandle := p.parentHandle
  cefclientConfigFilename := p.cefclientConfigFilename
  pid := p.pid

/-- The length of the dump: the names and the punctuation take 204 bytes. -/
def textLength (dumpFloat : Double → Bytes) (p : BrowserParams) : Nat :=
  204 + (p.strings.map escapedLength).sum +
    ([p.x, p.y, p.width, p.height].map fun i => (dumpInt i.toInt).length).sum +
    ([p.visible, p.resize, p.enabled].map fun b => if b then 4 else 5).sum +
    (dumpFloat p.zoom).length

theorem decodes_toJson (hz : p.zoom.isFinite = true) : Decodes p.toJson.parsed p.command := by
  have hfind : ∀ k v, (k, v) ∈ p.members → p.toJson.parsed.find k = some v.parsed := fun k v h => by
    rw [Json.find_parsed, find_toJson h, Option.map_some]
  have hzoom : (Json.float p.zoom).parsed = .float p.zoom := by rw [Json.parsed, if_pos hz]
  constructor
  case zoom => exact ⟨_, hfind (lit "zoom") (.float p.zoom) (by simp [members]), by rw [hzoom]; rfl⟩
  case x => exact ⟨_, hfind (lit "x") (.integer p.x.toInt64) (by simp [members]), Json.getInt_parsed p.x⟩
  case y => exact ⟨_, hfind (lit "y") (.integer p.y.toInt64) (by simp [members]), Json.getInt_parsed p.y⟩
  case width =>
    exact ⟨_, hfind (lit "width") (.integer p.width.toInt64) (by simp [members]),
      Json.getInt_parsed p.width⟩
  case height =>
    exact ⟨_, hfind (lit "height") (.integer p.height.toInt64) (by simp [members]),
      Json.getInt_parsed p.height⟩
  case resize => exact hfind (lit "resize") (.boolean p.resize) (by simp [members])
  case visible => exact hfind (lit "visible") (.boolean p.visible) (by simp [members])
  case enabled => exact hfind (lit "enabled") (.boolean p.enabled) (by simp [members])
  all_goals exact hfind _ (.string _) (by simp [members, command])

theorem dumps_toJson (hs : ∀ s ∈ p.strings, utf8 s = true) : p.toJson.dumps = true := by
  rw [toJson, Json.dumps_object]
  intro e he
  have hk : ∀ k ∈ p.members.map Prod.fst, utf8 k = true := by
    rw [map_fst_members]
    decide +kernel
  have hv : ∀ v ∈ p.members.map Prod.snd, v.dumps = true := by
    simpa [members, strings, Json.dumps] using hs
  rcases Assoc.mem_insertAll he with he | he
  · exact ⟨hk _ (List.mem_map_of_mem he), hv _ (List.mem_map_of_mem he)⟩
  · cases he

theorem dumpLength_toJson (dumpFloat : Double → Bytes) (hz : p.zoom.isFinite = true) :
    p.toJson.dumpLength dumpFloat = p.textLength dumpFloat := by
  have hperm : (Assoc.insertAll p.members []).Perm p.members := by
    simpa using Assoc.perm_insertAll (m := []) p.nodup_members (by simp)
  have hne : Assoc.insertAll p.members [] ≠ [] := by
    intro h
    have hlen := hperm.length_eq
    rw [h, List.length_nil, members, List.length_cons] at hlen
    omega
  have hnames : (names.map escapedLength).sum = 117 := by decide +kernel
  rw [toJson, Json.dumpLength_object hne, (hperm.map _).sum_nat]
  have hsplit : ∀ l : List (Bytes × Json),
      (l.map fun e => escapedLength e.1 + 4 + e.2.dumpLength dumpFloat).sum =
        ((l.map Prod.fst).map escapedLength).sum + 4 * l.length +
          ((l.map Prod.snd).map (Json.dumpLength dumpFloat)).sum := by
    intro l
    induction l with
    | nil => rfl
    | cons e l ih => simp only [List.map_cons, List.sum_cons, List.length_cons, ih]; omega
  rw [hsplit, map_fst_members, hnames]
  simp only [members, List.map_cons, List.map_nil, List.sum_cons, List.sum_nil, List.length_cons,
    List.length_nil, Json.dumpLength, textLength, strings, hz, if_true, Int32.toInt_toInt64]
  ring

end BrowserParams

/-! ### The program's parser -/

theorem parseText_dump {dumpFloat : Double → Bytes} {j : Json} {s : Bytes} (h : j.dump dumpFloat = some s)
    (hj : Json.Every (Json.Readable atof dumpFloat) j) : parseText s = some j.parsed := by
  have hdump : j.dumpWith dumpFloat none 0 = some s := (Json.dumpWith_none 0 _).trans h
  have hblanks : Blanks [] := by simp [Blanks]
  obtain ⟨hparse, -⟩ := Json.parse_dumpWith_of_readable .null hdump hj hblanks
  rw [List.append_nil] at hparse
  rw [parseText, hparse]
  rfl

/-- `0.0`, which the zoom is unless something else is asked for. -/
theorem readsBack_zero : ReadsBack atof (fun _ => lit "0.0") .zero :=
  have hwrites : Writes (fun _ => ([], 0)) .zero := fun hne => absurd hne (by decide)
  ⟨(readsBack_toChars hwrites).text, (readsBack_toChars hwrites).value⟩

namespace BrowserParams

variable {dumpFloat : Double → Bytes} {p : BrowserParams}

theorem ordered_toJson (p : BrowserParams) : Assoc.Ordered (Assoc.insertAll p.members []) :=
  Assoc.ordered_nil.insertAll

theorem readable_toJson (hfloat : ReadsBack atof dumpFloat p.zoom) :
    Json.Every (Json.Readable atof dumpFloat) p.toJson := by
  refine Json.readable_object (ordered_toJson p) fun e he => ?_
  rcases Assoc.mem_insertAll he with he | he
  · simp only [members, List.mem_cons, List.not_mem_nil, or_false] at he
    rcases he with rfl | rfl | rfl | rfl | rfl | rfl | rfl | rfl | rfl | rfl | rfl | rfl | rfl | rfl | rfl | rfl | rfl
    all_goals
      refine Json.readable_leaf rfl rfl ?_
      rintro x ⟨⟩
    exact hfloat
  · cases he

theorem parseText_toJson {s : Bytes} (hfloat : ReadsBack atof dumpFloat p.zoom) (h : p.toJson.dump dumpFloat = some s) :
    parseText s = some p.toJson.parsed :=
  parseText_dump h (readable_toJson hfloat)

end BrowserParams

/-- What arrives is a C string that decodes to `c`, whatever lies behind it. -/
structure Carries (parse : Bytes → Option Json) (buf : Bytes) (c : Command) : Prop where
  terminated : (0 : UInt8) ∈ buf
  decoded : ∀ beyond, ∃ input, handleCustomMsg parse (buf ++ beyond) = some input ∧
    readCommand input = .ok c

section
variable {dumpFloat : Double → Bytes} {parse : Bytes → Option Json} {input : Json} {s : Bytes}

theorem copyData_eq (hs : input.dump dumpFloat = some s) (h0 : (0 : UInt8) ∉ s) :
    copyData dumpFloat input = some ((s ++ [0]).take (min s.length 4096 + 1)) := by
  rw [copyData, hs, Option.map_some]
  simp only [strnlen, cString_append_nul h0 []]

theorem copyData_short (hs : input.dump dumpFloat = some s) (h0 : (0 : UInt8) ∉ s)
    (hlen : s.length ≤ 4096) : copyData dumpFloat input = some (s ++ [0]) := by
  have hmin : min s.length 4096 + 1 = (s ++ [0]).length := by
    rw [List.length_append, List.length_singleton]
    omega
  rw [copyData_eq hs h0, hmin, List.take_length]

/-- A longer text is cut off before its NUL. -/
theorem copyData_long (hs : input.dump dumpFloat = some s) (h0 : (0 : UInt8) ∉ s)
    (hlen : 4096 < s.length) : ∃ buf, copyData dumpFloat input = some buf ∧ (0 : UInt8) ∉ buf := by
  refine ⟨_, copyData_eq hs h0, ?_⟩
  rw [List.take_append_of_le_length (by omega)]
  intro h
  exact h0 (List.mem_of_mem_take h)

theorem carries_of_parse {c : Command} (h0 : (0 : UInt8) ∉ s) (hparse : parse s = some input)
    (hdec : Decodes input c) : Carries parse (s ++ [0]) c where
  terminated := by simp
  decoded beyond := by
    refine ⟨input, handleCustomMsg_eq_some_iff.2 ⟨?_, _, hdec.cmd⟩, readCommand_eq_ok_iff.2 hdec⟩
    rw [List.append_assoc, List.singleton_append, cString_append_nul h0, hparse]

end

namespace BrowserParams

variable {dumpFloat : Double → Bytes} {parse : Bytes → Option Json} {p : BrowserParams}

variable (dumpFloat p) in
/-- The text of strings that are valid UTF-8 and a finite zoom. -/
theorem exists_dump_toJson (hs : ∀ s ∈ p.strings, utf8 s = true) (hz : p.zoom.isFinite = true)
    (hfloat : ∀ x, (0 : UInt8) ∉ dumpFloat x) : ∃ s, p.toJson.dump dumpFloat = some s ∧
      (0 : UInt8) ∉ s ∧ s.length = p.textLength dumpFloat := by
  have hsome : (p.toJson.dump dumpFloat).isSome = true := by
    rw [Json.isSome_dump, dumps_toJson hs]
  obtain ⟨s, hdump⟩ := Option.isSome_iff_exists.1 hsome
  refine ⟨s, hdump, Json.zero_notMem_dump hfloat _ _ hdump, ?_⟩
  rw [Json.length_dump _ _ hdump, dumpLength_toJson dumpFloat hz]

variable (dumpFloat p) in
/-- A message that arrives. -/
theorem exists_message (hs : ∀ s ∈ p.strings, utf8 s = true) (hz : p.zoom.isFinite = true)
    (hfloat : ∀ x, (0 : UInt8) ∉ dumpFloat x) (hread : ReadsBack atof dumpFloat p.zoom) :
    ∃ s, p.toJson.dump dumpFloat = some s ∧
      handleCustomMsg parseText (s ++ [0]) = some p.toJson.parsed := by
  obtain ⟨s, hdump, h0, -⟩ := exists_dump_toJson dumpFloat p hs hz hfloat
  refine ⟨s, hdump, handleCustomMsg_eq_some_iff.2 ⟨?_, _, (decodes_toJson hz).cmd⟩⟩
  rw [cString_append_nul h0]
  exact parseText_toJson hread hdump

/-- A Quit is such a message. -/
theorem exists_quit_message :
    let p : BrowserParams := { cmd := lit "Quit", id := lit "main" }
    let dumpFloat : Double → Bytes := fun _ => lit "0.0"
    ∃ s, p.toJson.dump dumpFloat = some s ∧ handleCustomMsg parseText (s ++ [0]) = some p.toJson.parsed :=
  exists_message _ _ (by decide +kernel) (by decide) (fun _ => by decide) readsBack_zero

variable (parse) in
theorem copyData_toJson_long (hs : ∀ s ∈ p.strings, utf8 s = true) (hz : p.zoom.isFinite = true)
    (hfloat : ∀ x, (0 : UInt8) ∉ dumpFloat x) (hlen : 4096 < p.textLength dumpFloat) :
    ∃ buf, copyData dumpFloat p.toJson = some buf ∧ ¬ Carries parse buf p.command := by
  obtain ⟨s, hdump, h0, hl⟩ := exists_dump_toJson dumpFloat p hs hz hfloat
  obtain ⟨buf, hbuf, hno⟩ := copyData_long hdump h0 (by omega)
  exact ⟨buf, hbuf, fun h => hno h.terminated⟩

/-- The command arrives whole exactly if its text has at most 4096 bytes. -/
theorem copyData_carries_iff (hs : ∀ s ∈ p.strings, utf8 s = true) (hz : p.zoom.isFinite = true)
    (hfloat : ∀ x, (0 : UInt8) ∉ dumpFloat x)
    (hparse : ∀ s, p.toJson.dump dumpFloat = some s → parse s = some p.toJson.parsed) :
    ∃ buf, copyData dumpFloat p.toJson = some buf ∧
      (Carries parse buf p.command ↔ p.textLength dumpFloat ≤ 4096) := by
  obtain ⟨s, hdump, h0, hl⟩ := exists_dump_toJson dumpFloat p hs hz hfloat
  rcases Nat.lt_or_ge 4096 (p.textLength dumpFloat) with hlong | hshort
  · obtain ⟨buf, hbuf, hno⟩ := copyData_toJson_long parse hs hz hfloat hlong
    exact ⟨buf, hbuf, iff_of_false hno (by omega)⟩
  · refine ⟨s ++ [0], copyData_short hdump h0 (by omega), iff_of_true ?_ hshort⟩
    exact carries_of_parse h0 (hparse s hdump) (decodes_toJson hz)

theorem copyData_carries_iff_show :
    let p : BrowserParams := { cmd := lit "Show", id := lit "main", url := lit "a\"b" }
    let dumpFloat : Double → Bytes := fun _ => lit "0.0"
    ∃ buf, copyData dumpFloat p.toJson = some buf ∧ Carries parseText buf p.command := by
  intro p dumpFloat
  have hs : ∀ s ∈ p.strings, utf8 s = true := by decide +kernel
  have hfloat : ∀ x, (0 : UInt8) ∉ dumpFloat x := fun _ => by decide
  have hparse : ∀ s, p.toJson.dump dumpFloat = some s → parseText s = some p.toJson.parsed :=
    fun s hdump => parseText_toJson readsBack_zero hdump
  obtain ⟨buf, hbuf, h⟩ := copyData_carries_iff hs (by decide) hfloat hparse
  exact ⟨buf, hbuf, h.2 (by decide +kernel)⟩

/-- A URL of 4096 letters. -/
theorem copyData_long_url : ¬ ∀ (p : BrowserParams) (dumpFloat : Double → Bytes)
    (parse : Bytes → Option Json), (∀ s ∈ p.strings, utf8 s = true) → p.zoom.isFinite = true →
    (∀ x, (0 : UInt8) ∉ dumpFloat x) →
    (∀ s, p.toJson.dump dumpFloat = some s → parse s = some p.toJson.parsed) →
    ∃ buf, copyData dumpFloat p.toJson = some buf ∧ Carries parse buf p.command := by
  intro h
  let p : BrowserParams := { cmd := lit "Open", url := List.replicate 4096 97 }
  have hurl : utf8 p.url = true := by
    have hfold : ∀ n, (List.replicate n (97 : UInt8)).foldl utf8Decode 0 = 0 := by
      intro n
      induction n with
      | zero => rfl
      | succ n ih => rw [List.replicate_succ, List.foldl_cons]; exact ih
    rw [utf8, hfold]
    rfl
  have hs : ∀ s ∈ p.strings, utf8 s = true := by
    rintro s (_ | ⟨_, hmem⟩)
    · decide
    · rcases List.mem_append.1 (show s ∈ List.replicate 7 [] ++ [p.url] from hmem) with hmem | hmem
      · rw [List.eq_of_mem_replicate hmem]; rfl
      · rw [List.mem_singleton.1 hmem]; exact hurl
  have hlen : 4096 < p.textLength fun _ => lit "0.0" := by
    have hesc : escapedLength p.url = 4096 := by
      have hone : (escape 97).length = 1 := by decide
      rw [escapedLength, List.map_replicate, hone, List.sum_replicate_nat]
    have hmem : escapedLength p.url ∈ p.strings.map escapedLength :=
      List.mem_map_of_mem (by simp [strings])
    have := List.single_le_sum (fun _ _ => Nat.zero_le _) _ hmem
    rw [textLength]
    omega
  obtain ⟨buf, hbuf, hc⟩ := h p (fun _ => lit "0.0") parseText hs (by decide) (fun _ => by decide)
    fun _ hdump => parseText_toJson readsBack_zero hdump
  obtain ⟨buf', hbuf', hno⟩ := copyData_toJson_long parseText hs (by decide) (fun _ => by decide) hlen
  rw [hbuf] at hbuf'
  cases hbuf'
  exact hno hc

end BrowserParams

end NplBrowser
