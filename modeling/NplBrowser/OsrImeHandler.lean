import Mathlib.Tactic.Ring
import NplBrowser.Lib.MachineInt
import NplBrowser.Lib.Tiling

/-!
# The composition of an input method (`osr_ime_handler_win.cc`)

`ImmGetCompositionString` answers with the size of what it has, in bytes, or with a negative error
code. `GetCompositionSelectionRange` and `GetString` look at the sign first. `GetCompositionUnderlines`
divides the answer by the size of a clause boundary, which makes of any error code a negative number of
them, and `std::vector` throws.

The program is the 64-bit one. The system is asked twice for the same data; it answers the same.
-/

namespace NplBrowser

/-- `CefRange`. -/
structure CefRange where
  «from» : Int32
  «to» : Int32
deriving DecidableEq

/-- `CefCompositionUnderline`. -/
structure CompositionUnderline where
  range : CefRange
  color : UInt32
  backgroundColor : UInt32
  thick : Bool
deriving DecidableEq

/-- An answer of `ImmGetCompositionString`: what it puts into a buffer, whose size in bytes it returns,
or an error code. -/
inductive ImmAnswer (α : Type) (width : Nat)
  | data (items : List α) (fits : width * items.length < 2 ^ 31)
  | error (code : Int32) (negative : code < 0)

/-- An input context, as far as it is asked. -/
structure ImmContext where
  compStr : ImmAnswer UInt16 2
  resultStr : ImmAnswer UInt16 2
  compAttr : ImmAnswer UInt8 1
  compClause : ImmAnswer UInt32 4
  cursorPos : Int32

namespace ImmAnswer

variable {α : Type} {width : Nat}

/-- The value returned. -/
def size : ImmAnswer α width → Int32
  | data items _ => .ofNat (width * items.length)
  | error code _ => code

def items : ImmAnswer α width → List α
  | data items _ => items
  | error _ _ => []

def isError : ImmAnswer α width → Bool
  | data _ _ => false
  | error _ _ => true

end ImmAnswer

def GCS_COMPSTR : UInt64 := 0x0008
def GCS_COMPATTR : UInt64 := 0x0010
def GCS_COMPCLAUSE : UInt64 := 0x0020
def GCS_CURSORPOS : UInt64 := 0x0080
def GCS_RESULTSTR : UInt64 := 0x0800
def CS_NOMOVECARET : UInt64 := 0x4000

def ATTR_TARGET_CONVERTED : UInt8 := 0x01
def ATTR_TARGET_NOTCONVERTED : UInt8 := 0x03

def ColorUNDERLINE : UInt32 := 0xFF000000
def ColorBKCOLOR : UInt32 := 0x00000000

/-- A message's `lparam` has a flag. -/
def hasFlag (lparam flag : UInt64) : Bool := lparam &&& flag != 0

/-- A text that is read from the system, which gives its size in bytes as a `LONG`. -/
abbrev CompositionText := { text : List UInt16 // 2 * text.length < 2 ^ 31 }

namespace OsrImeHandler

/-- `GetString`. The buffer is read up to the first NUL. -/
def getString (lparam flag : UInt64) (answer : ImmAnswer UInt16 2) : Option CompositionText :=
  if hasFlag lparam flag then
    match answer with
    | .data items fits =>
      if items = [] then none
      else some ⟨items.takeWhile (· ≠ 0), by
        have := (List.takeWhile_prefix (· ≠ (0 : UInt16)) (l := items)).length_le
        omega⟩
    | .error _ _ => none
  else none

def isSelectionAttribute (a : UInt8) : Bool :=
  a == ATTR_TARGET_CONVERTED || a == ATTR_TARGET_NOTCONVERTED

/-- The first index from `i` on where `p` holds; the size if there is none. -/
def scan (p : UInt8 → Bool) (data : List UInt8) (i : Nat) : Nat :=
  if h : i < data.length then if p data[i] then i else scan p data (i + 1) else i
termination_by data.length - i

/-- `GetCompositionSelectionRange`; `none`: the range is left as it is. -/
def getCompositionSelectionRange (imc : ImmContext) : Option (Int32 × Int32) :=
  if 0 < imc.compAttr.size then
    let attributeData := imc.compAttr.items
    let start := scan isSelectionAttribute attributeData 0
    let stop := scan (fun a => !isSelectionAttribute a) attributeData start
    some (.ofNat start, .ofNat stop)
  else none

def underline (range : CefRange) (thick : Bool) : CompositionUnderline where
  range := range
  color := ColorUNDERLINE
  backgroundColor := ColorBKCOLOR
  thick := thick

/-- The loop over the clauses. -/
def clauseUnderlines (targetStart targetEnd : Int32) : List UInt32 → List CompositionUnderline
  | a :: b :: clauseData =>
    let range : CefRange := ⟨a.toInt32, b.toInt32⟩
    underline range (decide (targetStart ≤ range.«from» ∧ range.«to» ≤ targetEnd)) ::
      clauseUnderlines targetStart targetEnd (b :: clauseData)
  | _ => []

/-- An `int` as a `size_t`. -/
def sizeT (i : Int32) : UInt64 := i.toInt64.toUInt64

/-- `clause_size / sizeof(uint32)`: the quotient is a `size_t`, and it becomes an `int` again. -/
def clauseLength (imc : ImmContext) : Int32 := (sizeT imc.compClause.size / 4).toUInt32.toInt32

/-- `max_size()` of a `std::vector<uint32>`. -/
def vectorMaxSize : UInt64 := 0x3FFFFFFFFFFFFFFF

/-- `none`: `std::vector` throws `length_error`. -/
def getCompositionUnderlines (imc : ImmContext) (targetStart targetEnd : Int32) :
    Option (List CompositionUnderline) :=
  if clauseLength imc ≠ 0 then
    if vectorMaxSize < sizeT (clauseLength imc) then none
    else some (clauseUnderlines targetStart targetEnd imc.compClause.items)
  else some []

/-- An underline from `a` to `b`, if there is anything between them. -/
def rangeUnderline (a b : Int32) (thick : Bool) : List CompositionUnderline :=
  if a < b then [underline ⟨a, b⟩ thick] else []

/-- The underlines without clause information. -/
def defaultUnderlines (targetStart targetEnd length : Int32) : List CompositionUnderline :=
  rangeUnderline 0 targetStart false ++ rangeUnderline targetStart targetEnd true ++
    rangeUnderline targetEnd length false

/-- `target_start` and `target_end`. -/
def targetRange (imc : ImmContext) (lparam : UInt64) (length : Int32) : Int32 × Int32 :=
  if hasFlag lparam GCS_COMPATTR then (getCompositionSelectionRange imc).getD (length, length)
  else (length, length)

/-- `composition_start`. -/
def compositionStart (imc : ImmContext) (lparam : UInt64) : Int32 :=
  if !hasFlag lparam CS_NOMOVECARET && hasFlag lparam GCS_CURSORPOS then imc.cursorPos else 0

/-- `GetCompositionInfo`: the underlines and `composition_start`. -/
def getCompositionInfo (imc : ImmContext) (lparam : UInt64) (text : CompositionText) :
    Option (List CompositionUnderline × Int32) :=
  let length : Int32 := .ofNat text.val.length
  let target := targetRange imc lparam length
  let underlines :=
    if hasFlag lparam GCS_COMPCLAUSE then getCompositionUnderlines imc target.1 target.2 else some []
  underlines.map fun underlines =>
    (if underlines = [] then defaultUnderlines target.1 target.2 length else underlines,
      compositionStart imc lparam)

/-! ## The selection -/

def Selected (data : List UInt8) (i : Nat) : Prop := ∃ a, data[i]? = some a ∧ isSelectionAttribute a = true

/-- `i` is in the first maximal run of selection attributes. -/
def FirstRun (data : List UInt8) (i : Nat) : Prop :=
  Selected data i ∧ ∀ j < i, Selected data j ∨ ∀ k ≤ j, ¬ Selected data k

variable {data : List UInt8} {p : UInt8 → Bool} {i j : Nat}

/-- By induction on what has not been looked at. -/
theorem scan_spec (p : UInt8 → Bool) (hi : i ≤ data.length) :
    i ≤ scan p data i ∧ scan p data i ≤ data.length ∧
      (∀ j, i ≤ j → j < scan p data i → ∀ a, data[j]? = some a → p a = false) ∧
      (scan p data i < data.length → ∃ a, data[scan p data i]? = some a ∧ p a = true) := by
  fun_induction scan p data i with
  | case1 i hlt hp => exact ⟨le_rfl, hi, fun j hij hji => by omega, fun _ => ⟨data[i], by simp [hlt], hp⟩⟩
  | case2 i hlt hp ih =>
    obtain ⟨hle, hlen, hbefore, hat⟩ := ih hlt
    refine ⟨by omega, hlen, fun j hij hji a ha => ?_, hat⟩
    rcases Nat.eq_or_lt_of_le hij with rfl | hij
    · rw [List.getElem?_eq_getElem hlt, Option.some.injEq] at ha
      simpa [ha] using hp
    · exact hbefore j hij hji a ha
  | case3 i hge => exact ⟨le_rfl, hi, fun j hij hji => by omega, fun hlt => absurd hlt hge⟩

/-- The first run begins where nothing is selected before, and ends where something is not. -/
theorem firstRun_iff_of {start stop : Nat} (hle : start ≤ stop)
    (hbefore : ∀ k < start, ¬ Selected data k) (hwithin : ∀ k, start ≤ k → k < stop → Selected data k)
    (hstart : start < data.length → Selected data start) (hend : ¬ Selected data stop) (i : Nat) :
    FirstRun data i ↔ start ≤ i ∧ i < stop := by
  constructor
  · rintro ⟨hi, hrun⟩
    have hstarti : start ≤ i := by
      by_contra hlt
      exact hbefore i (by omega) hi
    refine ⟨hstarti, ?_⟩
    by_contra hge
    have hilt : i < data.length := by
      obtain ⟨a, ha, -⟩ := hi
      exact (List.getElem?_eq_some_iff.1 ha).1
    rcases Nat.eq_or_lt_of_le (Nat.not_lt.1 hge) with heq | hlt
    · exact hend (heq ▸ hi)
    · -- what is not selected at the end has the start before it
      rcases hrun _ hlt with hsel | hnone
      · exact hend hsel
      · exact hnone _ hle (hstart (by omega))
  · rintro ⟨hsi, hie⟩
    refine ⟨hwithin i hsi hie, fun j hj => ?_⟩
    rcases Nat.lt_or_ge j start with hjs | hjs
    · exact .inr fun k hk => hbefore k (by omega)
    · exact .inl (hwithin j hjs (by omega))

/-- The two loops find the first run. -/
theorem firstRun_iff (data : List UInt8) : ∃ start stop,
    start = scan isSelectionAttribute data 0 ∧ stop = scan (fun a => !isSelectionAttribute a) data start ∧
      start ≤ stop ∧ stop ≤ data.length ∧ ∀ i, FirstRun data i ↔ start ≤ i ∧ i < stop := by
  obtain ⟨-, hstart, hbefore, hat⟩ := scan_spec isSelectionAttribute (Nat.zero_le data.length)
  obtain ⟨hle, hstop, hwithin, hend⟩ := scan_spec (fun a => !isSelectionAttribute a) hstart
  refine ⟨_, _, rfl, rfl, hle, hstop, firstRun_iff_of hle ?_ ?_ hat ?_⟩
  · rintro k hk ⟨a, ha, hsel⟩
    rw [hbefore k (Nat.zero_le _) hk a ha] at hsel
    cases hsel
  · intro k hk hk'
    have hlt : k < data.length := by omega
    refine ⟨data[k], List.getElem?_eq_getElem hlt, ?_⟩
    simpa using hwithin k hk hk' _ (List.getElem?_eq_getElem hlt)
  · rintro ⟨b, hb, hsel⟩
    obtain ⟨a, ha, hnot⟩ := hend (List.getElem?_eq_some_iff.1 hb).1
    rw [ha, Option.some.injEq] at hb
    subst hb
    simp [hsel] at hnot

/-- The attributes that are asked for. -/
def attributes (imc : ImmContext) (lparam : UInt64) : List UInt8 :=
  if hasFlag lparam GCS_COMPATTR then imc.compAttr.items else []

/-- The clause boundaries that are asked for. -/
def clauses (imc : ImmContext) (lparam : UInt64) : List UInt32 :=
  if hasFlag lparam GCS_COMPCLAUSE then imc.compClause.items else []

variable {imc : ImmContext} {lparam : UInt64} {text : CompositionText}

theorem toInt_natCast {n : Nat} (h : n < 2 ^ 31) : (Int32.ofNat n).toInt = n := Int32.toInt_ofNat_of_lt h

theorem not_firstRun_nil (i : Nat) : ¬ FirstRun [] i := by
  rintro ⟨⟨a, ha, -⟩, -⟩
  simp at ha

theorem size_compAttr_pos : 0 < imc.compAttr.size ↔ imc.compAttr.items ≠ [] := by
  cases hattr : imc.compAttr with
  | data items fits =>
    have hsize := toInt_natCast fits
    have hzero : (0 : Int32).toInt = 0 := rfl
    rw [ImmAnswer.size, ImmAnswer.items, Int32.lt_iff_toInt_lt, hsize, ← List.length_pos_iff]
    omega
  | error code negative =>
    have hcode := Int32.lt_iff_toInt_lt.1 negative
    simp only [ImmAnswer.size, ImmAnswer.items, Int32.lt_iff_toInt_lt]
    constructor
    · intro h
      omega
    · exact fun h => absurd rfl h

/-- The target is the first run, and the end of the text if there is none. -/
theorem targetRange_eq (hattr : imc.compAttr.items = [] ∨ imc.compAttr.items.length = text.val.length) :
    ∃ start stop, targetRange imc lparam (.ofNat text.val.length) = (.ofNat start, .ofNat stop) ∧
      start ≤ stop ∧ stop ≤ text.val.length ∧
      ∀ i, FirstRun (attributes imc lparam) i ↔ start ≤ i ∧ i < stop := by
  have hnone : attributes imc lparam = [] → ∀ i, FirstRun (attributes imc lparam) i ↔
      text.val.length ≤ i ∧ i < text.val.length := by
    intro hnil i
    rw [hnil]
    exact iff_of_false (not_firstRun_nil i) (by omega)
  unfold targetRange
  split <;> rename_i hflag
  · have hattributes : attributes imc lparam = imc.compAttr.items := if_pos hflag
    unfold getCompositionSelectionRange
    split <;> rename_i hsize
    · obtain ⟨start, stop, rfl, rfl, hle, hstop, hrun⟩ := firstRun_iff imc.compAttr.items
      have hlength := hattr.resolve_left (size_compAttr_pos.1 hsize)
      exact ⟨_, _, rfl, hle, hlength ▸ hstop, hattributes ▸ hrun⟩
    · refine ⟨_, _, rfl, le_rfl, le_rfl, hnone ?_⟩
      rw [hattributes]
      exact not_not.1 (size_compAttr_pos.not.1 hsize)
  · exact ⟨_, _, rfl, le_rfl, le_rfl, hnone (if_neg hflag)⟩

/-! ## The underlines -/

def bounds (u : CompositionUnderline) : Int × Int := (u.range.«from».toInt, u.range.«to».toInt)

theorem bounds_rangeUnderline (a b : Int32) (thick : Bool) :
    (rangeUnderline a b thick).map bounds = Tiling.between a.toInt b.toInt := by
  unfold rangeUnderline Tiling.between
  simp only [Int32.lt_iff_toInt_lt]
  split <;> rfl

theorem mem_rangeUnderline {a b : Int32} {thick : Bool} {u : CompositionUnderline} :
    u ∈ rangeUnderline a b thick ↔ a < b ∧ u = underline ⟨a, b⟩ thick := by
  unfold rangeUnderline
  split <;> rename_i h <;> simp [h]

theorem tiles_defaultUnderlines {start stop length : Nat} (hle : start ≤ stop) (hstop : stop ≤ length)
    (hlength : length < 2 ^ 31) : Tiling.Tiles (0 : Int) length
      ((defaultUnderlines (.ofNat start) (.ofNat stop) (.ofNat length)).map bounds) := by
  have hzero : (0 : Int32).toInt = 0 := rfl
  unfold defaultUnderlines
  rw [List.map_append, List.map_append, bounds_rangeUnderline, bounds_rangeUnderline, bounds_rangeUnderline,
    toInt_natCast hlength, toInt_natCast (by omega), toInt_natCast (by omega), hzero]
  exact ((Tiling.tiles_between (by omega)).append (Tiling.tiles_between (by omega))).append
    (Tiling.tiles_between (by omega))

/-- Just the target is thick. -/
theorem thick_defaultUnderlines {start stop length : Nat} (hle : start ≤ stop) (hstop : stop ≤ length)
    (hlength : length < 2 ^ 31) (i : Nat) : (start ≤ i ∧ i < stop) ↔
      ∃ u ∈ defaultUnderlines (.ofNat start) (.ofNat stop) (.ofNat length),
        u.thick = true ∧ (bounds u).1 ≤ i ∧ i < (bounds u).2 := by
  have hstart' := toInt_natCast (show start < 2 ^ 31 by omega)
  have hstop' := toInt_natCast (show stop < 2 ^ 31 by omega)
  unfold defaultUnderlines
  simp only [List.mem_append, mem_rangeUnderline]
  constructor
  · rintro ⟨hi, hi'⟩
    refine ⟨underline ⟨.ofNat start, .ofNat stop⟩ true, .inl (.inr ⟨?_, rfl⟩), rfl, ?_, ?_⟩
    · rw [Int32.lt_iff_toInt_lt]
      omega
    · show (Int32.ofNat start).toInt ≤ i
      omega
    · show (i : Int) < (Int32.ofNat stop).toInt
      omega
  · rintro ⟨u, (⟨-, rfl⟩ | ⟨-, rfl⟩) | ⟨-, rfl⟩, hthick, hi, hi'⟩
    · cases hthick
    · change (Int32.ofNat start).toInt ≤ i at hi
      change (i : Int) < (Int32.ofNat stop).toInt at hi'
      omega
    · cases hthick

/-- Increasing boundaries, from the start of the text to its end. -/
structure Boundaries (length : Nat) (clauses : List UInt32) : Prop where
  head : clauses.head? = some 0
  last : ∀ h : clauses ≠ [], (clauses.getLast h).toNat = length
  increasing : clauses.IsChain (· < ·)

def boundary (b : UInt32) : Int := b.toNat

theorem toInt_toInt32 {b : UInt32} (h : b.toNat < 2 ^ 31) : b.toInt32.toInt = boundary b := by
  rw [boundary]
  exact MachineInt.toInt_toInt32_iff.2 h

theorem bounds_clauseUnderlines (targetStart targetEnd : Int32) {clauses : List UInt32}
    (hlt : ∀ b ∈ clauses, b.toNat < 2 ^ 31) :
    (clauseUnderlines targetStart targetEnd clauses).map bounds = Tiling.consecutive (clauses.map boundary) := by
  induction clauses with
  | nil => rfl
  | cons a clauses ih =>
    cases clauses with
    | nil => rfl
    | cons b clauses =>
      rw [clauseUnderlines, List.map_cons, ih fun c hc => hlt c (.tail _ hc)]
      show (a.toInt32.toInt, b.toInt32.toInt) :: _ = _
      rw [toInt_toInt32 (hlt a (.head _)), toInt_toInt32 (hlt b (.tail _ (.head _)))]
      rfl

theorem thick_clauseUnderlines {targetStart targetEnd : Int32} {clauses : List UInt32} :
    ∀ u ∈ clauseUnderlines targetStart targetEnd clauses,
      u.thick = true ↔ targetStart.toInt ≤ (bounds u).1 ∧ (bounds u).2 ≤ targetEnd.toInt := by
  induction clauses with
  | nil => exact nofun
  | cons a clauses ih =>
    cases clauses with
    | nil => exact nofun
    | cons b clauses =>
      intro u hu
      rcases List.mem_cons.1 hu with rfl | hu
      · exact decide_eq_true_iff.trans (and_congr Int32.le_iff_toInt_le Int32.le_iff_toInt_le)
      · exact ih u hu

/-! ## Error codes as sizes -/

theorem toNat_sizeT (i : Int32) : ((sizeT i).toNat : Int) = i.toInt % 2 ^ 64 := by
  have h : i.toInt64.toInt = ((sizeT i).toNat : Int).bmod (2 ^ 64) := BitVec.toInt_eq_toNat_bmod _
  have hlt := (sizeT i).toNat_lt
  rw [← Int32.toInt_toInt64 i, h, Int.bmod_def]
  split <;> omega

theorem toInt_clauseLength (imc : ImmContext) :
    (clauseLength imc).toInt = (imc.compClause.size.toInt % 2 ^ 64 / 4).bmod (2 ^ 32) := by
  have h : (clauseLength imc).toInt = ((sizeT imc.compClause.size / 4).toUInt32.toNat : Int).bmod (2 ^ 32) :=
    MachineInt.toInt_toInt32 _
  rw [h, UInt64.toNat_toUInt32, UInt64.toNat_div, Int.natCast_emod, Nat.cast_pow, Nat.cast_ofNat,
    Int.natCast_ediv, toNat_sizeT]
  exact Int.emod_bmod _ (2 ^ 32)

theorem toNat_vectorMaxSize : vectorMaxSize.toNat = 2 ^ 62 - 1 := rfl

/-- The size is four times the number of boundaries. -/
theorem getCompositionUnderlines_data {items : List UInt32} {fits : 4 * items.length < 2 ^ 31}
    (hclause : imc.compClause = .data items fits) (targetStart targetEnd : Int32) :
    getCompositionUnderlines imc targetStart targetEnd = some (clauseUnderlines targetStart targetEnd items) := by
  have hlength : (clauseLength imc).toInt = items.length := by
    rw [toInt_clauseLength, hclause, ImmAnswer.size, toInt_natCast fits, Int.bmod_def]
    split <;> omega
  have hsize := toNat_sizeT (clauseLength imc)
  have hmax : ¬ vectorMaxSize < sizeT (clauseLength imc) := by
    rw [UInt64.lt_iff_toNat_lt, toNat_vectorMaxSize]
    omega
  unfold getCompositionUnderlines
  by_cases hne : clauseLength imc ≠ 0
  · rw [if_pos hne, if_neg hmax, hclause, ImmAnswer.items]
  · rw [if_neg hne]
    have hnil : items = [] := by
      rw [not_not.1 hne] at hlength
      exact List.length_eq_zero_iff.1 (Int.natCast_eq_zero.1 hlength.symm)
    rw [hnil]
    rfl

/-- A quarter of a `size_t` that was negative is negative as an `int`. -/
theorem getCompositionUnderlines_error {code : Int32} {negative : code < 0}
    (hclause : imc.compClause = .error code negative) (targetStart targetEnd : Int32) :
    getCompositionUnderlines imc targetStart targetEnd = none := by
  have hcode : code.toInt < 0 := Int32.lt_iff_toInt_lt.1 negative
  have hmin := code.le_toInt
  have hlength : -2 ^ 29 ≤ (clauseLength imc).toInt ∧ (clauseLength imc).toInt < 0 := by
    rw [toInt_clauseLength, hclause, ImmAnswer.size, Int.bmod_def]
    split <;> omega
  have hne : clauseLength imc ≠ 0 := by
    intro h
    rw [h] at hlength
    exact absurd hlength.2 (by decide)
  have hmax : vectorMaxSize < sizeT (clauseLength imc) := by
    have hsize := toNat_sizeT (clauseLength imc)
    rw [UInt64.lt_iff_toNat_lt, toNat_vectorMaxSize]
    omega
  unfold getCompositionUnderlines
  rw [if_pos hne, if_pos hmax]

/-! ## What is underlined -/

/-- The underlines partition the text. With clause data they are the clauses, and those in the first run
are thick; without it the first run is. -/
structure Underlined (length : Nat) (attributes : List UInt8) (clauses : List UInt32)
    (us : List CompositionUnderline) : Prop where
  partition : Tiling.Partition (0 : Int) length (us.map bounds)
  byClause : clauses ≠ [] → us.map bounds = Tiling.consecutive (clauses.map boundary) ∧
    ∀ u ∈ us, u.thick = true ↔
      ∀ i : Nat, (bounds u).1 ≤ i → i < (bounds u).2 → FirstRun attributes i
  byRun : clauses = [] → ∀ i : Nat, FirstRun attributes i ↔
    ∃ u ∈ us, u.thick = true ∧ (bounds u).1 ≤ i ∧ i < (bounds u).2

theorem underlined_default {start stop length : Nat} {attributes : List UInt8}
    (hle : start ≤ stop) (hstop : stop ≤ length) (hlength : length < 2 ^ 31)
    (hrun : ∀ i, FirstRun attributes i ↔ start ≤ i ∧ i < stop) : Underlined length attributes []
      (defaultUnderlines (.ofNat start) (.ofNat stop) (.ofNat length)) := by
  refine ⟨(tiles_defaultUnderlines hle hstop hlength).partition, fun h => absurd rfl h, fun _ i => ?_⟩
  rw [hrun]
  exact thick_defaultUnderlines hle hstop hlength i

theorem isChain_boundary {clauses : List UInt32} (h : clauses.IsChain (· < ·)) :
    (clauses.map boundary).IsChain (· < ·) := by
  rw [List.isChain_map]
  exact h.imp fun a b hab => Int.ofNat_lt.2 (UInt32.lt_iff_toNat_lt.1 hab)

theorem Boundaries.tiles {length : Nat} {clauses : List UInt32} (h : Boundaries length clauses) :
    Tiling.Tiles (0 : Int) length (Tiling.consecutive (clauses.map boundary)) := by
  obtain ⟨hhead, hlast, hincreasing⟩ := h
  cases clauses with
  | nil => cases hhead
  | cons b clauses =>
    obtain rfl : b = 0 := Option.some.inj hhead
    have htiles := Tiling.tiles_consecutive (isChain_boundary hincreasing)
    have hend : (boundary 0 :: clauses.map boundary).getLast (by simp) = length := by
      show ((0 :: clauses).map boundary).getLast (by simp) = _
      rw [List.getLast_map, boundary, hlast (by simp)]
    rwa [hend] at htiles

/-- No boundary is behind the last one. -/
theorem Boundaries.lt {length : Nat} {clauses : List UInt32} (h : Boundaries length clauses)
    (hlength : length < 2 ^ 31) : ∀ b ∈ clauses, b.toNat < 2 ^ 31 := by
  intro b hb
  have hne : clauses ≠ [] := List.ne_nil_of_mem hb
  have hlast := h.last hne
  have hpairwise := h.increasing.pairwise
  rw [← List.dropLast_append_getLast hne] at hb hpairwise
  rcases List.mem_append.1 hb with hb | hb
  · have hlt := UInt32.lt_iff_toNat_lt.1 ((List.pairwise_append.1 hpairwise).2.2 b hb _ (.head _))
    omega
  · rw [List.mem_singleton.1 hb]
    omega

/-- A clause is thick just when it is within the run. -/
theorem underlined_clauses {start stop length : Nat} {attributes : List UInt8} {clauses : List UInt32}
    (hclauses : Boundaries length clauses) (hlength : length < 2 ^ 31) (hle : start ≤ stop)
    (hstop : stop ≤ length) (hrun : ∀ i, FirstRun attributes i ↔ start ≤ i ∧ i < stop) :
    Underlined length attributes clauses
      (clauseUnderlines (.ofNat start) (.ofNat stop) clauses) := by
  have hbounds := bounds_clauseUnderlines (.ofNat start) (.ofNat stop) (hclauses.lt hlength)
  have htiles := hclauses.tiles
  rw [← hbounds] at htiles
  refine ⟨htiles.partition, fun _ => ⟨hbounds, fun u hu => ?_⟩, ?_⟩
  · have hmem := List.mem_map_of_mem (f := bounds) hu
    have hnonneg := htiles.start_le _ hmem
    have hlt := htiles.partition.nonempty _ hmem
    rw [thick_clauseUnderlines u hu, toInt_natCast (by omega), toInt_natCast (by omega)]
    constructor
    · intro h i hi hi'
      rw [hrun]
      omega
    · intro h
      -- the first and the last character of the clause
      have hfirst := (hrun _).1 (h (bounds u).1.toNat (by omega) (by omega))
      have hlast := (hrun _).1 (h ((bounds u).2 - 1).toNat (by omega) (by omega))
      omega
  · rintro rfl
    cases hclauses.head

/-- Without a clause there is no text, and nothing is underlined by default. -/
theorem clauses_or_default {start stop length : Nat} {attributes : List UInt8} {clauses : List UInt32}
    (hle : start ≤ stop) (hstop : stop ≤ length) (h : Underlined length attributes clauses
      (clauseUnderlines (.ofNat start) (.ofNat stop) clauses)) :
    (if clauseUnderlines (.ofNat start) (.ofNat stop) clauses = [] then
        defaultUnderlines (.ofNat start) (.ofNat stop) (.ofNat length)
      else clauseUnderlines (.ofNat start) (.ofNat stop) clauses) =
      clauseUnderlines (.ofNat start) (.ofNat stop) clauses := by
  split <;> rename_i hnil
  · have hcovered := (h.partition.covered 0).not
    rw [hnil] at hcovered ⊢
    have hzero : length = 0 := by
      have := hcovered.2 nofun
      omega
    obtain rfl : stop = 0 := by omega
    obtain rfl : start = 0 := by omega
    rw [hzero]
    rfl
  · rfl

/-- For an attribute for each character or none, and for clauses that are boundaries of the text, or none,
or an error code, the call ends without an exception and underlines what it should, just when the
clauses are not asked for or the answer is not an error code. -/
theorem underlined_iff (imc : ImmContext) (lparam : UInt64) (text : CompositionText)
    (hattr : imc.compAttr.items = [] ∨ imc.compAttr.items.length = text.val.length)
    (hclause : imc.compClause.items = [] ∨ Boundaries text.val.length imc.compClause.items) :
    (∃ underlines compositionStart, getCompositionInfo imc lparam text = some (underlines, compositionStart) ∧
      Underlined text.val.length (attributes imc lparam) (clauses imc lparam) underlines) ↔
      (hasFlag lparam GCS_COMPCLAUSE = true → imc.compClause.isError = false) := by
  have hlength : text.val.length < 2 ^ 31 := by
    have := text.property
    omega
  obtain ⟨start, stop, htarget, hle, hstop, hrun⟩ := @targetRange_eq _ lparam _ hattr
  have hdefault := underlined_default hle hstop hlength hrun
  unfold getCompositionInfo clauses
  simp only [htarget]
  by_cases hflag : hasFlag lparam GCS_COMPCLAUSE = true
  · simp only [if_pos hflag]
    cases hanswer : imc.compClause with
    | error code negative =>
      rw [getCompositionUnderlines_error hanswer]
      simp [ImmAnswer.isError, hflag]
    | data items fits =>
      rw [getCompositionUnderlines_data hanswer, Option.map_some]
      refine iff_of_true ⟨_, _, rfl, ?_⟩ fun _ => rfl
      rw [hanswer] at hclause
      change items = [] ∨ Boundaries text.val.length items at hclause
      rcases hclause with rfl | hclause
      · exact hdefault
      · have hunderlined := underlined_clauses hclause hlength hle hstop hrun
        rwa [clauses_or_default hle hstop hunderlined]
  · simp only [if_neg hflag]
    exact iff_of_true ⟨_, _, rfl, hdefault⟩ fun h => absurd h hflag

/-- Three characters in two clauses, of which the second one is selected. -/
def twoClauses : ImmContext where
  compStr := .data [0x3042, 0x3044, 0x3046] (by decide)
  resultStr := .data [] (by decide)
  compAttr := .data [0, 1, 3] (by decide)
  compClause := .data [0, 1, 3] (by decide)
  cursorPos := 3

theorem underlined_iff_twoClauses : ∃ underlines compositionStart,
    getCompositionInfo twoClauses (GCS_COMPATTR ||| GCS_COMPCLAUSE) ⟨[0x3042, 0x3044, 0x3046], by decide⟩ =
      some (underlines, compositionStart) ∧ Underlined 3 [0, 1, 3] [0, 1, 3] underlines := by
  have hboundaries : Boundaries 3 [0, 1, 3] := ⟨rfl, fun _ => rfl, by decide⟩
  exact (underlined_iff twoClauses (GCS_COMPATTR ||| GCS_COMPCLAUSE) ⟨[0x3042, 0x3044, 0x3046], by decide⟩
    (.inr rfl) (.inr hboundaries)).2 fun _ => rfl

/-- The clauses are asked for, and the answer is `IMM_ERROR_NODATA`. -/
theorem not_underlined_error : ¬ ∃ underlines compositionStart,
    getCompositionInfo { twoClauses with compClause := .error (-1) (by decide) }
        (GCS_COMPATTR ||| GCS_COMPCLAUSE) ⟨[0x3042, 0x3044, 0x3046], by decide⟩ =
      some (underlines, compositionStart) ∧ Underlined 3 [0, 1, 3] [] underlines := by
  rintro ⟨underlines, compositionStart, hcall, -⟩
  have hnone : getCompositionInfo { twoClauses with compClause := .error (-1) (by decide) }
      (GCS_COMPATTR ||| GCS_COMPCLAUSE) ⟨[0x3042, 0x3044, 0x3046], by decide⟩ = none := by
    unfold getCompositionInfo
    dsimp only
    rw [if_pos (by decide), getCompositionUnderlines_error rfl, Option.map_none]
  rw [hnone] at hcall
  cases hcall

end OsrImeHandler
end NplBrowser
