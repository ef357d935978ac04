import Mathlib.Data.List.TakeWhile
import NplBrowser.Bytes
import NplBrowser.Lib.MachineInt
import NplBrowser.OsrRenderer

/-!
# The `--bounds` switch (`cefclient_win.cc`, `root_window_win.cc`)

`RunMain` splits the value at its commas and converts each field with `std::stoul`, which takes a number
that the field begins with, throws where there is none or it is too large, and negates without regard
to the sign of the result. A `long` has 32 bits. `RootWindowWin::Init` makes the window's edges of the
bounds.
-/

namespace NplBrowser
namespace BoundsSwitch

/-- The fields that `getline` with the delimiter ',' reads until it fails: there is none behind a comma
at the end. -/
def getlines : Bytes → List Bytes
  | [] => []
  | b :: s =>
    if b = 44 then [] :: getlines s
    else match getlines s with
      | [] => [[b]]
      | field :: fields => (b :: field) :: fields

/-- `std::stoul`. `none`: it throws `invalid_argument` or `out_of_range`. A NUL, where the C string ends, is
neither a blank nor a sign nor a digit. -/
def stoul (s : Bytes) : Option UInt32 :=
  let n := digitsValue 10 (digitsOf s)
  if digitsOf s = [] ∨ UInt32.size ≤ n then none
  else some (if isNegative s then 0 - n.toUInt32 else n.toUInt32)

/-- The bounds that the value of the switch sets, if it does. `none`: an exception is thrown. -/
def setBounds (value : Bytes) : Option (Option Rect) :=
  ((getlines value).mapM stoul).map fun rect =>
    match rect with
    | [x, y, width, height] => some ⟨x.toInt32, y.toInt32, width.toInt32, height.toInt32⟩
    | _ => none

/-- `RECT`. -/
structure WinRect where
  left : Int32
  top : Int32
  right : Int32
  bottom : Int32
deriving DecidableEq

/-- `start_rect_`, as `RootWindowWin::Init` sets it. A sum wraps around. -/
def startRect (bounds : Rect) : WinRect where
  left := bounds.x
  top := bounds.y
  right := bounds.x + bounds.width
  bottom := bounds.y + bounds.height

/-- The text of an integer in decimal. -/
inductive Decimal : Bytes → Int → Prop
  | nonneg {digits : Bytes} (hne : digits ≠ []) (hdigits : digits.all isDigit = true) :
      Decimal digits (digitsValue 10 digits)
  | neg {digits : Bytes} (hne : digits ≠ []) (hdigits : digits.all isDigit = true) :
      Decimal (45 :: digits) (-digitsValue 10 digits)

/-- The value is four integers, those of `r`, with commas between them. -/
def FourInts (value : Bytes) (r : Rect) : Prop :=
  ∃ x y width height, value = x ++ 44 :: (y ++ 44 :: (width ++ 44 :: height)) ∧ Decimal x r.x.toInt ∧
    Decimal y r.y.toInt ∧ Decimal width r.width.toInt ∧ Decimal height r.height.toInt

/-- No exception is thrown, and just four integers set the bounds, to themselves. -/
def ConfigRight (value : Bytes) : Prop :=
  ∃ set, setBounds value = some set ∧ ∀ r, set = some r ↔ FourInts value r

/-- The edges are where the bounds say. -/
def EdgesRight (r : Rect) : Prop :=
  (startRect r).left = r.x ∧ (startRect r).top = r.y ∧
    (startRect r).right.toInt = r.x.toInt + r.width.toInt ∧
    (startRect r).bottom.toInt = r.y.toInt + r.height.toInt

/-- A field begins with a number of at most 32 bits. -/
def Numeric (field : Bytes) : Prop :=
  digitsOf field ≠ [] ∧ digitsValue 10 (digitsOf field) < UInt32.size

/-- All fields are numbers, and four of them are nothing but integers. -/
def FieldsOk (value : Bytes) : Prop :=
  (∀ field ∈ getlines value, Numeric field) ∧ ((getlines value).length = 4 → ∃ r, FourInts value r)

/-- The edges are `int`s. -/
def EdgesFit (r : Rect) : Prop :=
  (-2 ^ 31 ≤ r.x.toInt + r.width.toInt ∧ r.x.toInt + r.width.toInt < 2 ^ 31) ∧
    -2 ^ 31 ≤ r.y.toInt + r.height.toInt ∧ r.y.toInt + r.height.toInt < 2 ^ 31

variable {value s s' field : Bytes} {r : Rect}

theorem getlines_append (hcomma : (44 : UInt8) ∉ s) : getlines (s ++ 44 :: s') = s :: getlines s' := by
  induction s with
  | nil => rw [List.nil_append, getlines, if_pos rfl]
  | cons b s ih =>
    rw [List.mem_cons, not_or] at hcomma
    rw [List.cons_append, getlines, if_neg (Ne.symm hcomma.1), ih hcomma.2]

theorem getlines_single (hcomma : (44 : UInt8) ∉ s) (hne : s ≠ []) : getlines s = [s] := by
  induction s with
  | nil => exact absurd rfl hne
  | cons b s ih =>
    rw [List.mem_cons, not_or] at hcomma
    rw [getlines, if_neg (Ne.symm hcomma.1)]
    cases s with
    | nil => rfl
    | cons c s => rw [ih hcomma.2 (List.cons_ne_nil c s)]

theorem stoul_isSome : (stoul field).isSome = true ↔ Numeric field := by
  unfold stoul Numeric
  dsimp only
  split <;> rename_i h
  · simp only [Option.isSome_none, Bool.false_eq_true, false_iff]
    rintro ⟨hne, hlt⟩
    exact h.elim hne hlt.not_ge
  · rw [not_or, Nat.not_le] at h
    exact iff_of_true rfl h

/-! ### Integers -/

/-- Digits are all of a number. -/
theorem digitsOf_digits {digits : Bytes} (hdigits : digits.all isDigit = true) :
    digitsOf digits = digits ∧ isNegative digits = false := by
  cases digits with
  | nil => exact ⟨rfl, rfl⟩
  | cons b digits =>
    have hb : isDigit b = true := List.all_eq_true.1 hdigits b (.head _)
    have hrange := isDigit_toNat hb
    have hminus : b ≠ 45 := fun h => absurd hrange.1 (by rw [h]; decide)
    have hplus : b ≠ 43 := fun h => absurd hrange.1 (by rw [h]; decide)
    have hdrop : (b :: digits).dropWhile isSpace = b :: digits :=
      List.dropWhile_cons_of_neg (by simp [not_isSpace_of_isDigit hb])
    have hsign : ((b :: digits).head? == some 45 || (b :: digits).head? == some 43) = false := by
      simp [hminus, hplus]
    unfold digitsOf isNegative skipSign
    rw [hdrop, hsign, if_neg Bool.false_ne_true]
    exact ⟨List.takeWhile_eq_self_iff.2 (List.all_eq_true.1 hdigits), by simp [hminus]⟩

/-- And so they are behind a sign. -/
theorem digitsOf_minus {digits : Bytes} (hdigits : digits.all isDigit = true) :
    digitsOf (45 :: digits) = digits ∧ isNegative (45 :: digits) = true := by
  have hdrop : (45 :: digits : Bytes).dropWhile isSpace = 45 :: digits :=
    List.dropWhile_cons_of_neg (by decide)
  unfold digitsOf isNegative
  rw [hdrop]
  refine ⟨?_, rfl⟩
  exact List.takeWhile_eq_self_iff.2 (List.all_eq_true.1 hdigits)

/-- An integer that is an `int` is converted to itself. -/
theorem stoul_of_decimal {v : Int32} (h : Decimal s v.toInt) : ∃ n, stoul s = some n ∧ n.toInt32 = v := by
  have hle := v.le_toInt
  have hlt := v.toInt_lt
  have hback : ∀ n : UInt32, (n.toNat : Int).bmod (2 ^ 32) = v.toInt → n.toInt32 = v := by
    intro n hn
    rw [← Int32.toInt_inj, ← hn, MachineInt.toInt_toInt32]
  generalize v.toInt = i at h hle hlt hback
  cases h with
  | nonneg hne hdigits =>
    obtain ⟨hof, hneg⟩ := digitsOf_digits hdigits
    have hsize : digitsValue 10 s < UInt32.size := by
      rw [show UInt32.size = 4294967296 from rfl]
      omega
    refine ⟨(digitsValue 10 s).toUInt32, ?_, hback _ ?_⟩
    · simp [stoul, hof, hneg, hne, hsize.not_ge]
    · rw [UInt32.toNat_ofNat_of_lt' hsize]
      exact MachineInt.bmod_eq_iff.2 (by omega)
  | @neg digits hne hdigits =>
    obtain ⟨hof, hneg⟩ := digitsOf_minus hdigits
    have hsize : digitsValue 10 digits < UInt32.size := by
      rw [show UInt32.size = 4294967296 from rfl]
      omega
    refine ⟨0 - (digitsValue 10 digits).toUInt32, ?_, hback _ ?_⟩
    · simp [stoul, hof, hneg, hne, hsize.not_ge]
    · rw [UInt32.toNat_sub, UInt32.toNat_ofNat_of_lt' hsize, UInt32.toNat_zero, Nat.add_zero]
      have h32 : (2 : Nat) ^ 32 = 4294967296 := rfl
      rcases Nat.eq_zero_or_pos (digitsValue 10 digits) with h0 | hpos
      · rw [h0]
        rfl
      · rw [Nat.mod_eq_of_lt (by omega), Int.bmod_eq_iff (by decide)]
        omega

/-- An integer has no comma, and is not empty. -/
theorem decimal_no_comma {i : Int} (h : Decimal s i) : (44 : UInt8) ∉ s ∧ s ≠ [] := by
  have hcomma : ∀ digits : Bytes, digits.all isDigit = true → (44 : UInt8) ∉ digits :=
    fun digits hdigits hmem => absurd (List.all_eq_true.1 hdigits 44 hmem) (by decide)
  cases h with
  | nonneg hne hdigits => exact ⟨hcomma _ hdigits, hne⟩
  | neg hne hdigits =>
    refine ⟨?_, List.cons_ne_nil _ _⟩
    rw [List.mem_cons, not_or]
    exact ⟨by decide, hcomma _ hdigits⟩

/-- Four integers set the bounds to themselves. -/
theorem setBounds_of_fourInts (h : FourInts value r) : setBounds value = some (some r) := by
  obtain ⟨x, y, width, height, rfl, hx, hy, hwidth, hheight⟩ := h
  have hfields : getlines (x ++ 44 :: (y ++ 44 :: (width ++ 44 :: height))) = [x, y, width, height] := by
    rw [getlines_append (decimal_no_comma hx).1, getlines_append (decimal_no_comma hy).1,
      getlines_append (decimal_no_comma hwidth).1,
      getlines_single (decimal_no_comma hheight).1 (decimal_no_comma hheight).2]
  obtain ⟨nx, hnx, hvx⟩ := stoul_of_decimal hx
  obtain ⟨ny, hny, hvy⟩ := stoul_of_decimal hy
  obtain ⟨nw, hnw, hvw⟩ := stoul_of_decimal hwidth
  obtain ⟨nh, hnh, hvh⟩ := stoul_of_decimal hheight
  simp [setBounds, hfields, hnx, hny, hnw, hnh, hvx, hvy, hvw, hvh]

/-! ### The switch -/

theorem stoul_cons {fields : List Bytes} {ns : List UInt32} :
    (field :: fields).mapM stoul = some ns ↔
      ∃ n ms, stoul field = some n ∧ fields.mapM stoul = some ms ∧ ns = n :: ms := by
  simp [Option.bind_eq_some_iff, @eq_comm _ ns]

theorem exists_mapM_stoul {fields : List Bytes} :
    (∃ ns, fields.mapM stoul = some ns) ↔ ∀ field ∈ fields, Numeric field := by
  induction fields with
  | nil => simp
  | cons field fields ih =>
    rw [List.forall_mem_cons, ← ih, ← stoul_isSome, Option.isSome_iff_exists]
    constructor
    · rintro ⟨ns, hns⟩
      obtain ⟨n, ms, hn, hms, -⟩ := stoul_cons.1 hns
      exact ⟨⟨n, hn⟩, ms, hms⟩
    · rintro ⟨⟨n, hn⟩, ms, hms⟩
      exact ⟨n :: ms, stoul_cons.2 ⟨n, ms, hn, hms, rfl⟩⟩

theorem length_mapM_stoul {fields : List Bytes} {ns : List UInt32} (h : fields.mapM stoul = some ns) :
    ns.length = fields.length := by
  induction fields generalizing ns with
  | nil => cases h; rfl
  | cons field fields ih =>
    obtain ⟨n, ms, -, hms, rfl⟩ := stoul_cons.1 h
    rw [List.length_cons, List.length_cons, ih hms]

/-- No exception is thrown where the fields are numbers. -/
theorem exists_setBounds : (∃ set, setBounds value = some set) ↔ ∀ field ∈ getlines value, Numeric field := by
  rw [← exists_mapM_stoul]
  simp only [setBounds, Option.map_eq_some_iff, ↓existsAndEq, and_true]

/-- Four fields set the bounds. -/
theorem isSome_of_setBounds {set : Option Rect} (h : setBounds value = some set) :
    set.isSome = true ↔ (getlines value).length = 4 := by
  obtain ⟨ns, hns, rfl⟩ := Option.map_eq_some_iff.1 h
  rw [← length_mapM_stoul hns]
  split
  · exact iff_of_true rfl rfl
  · rename_i hshort
    refine iff_of_false Bool.false_ne_true fun hfour => ?_
    obtain ⟨x, y, width, height, rfl⟩ := List.length_eq_four.1 hfour
    exact hshort x y width height rfl

theorem configRight_iff : ConfigRight value ↔ FieldsOk value := by
  rw [ConfigRight, FieldsOk, ← exists_setBounds]
  constructor
  · rintro ⟨set, hset, hright⟩
    refine ⟨⟨set, hset⟩, fun hlen => ?_⟩
    obtain ⟨r, hr⟩ := Option.isSome_iff_exists.1 ((isSome_of_setBounds hset).2 hlen)
    exact ⟨r, (hright r).1 hr⟩
  · rintro ⟨⟨set, hset⟩, hints⟩
    have hof : ∀ r, FourInts value r → set = some r :=
      fun r hr => Option.some.inj (hset.symm.trans (setBounds_of_fourInts hr))
    refine ⟨set, hset, fun r => ⟨fun hr => ?_, hof r⟩⟩
    obtain ⟨r', hr'⟩ := hints ((isSome_of_setBounds hset).1 (by rw [hr]; rfl))
    cases (hof r' hr').symm.trans hr
    exact hr'

theorem edgesRight_iff : EdgesRight r ↔ EdgesFit r := by
  unfold EdgesRight EdgesFit startRect
  rw [MachineInt.toInt_add_iff, MachineInt.toInt_add_iff]
  simp

/-- Start-up throws no exception and the bounds of the first window are those that the value has, if it
has any, just if the fields are numbers and four of them are nothing but integers; the window's edges are
where these bounds say just if they are `int`s. -/
theorem startBounds_iff (value : Bytes) : (ConfigRight value ↔ FieldsOk value) ∧
    ((ConfigRight value ∧ ∀ r, FourInts value r → EdgesRight r) ↔
      FieldsOk value ∧ ∀ r, FourInts value r → EdgesFit r) :=
  ⟨configRight_iff, and_congr configRight_iff (forall₂_congr fun _ _ => edgesRight_iff)⟩

/-- An empty field makes start-up throw. -/
theorem not_startBounds_empty : ¬ ConfigRight (lit "1,2,,4") := by
  rintro ⟨set, hset, -⟩
  rw [show setBounds (lit "1,2,,4") = none by decide] at hset
  cases hset

end BoundsSwitch
end NplBrowser
