import Mathlib.Data.List.TakeWhile
import NplBrowser.Lib.Ratio
import NplBrowser.JsonNumbers
import NplBrowser.StdString

/-!
# How a dump writes a `double` (`to_chars`)

The digits and the exponent are those of `grisu2`, a parameter; `formatBuffer` puts the point among them, or
an exponent behind them. The text is a number of the grammar, and one with a point or an exponent
(`numberText_toChars`), and it is read back as the value (`atof_toChars`) if the digits are read as the
value (`Represents`).
-/

namespace NplBrowser

/-- `'0' + k`. -/
def digitChar (k : Nat) : UInt8 := (48 + k).toUInt8

def appendExponent (e : Int) : Bytes :=
  let k := e.natAbs
  (if e < 0 then 0x2d else 0x2b) ::
    if k < 10 then [0x30, digitChar k]
    else if k < 100 then [digitChar (k / 10), digitChar (k % 10)]
    else [digitChar (k / 100), digitChar (k % 100 / 10), digitChar (k % 100 % 10)]

def formatBuffer (buf : Bytes) (decimalExponent minExp maxExp : Int) : Bytes :=
  let k : Int := buf.length
  let n := k + decimalExponent
  if k ≤ n ∧ n ≤ maxExp then buf ++ (List.replicate (n - k).toNat 0x30 ++ [0x2e, 0x30])
  else if 0 < n ∧ n ≤ maxExp then buf.take n.toNat ++ 0x2e :: buf.drop n.toNat
  else if minExp < n ∧ n ≤ 0 then 0x30 :: 0x2e :: (List.replicate (-n).toNat 0x30 ++ buf)
  else if k = 1 then buf ++ 0x65 :: appendExponent (n - 1)
  else buf.take 1 ++ 0x2e :: (buf.drop 1 ++ 0x65 :: appendExponent (n - 1))

namespace Double

/-- The other sign. -/
def neg (x : Double) : Double := ⟨x.bits ^^^ 0x8000000000000000⟩

def abs (x : Double) : Double := if x.negative then x.neg else x

end Double

/-- `kMinExp` is -4, `kMaxExp` the number of decimal digits that a `double` keeps. -/
def toChars (grisu2 : Double → Bytes × Int) (value : Double) : Bytes :=
  (if value.negative then [0x2d] else []) ++
    if value.abs.equal .zero then [0x30, 0x2e, 0x30]
    else formatBuffer (grisu2 value.abs).1 (grisu2 value.abs).2 (-4) 15

example : toChars (fun _ => (lit "12345", -3)) (.ofInt (-12)) = lit "-12.345" := by decide +kernel
example : toChars (fun _ => (lit "12345", 17)) (.ofInt 1) = lit "1.2345e+21" := by decide +kernel
example : toChars (fun _ => (lit "12345", -8)) (.ofInt 1) = lit "0.00012345" := by decide +kernel

/-! ### A value does not depend on how its fraction is written -/

namespace Double

open Ratio (floorLog divRound floorLog_mul divRound_mul divRound_zero)

/-- A value of `m` times the last place `q`. -/
def ofPlace (negative : Bool) (m : Nat) (q : Int) : Double :=
  let b := if m = 0 then 0 else min ((q + 1074).toNat * 2 ^ 52 + m) (0x7ff * 2 ^ 52)
  ⟨(if negative then b + 2 ^ 63 else b).toUInt64⟩

def lastPlace (n d : Nat) : Int := max (floorLog n d) (-1022) - 52

theorem ofRatio_eq (negative : Bool) (n d : Nat) : ofRatio negative n d =
    ofPlace negative (divRound (n * 2 ^ (-lastPlace n d).toNat) (d * 2 ^ (lastPlace n d).toNat)) (lastPlace n d) := rfl

variable {n d c : Nat}

theorem ofRatio_zero (negative : Bool) (hd : 0 < d) :
    ofRatio negative 0 d = ⟨if negative then 0x8000000000000000 else 0⟩ := by
  rw [ofRatio_eq, Nat.zero_mul, divRound_zero (Nat.mul_pos hd (Nat.two_pow_pos _))]
  dsimp only [ofPlace]
  rw [if_pos rfl]
  cases negative <;> decide

theorem ofRatio_mul (negative : Bool) (hd : 0 < d) (hc : 0 < c) :
    ofRatio negative (n * c) (d * c) = ofRatio negative n d := by
  rcases Nat.eq_zero_or_pos n with rfl | hn
  · rw [Nat.zero_mul, ofRatio_zero _ (Nat.mul_pos hd hc), ofRatio_zero _ hd]
  · have hplace : lastPlace (n * c) (d * c) = lastPlace n d := by
      unfold lastPlace
      rw [floorLog_mul hn hd hc]
    rw [ofRatio_eq, ofRatio_eq, hplace, mul_right_comm n, mul_right_comm d, divRound_mul hc]

theorem neg_neg (x : Double) : x.neg.neg = x := by
  unfold neg
  rw [UInt64.xor_assoc, UInt64.xor_self, UInt64.xor_zero]

theorem add_two_pow_eq_xor {b : Nat} (h : b < 2 ^ 63) : (b + 2 ^ 63).toUInt64 = b.toUInt64 ^^^ 0x8000000000000000 := by
  rw [← UInt64.toNat_inj, UInt64.toNat_xor]
  have hb : b.toUInt64.toNat = b := UInt64.toNat_ofNat_of_lt' (by rw [UInt64.size]; omega)
  have hadd : (b + 2 ^ 63).toUInt64.toNat = b + 2 ^ 63 := UInt64.toNat_ofNat_of_lt' (by rw [UInt64.size]; omega)
  rw [hb, hadd]
  show b + 2 ^ 63 = b ^^^ 2 ^ 63
  refine Nat.eq_of_testBit_eq fun i => ?_
  rw [Nat.testBit_xor, Nat.testBit_two_pow, Nat.add_comm]
  rcases Nat.lt_trichotomy i 63 with hi | rfl | hi
  · rw [Nat.testBit_two_pow_add_gt hi]
    simp [Nat.ne_of_gt hi]
  · rw [Nat.testBit_two_pow_add_eq]
    simp
  · have hpow : 2 ^ 64 ≤ 2 ^ i := Nat.pow_le_pow_right (by omega) hi
    rw [Nat.testBit_lt_two_pow (by omega), Nat.testBit_lt_two_pow (by omega)]
    simp [Nat.ne_of_lt hi]

/-- The sign is a bit of its own. -/
theorem ofRatio_true (n d : Nat) : ofRatio true n d = (ofRatio false n d).neg := by
  rw [ofRatio_eq, ofRatio_eq]
  unfold ofPlace neg
  dsimp only
  rw [if_pos rfl, if_neg Bool.false_ne_true, add_two_pow_eq_xor]
  split <;> omega

end Double

/-! ### Digits -/

theorem digitsValue_append (base : Nat) (ds es : Bytes) :
    digitsValue base (ds ++ es) = digitsValue base ds * base ^ es.length + digitsValue base es := by
  induction es using List.reverseRecOn with
  | nil => simp [digitsValue]
  | append_singleton es e ih =>
    have hsnoc : ∀ l : Bytes, digitsValue base (l ++ [e]) = digitsValue base l * base + digitValue e := fun l => by
      simp [digitsValue]
    rw [← List.append_assoc, hsnoc, hsnoc, ih, List.length_append, List.length_singleton, pow_succ]
    ring

theorem digitsValue_zeros (base n : Nat) : digitsValue base (List.replicate n 0x30) = 0 := by
  induction n with
  | zero => rfl
  | succ n ih =>
    rw [List.replicate_succ', digitsValue_append, ih, Nat.zero_mul, Nat.zero_add]
    show 0 * base + digitValue 0x30 = 0
    rw [Nat.zero_mul]
    rfl

theorem isDigit_zeros (n : Nat) : ∀ d ∈ List.replicate n (0x30 : UInt8), isDigit d = true := by
  intro d hd
  rw [List.eq_of_mem_replicate hd]
  rfl

theorem digitChar_spec {k : Nat} (hk : k < 10) : isDigit (digitChar k) = true ∧ digitValue (digitChar k) = k := by
  have : ∀ k, k < 10 → isDigit (digitChar k) = true ∧ digitValue (digitChar k) = k := by decide
  exact this k hk

/-- The digits of an exponent, behind its sign. -/
theorem appendExponent_spec {e : Int} (he : e.natAbs < 1000) : ∃ ds, Digits ds ∧ digitsValue 10 ds = e.natAbs ∧
    appendExponent e = (if e < 0 then 0x2d else 0x2b) :: ds := by
  refine ⟨_, ?_, ?_, rfl⟩
  · have hk := fun k (hk : k < 10) => (digitChar_spec hk).1
    split_ifs
    · exact ⟨by simp, by simp [hk _ ‹_›, show isDigit 0x30 = true from rfl]⟩
    · exact ⟨by simp, by simp [hk (e.natAbs / 10) (by omega), hk (e.natAbs % 10) (by omega)]⟩
    · have hlast : e.natAbs % 100 % 10 < 10 := Nat.mod_lt _ (by decide)
      refine ⟨by simp, ?_⟩
      simp only [List.forall_mem_cons, hk (e.natAbs / 100) (by omega), hk (e.natAbs % 100 / 10) (by omega), hk _ hlast,
        true_and]
      simp
  · have hk := fun k (hk : k < 10) => (digitChar_spec hk).2
    split_ifs
    · simp [digitsValue, hk _ ‹_›, show digitValue 0x30 = 0 from rfl]
    · simp only [digitsValue, List.foldl_cons, List.foldl_nil, hk (e.natAbs / 10) (by omega), hk (e.natAbs % 10) (by omega)]
      omega
    · simp only [digitsValue, List.foldl_cons, List.foldl_nil, hk (e.natAbs / 100) (by omega),
        hk (e.natAbs % 100 / 10) (by omega), hk (e.natAbs % 100 % 10) (by omega)]
      omega

/-! ### Decimal numbers -/

namespace Double

/-- The nearest value to a decimal number. -/
def ofDecimal (negative : Bool) (digits : Bytes) (e : Int) : Double :=
  ofRatio negative (digitsValue 10 digits * 10 ^ e.toNat) (10 ^ (-e).toNat)

theorem ofDecimal_zeros_append (negative : Bool) (n : Nat) (digits : Bytes) (e : Int) :
    ofDecimal negative (List.replicate n 0x30 ++ digits) e = ofDecimal negative digits e := by
  unfold ofDecimal
  rw [digitsValue_append, digitsValue_zeros, Nat.zero_mul, Nat.zero_add]

/-- Zeros behind the digits move the point. -/
theorem ofDecimal_append_zeros (negative : Bool) (n : Nat) (digits : Bytes) (e : Int) :
    ofDecimal negative (digits ++ List.replicate n 0x30) (e - n) = ofDecimal negative digits e := by
  unfold ofDecimal
  rw [digitsValue_append, digitsValue_zeros, List.length_replicate, Nat.add_zero]
  obtain ⟨m, hnum, hden⟩ : ∃ m, n + (e - n).toNat = e.toNat + m ∧ (-(e - n)).toNat = (-e).toNat + m := by
    refine ⟨n + (e - n).toNat - e.toNat, ?_, ?_⟩ <;> omega
  rw [mul_assoc, ← pow_add, hnum, hden, pow_add, pow_add, ← mul_assoc]
  exact ofRatio_mul negative (Nat.pow_pos (by decide)) (Nat.pow_pos (by decide))

end Double

/-- The point and the digits behind it, if there are any, and the exponent, if there is one. -/
def decimalTail (fraction : Bytes) (e : Option Int) : Bytes :=
  (if fraction = [] then [] else 0x2e :: fraction) ++ e.elim [] fun e => 0x65 :: appendExponent e

def decimalText (whole fraction : Bytes) (e : Option Int) : Bytes := whole ++ decimalTail fraction e

/-- The digits and the exponent of a number, as they are put around the point. -/
structure NumberLayout (digits : Bytes) (exponent : Int) (whole fraction : Bytes) (e : Option Int) : Prop where
  head : whole = [0x30] ∨ whole ≠ [] ∧ whole.head? = digits.head?
  allDigits : ∀ d ∈ whole ++ fraction, isDigit d = true
  float : fraction ≠ [] ∨ e ≠ none
  small : ∀ i ∈ e, i = digits.length + exponent - 1
  value : ∀ negative, Double.ofDecimal negative (whole ++ fraction) (e.getD 0 - fraction.length) =
    Double.ofDecimal negative digits exponent

theorem numberLayout_cut {digits : Bytes} (hds : Digits digits) {exponent : Int} {e : Option Int} {m : Nat} (h0 : 0 < m)
    (hfloat : m < digits.length ∨ e ≠ none) (hsmall : ∀ i ∈ e, i = digits.length + exponent - 1)
    (he : e.getD 0 - (digits.length - m : Nat) = exponent) :
    NumberLayout digits exponent (digits.take m) (digits.drop m) e where
  head := by
    refine .inr ⟨?_, by rw [List.head?_take, if_neg h0.ne']⟩
    rw [Ne, List.take_eq_nil_iff, not_or]
    exact ⟨h0.ne', hds.ne_nil⟩
  allDigits := by
    rw [List.take_append_drop]
    exact hds.digits
  float := hfloat.imp_left fun hm => by
    rw [Ne, List.drop_eq_nil_iff]
    omega
  small := hsmall
  value negative := by rw [List.take_append_drop, List.length_drop, he]

theorem exists_numberLayout {digits : Bytes} (hds : Digits digits) (exponent : Int) : ∃ whole fraction e,
    formatBuffer digits exponent (-4) 15 = decimalText whole fraction e ∧ NumberLayout digits exponent whole fraction e := by
  have hlen : 0 < digits.length := List.length_pos_iff.2 hds.ne_nil
  unfold formatBuffer
  dsimp only
  split_ifs with h1 h2 h3 h4
  · -- zeros fill up to the point
    obtain ⟨n, rfl⟩ : ∃ n : Nat, exponent = n := ⟨exponent.toNat, by omega⟩
    have hn : ((digits.length : Int) + n - digits.length).toNat = n := by omega
    have hzeros : digits ++ List.replicate n 0x30 ++ [0x30] = digits ++ List.replicate (n + 1) 0x30 := by
      rw [List.append_assoc, ← List.replicate_succ']
    rw [hn]
    refine ⟨digits ++ List.replicate n 0x30, [0x30], none, ?_, .inr ⟨by simp [hds.ne_nil], ?_⟩, ?_, .inl (by simp), by simp,
      fun negative => ?_⟩
    · simp [decimalText, decimalTail]
    · rw [List.head?_append_of_ne_nil _ hds.ne_nil]
    · rw [hzeros]
      exact fun d hd => (List.mem_append.1 hd).elim (hds.digits d) (isDigit_zeros _ d)
    · rw [hzeros, ← Double.ofDecimal_append_zeros negative (n + 1) digits n]
      congr 1
      simp
  · -- the point is among the digits
    obtain ⟨m, hm⟩ : ∃ m : Nat, (digits.length : Int) + exponent = m := ⟨(digits.length + exponent).toNat, by omega⟩
    have hlt : m < digits.length := by omega
    have hfraction : digits.drop m ≠ [] := by
      rw [Ne, List.drop_eq_nil_iff]
      omega
    rw [hm, Int.toNat_natCast]
    refine ⟨_, _, none, ?_, numberLayout_cut hds (by omega) (.inl hlt) (by simp) ?_⟩
    · rw [decimalText, decimalTail, if_neg hfraction]
      simp
    · rw [Option.getD_none]
      omega
  · -- a zero before the point, and zeros behind it
    refine ⟨[0x30], List.replicate (-(digits.length + exponent)).toNat 0x30 ++ digits, none, ?_, .inl rfl, ?_,
      .inl (by simp [hds.ne_nil]), by simp, fun negative => ?_⟩
    · simp [decimalText, decimalTail, hds.ne_nil]
    · rw [← List.append_assoc]
      exact fun d hd => (List.mem_append.1 hd).elim (isDigit_zeros (_ + 1) d) (hds.digits d)
    · rw [← List.append_assoc]
      refine (Double.ofDecimal_zeros_append negative ((-(digits.length + exponent)).toNat + 1) digits _).trans ?_
      congr 1
      simp only [Option.getD_none, List.length_append, List.length_replicate]
      omega
  · -- a single digit, and an exponent
    have htake : digits.take 1 = digits := List.take_of_length_le (by omega)
    have hdrop : digits.drop 1 = [] := List.drop_eq_nil_of_le (by omega)
    refine ⟨_, _, some (digits.length + exponent - 1), ?_, numberLayout_cut hds Nat.one_pos (.inr (by simp)) (by simp) ?_⟩
    · simp [decimalText, decimalTail, htake, hdrop]
    · rw [Option.getD_some]
      omega
  · -- the point is behind the first digit
    have hfraction : digits.drop 1 ≠ [] := by
      rw [Ne, List.drop_eq_nil_iff]
      omega
    refine ⟨_, _, some (digits.length + exponent - 1), ?_, numberLayout_cut hds Nat.one_pos (.inr (by simp)) (by simp) ?_⟩
    · rw [decimalText, decimalTail, if_neg hfraction]
      simp
    · rw [Option.getD_some]
      omega

/-! ### The text is a number -/

section
variable {digits whole fraction ds r : Bytes} {exponent : Int} {e : Option Int}

theorem exponentText_appendExponent {i : Int} (hi : i.natAbs < 1000) : ExponentText (appendExponent i) := by
  obtain ⟨ds, hds, -, h⟩ := appendExponent_spec hi
  rw [h]
  exact .signed (by split <;> simp) hds

theorem numberEnd_decimalTail (hfraction : ∀ d ∈ fraction, isDigit d = true) (hfloat : fraction ≠ [] ∨ e ≠ none)
    (hsmall : ∀ i ∈ e, i.natAbs < 1000) (hr : EndsAt (fun c => isDigit c || isExponentLetter c) r) :
    NumberEnd (decimalTail fraction e) true r := by
  have hletter : isExponentLetter 0x65 = true := rfl
  unfold decimalTail
  cases e with
  | none =>
    have hne : fraction ≠ [] := hfloat.resolve_right (by simp)
    rw [if_neg hne, Option.elim_none, List.append_nil]
    exact .fraction ⟨hne, hfraction⟩ hr
  | some i =>
    have hi := exponentText_appendExponent (hsmall i rfl)
    by_cases hne : fraction = []
    · rw [if_pos hne, Option.elim_some, List.nil_append]
      exact .exponent hletter hi hr.and.1
    · rw [if_neg hne, Option.elim_some, List.cons_append]
      exact .both ⟨hne, hfraction⟩ hletter hi hr.and.1

/-- The digits before the point end there, or at the exponent. -/
theorem endsAt_decimalTail (hfloat : fraction ≠ [] ∨ e ≠ none) (r : Bytes) : EndsAt isDigit (decimalTail fraction e ++ r) := by
  unfold decimalTail
  by_cases hne : fraction = []
  · obtain ⟨i, rfl⟩ := Option.ne_none_iff_exists'.1 (hfloat.resolve_left (not_not.2 hne))
    rw [if_pos hne]
    exact endsAt_isDigit_cons rfl _
  · rw [if_neg hne]
    rintro c ⟨⟩
    rfl

theorem NumberLayout.integerText (h : NumberLayout digits exponent whole fraction e) (hfirst : digits.head? ≠ some 0x30)
    (r : Bytes) : IntegerText whole (decimalTail fraction e ++ r) := by
  rcases h.head with rfl | ⟨hne, hhead⟩
  · exact .zero _
  · obtain ⟨d, ds, rfl⟩ := List.exists_cons_of_ne_nil hne
    refine .digits (h.allDigits d (by simp)) ?_ (fun x hx => h.allDigits x (by simp [hx])) (endsAt_decimalTail h.float r)
    rintro rfl
    exact hfirst hhead.symm

theorem NumberLayout.numberText (h : NumberLayout digits exponent whole fraction e) (hfirst : digits.head? ≠ some 0x30)
    (hsmall : (digits.length + exponent - 1).natAbs < 1000)
    (hr : EndsAt (fun c => isDigit c || isExponentLetter c) r) :
    NumberText (decimalText whole fraction e) true r ∧ NumberText (0x2d :: decimalText whole fraction e) true r := by
  have htail : NumberEnd (decimalTail fraction e) true r :=
    numberEnd_decimalTail (fun d hd => h.allDigits d (by simp [hd])) h.float (fun i hi => h.small i hi ▸ hsmall) hr
  exact ⟨.positive (h.integerText hfirst r) htail, .negative (h.integerText hfirst r) htail⟩

/-! ### The text is read back -/

theorem takeWhile_isDigit (hds : ∀ d ∈ ds, isDigit d = true) (hr : EndsAt isDigit r) : (ds ++ r).takeWhile isDigit = ds := by
  have hrest : r.takeWhile isDigit = [] := by
    cases r with
    | nil => rfl
    | cons c r => rw [List.takeWhile_cons_of_neg (by simp [hr c rfl])]
  rw [List.takeWhile_append_of_pos hds, hrest, List.append_nil]

theorem scanExponent_appendExponent {i : Int} (hi : i.natAbs < 1000) :
    scanExponent (lit "eE") (0x65 :: appendExponent i) = i := by
  obtain ⟨ds, hds, hvalue, h⟩ := appendExponent_spec hi
  have hmark : (0x65 : UInt8) ∈ lit "eE" := by decide
  have htake : ds.takeWhile isDigit = ds := by
    have := takeWhile_isDigit (r := []) hds.digits nofun
    rwa [List.append_nil] at this
  unfold scanExponent
  dsimp only
  rw [if_pos hmark, h]
  by_cases hneg : i < 0
  · have hskip : skipSign (0x2d :: ds) = ds := rfl
    simp only [if_pos hneg, hskip, htake, hvalue, List.head?_cons, if_true]
    omega
  · have hskip : skipSign (0x2b :: ds) = ds := rfl
    simp only [if_neg hneg, hskip, htake, hvalue, List.head?_cons]
    rw [if_neg (by decide)]
    omega

/-- The exponent, zero where there is none. -/
theorem scanExponent_elim (hsmall : ∀ i ∈ e, i.natAbs < 1000) :
    scanExponent (lit "eE") (e.elim [] fun e => 0x65 :: appendExponent e) = e.getD 0 := by
  cases e with
  | none => rfl
  | some i => exact scanExponent_appendExponent (hsmall i rfl)

theorem scanNumber_decimalText (negative : Bool) (hdigits : ∀ d ∈ whole ++ fraction, isDigit d = true) (hne : whole ≠ [])
    (hfloat : fraction ≠ [] ∨ e ≠ none) (hsmall : ∀ i ∈ e, i.natAbs < 1000) :
    scanNumber 10 10 isDigit (lit "eE") 1 negative (decimalText whole fraction e) =
      some (Double.ofDecimal negative (whole ++ fraction) (e.getD 0 - fraction.length)) := by
  have hwhole : (decimalText whole fraction e).takeWhile isDigit = whole :=
    takeWhile_isDigit (fun d hd => hdigits d (by simp [hd])) (by simpa using endsAt_decimalTail hfloat [])
  have hrest : (decimalText whole fraction e).drop whole.length = decimalTail fraction e := List.drop_left
  have hend : EndsAt isDigit (e.elim [] fun e => 0x65 :: appendExponent e) := by
    cases e with
    | none => nofun
    | some i => exact endsAt_isDigit_cons rfl _
  unfold scanNumber
  dsimp only
  rw [hwhole, hrest]
  unfold decimalTail
  by_cases hfraction : fraction = []
  · obtain ⟨i, rfl⟩ := Option.ne_none_iff_exists'.1 (hfloat.resolve_left (not_not.2 hfraction))
    have hpoint : ¬ (0x65 :: appendExponent i).head? = some 46 := by rw [List.head?_cons]; decide
    subst hfraction
    simp only [if_true, Option.elim_some, List.nil_append, if_neg hpoint, List.append_nil, if_neg hne,
      scanExponent_appendExponent (hsmall i rfl)]
    rfl
  · have htake : (fraction ++ e.elim [] fun e => 0x65 :: appendExponent e).takeWhile isDigit = fraction :=
      takeWhile_isDigit (fun d hd => hdigits d (by simp [hd])) hend
    have hne' : whole ++ fraction ≠ [] := by simp [hne]
    simp only [if_neg hfraction, List.cons_append, List.head?_cons, if_true, List.tail_cons, htake, List.drop_succ_cons,
      List.drop_left, scanExponent_elim hsmall, if_neg hne', Nat.cast_one, one_mul]
    rfl

theorem zero_notMem_decimalText (hdigits : ∀ d ∈ whole ++ fraction, isDigit d = true) (hsmall : ∀ i ∈ e, i.natAbs < 1000) :
    (0 : UInt8) ∉ decimalText whole fraction e := by
  have hdigit : ∀ {ds : Bytes}, (∀ d ∈ ds, isDigit d = true) → (0 : UInt8) ∉ ds := fun hds h0 => absurd (hds 0 h0) (by decide)
  have hexponent : (0 : UInt8) ∉ (e.elim [] fun e => 0x65 :: appendExponent e : Bytes) := by
    cases e with
    | none => exact List.not_mem_nil
    | some i =>
      obtain ⟨ds, hds, -, h⟩ := appendExponent_spec (hsmall i rfl)
      rw [Option.elim_some, h, List.mem_cons, List.mem_cons, not_or, not_or]
      exact ⟨by decide, by split <;> decide, hdigit hds.digits⟩
  unfold decimalText decimalTail
  rw [List.mem_append, List.mem_append, not_or, not_or]
  refine ⟨hdigit fun d hd => hdigits d (by simp [hd]), ?_, hexponent⟩
  split
  · exact List.not_mem_nil
  · rw [List.mem_cons, not_or]
    exact ⟨by decide, hdigit fun d hd => hdigits d (by simp [hd])⟩

/-- A digit that is not the zero of a `0x`, and a decimal number from there on. -/
theorem atof_of_scanNumber {text : Bytes} {v : Bool → Double} {d : UInt8} {t : Bytes} (htext : text = d :: t)
    (hd : isDigit d = true) (h0 : (0 : UInt8) ∉ text) (hhex : startsWithWord "0x" text = false)
    (hscan : ∀ negative, scanNumber 10 10 isDigit (lit "eE") 1 negative text = some (v negative)) :
    atof text = v false ∧ atof (0x2d :: text) = v true := by
  have hcString : ∀ {s : Bytes}, (0 : UInt8) ∉ s → cString s = s := fun h =>
    List.takeWhile_eq_self_iff.2 fun b hb => by
      have hne : b ≠ 0 := fun heq => h (heq ▸ hb)
      simpa using hne
  have hrange := isDigit_toNat hd
  have hminus : d ≠ 45 := fun h => absurd hrange.1 (by rw [h]; decide)
  have hplus : d ≠ 43 := fun h => absurd hrange.1 (by rw [h]; decide)
  have h0' : (0 : UInt8) ∉ 0x2d :: text := by
    rw [List.mem_cons, not_or]
    exact ⟨by decide, h0⟩
  have hblank : text.dropWhile isSpace = text := by
    rw [htext]
    exact List.dropWhile_cons_of_neg (by simp [not_isSpace_of_isDigit hd])
  have hblank' : (0x2d :: text : Bytes).dropWhile isSpace = 0x2d :: text := List.dropWhile_cons_of_neg (by decide)
  have hhead : (text.head? == some 45) = false := by
    rw [htext]
    simp [hminus]
  have hskip : skipSign text = text := by
    unfold skipSign
    rw [hhead, htext]
    simp [hplus]
  have hskip' : skipSign (0x2d :: text) = text := rfl
  unfold atof
  constructor
  · simp only [hcString h0, hblank, hhead, hskip, hhex, hscan, Bool.false_eq_true, if_false, Option.none_or]
  · simp only [hcString h0', hblank', hskip', hhex, hscan, Bool.false_eq_true, if_false, Option.none_or]
    rfl

theorem NumberLayout.exists_cons (h : NumberLayout digits exponent whole fraction e) :
    ∃ d ds, whole = d :: ds ∧ isDigit d = true := by
  rcases h.head with rfl | ⟨hne, -⟩
  · exact ⟨_, _, rfl, rfl⟩
  · obtain ⟨d, ds, rfl⟩ := List.exists_cons_of_ne_nil hne
    exact ⟨d, ds, rfl, h.allDigits d (by simp)⟩

theorem NumberLayout.not_hex (h : NumberLayout digits exponent whole fraction e) (hfirst : digits.head? ≠ some 0x30) :
    startsWithWord "0x" (decimalText whole fraction e) = false := by
  have htail : ∀ c ∈ (decimalTail fraction e).head?, c = 0x2e ∨ c = 0x65 := by
    unfold decimalTail
    intro c hc
    by_cases hfraction : fraction = []
    · obtain ⟨i, rfl⟩ := Option.ne_none_iff_exists'.1 (h.float.resolve_left (not_not.2 hfraction))
      rw [if_pos hfraction] at hc
      exact .inr (Option.some.inj hc).symm
    · rw [if_neg hfraction] at hc
      exact .inl (Option.some.inj hc).symm
  have hlower : ∀ d, isDigit d = true → toLower d = d := fun d hd => by
    have hrange := isDigit_toNat hd
    exact if_neg fun hle => absurd (UInt8.le_iff_toNat_le.1 hle.1) (by rw [show (65 : UInt8).toNat = 65 from rfl]; omega)
  rw [Bool.eq_false_iff]
  intro hword
  have hword : ((decimalText whole fraction e).take 2).map toLower = [0x30, 0x78] := beq_iff_eq.1 hword
  unfold decimalText at hword
  rcases h.head with rfl | ⟨hne, hhead⟩
  · cases hrest : decimalTail fraction e with
    | nil =>
      rw [hrest] at hword
      cases hword
    | cons c t =>
      rw [hrest] at hword
      have hc : toLower c = 0x78 := by simpa using (List.cons.inj hword).2
      rcases htail c (by rw [hrest]; rfl) with rfl | rfl
      · exact absurd hc (by decide)
      · exact absurd hc (by decide)
  · obtain ⟨d, ds, rfl⟩ := List.exists_cons_of_ne_nil hne
    have hd : toLower d = 0x30 := (List.cons.inj hword).1
    rw [hlower d (h.allDigits d (by simp))] at hd
    rw [hd] at hhead
    exact hfirst hhead.symm

theorem NumberLayout.atof_eq (h : NumberLayout digits exponent whole fraction e) (hfirst : digits.head? ≠ some 0x30)
    (hsmall : (digits.length + exponent - 1).natAbs < 1000) :
    atof (decimalText whole fraction e) = .ofDecimal false digits exponent ∧
      atof (0x2d :: decimalText whole fraction e) = .ofDecimal true digits exponent := by
  obtain ⟨d, ds, hwhole, hd⟩ := h.exists_cons
  have hsmall' : ∀ i ∈ e, i.natAbs < 1000 := fun i hi => h.small i hi ▸ hsmall
  refine atof_of_scanNumber (v := fun negative => .ofDecimal negative digits exponent) (d := d)
    (t := ds ++ decimalTail fraction e) (by rw [decimalText, hwhole]; rfl) hd
    (zero_notMem_decimalText h.allDigits hsmall') (h.not_hex hfirst) fun negative => ?_
  rw [scanNumber_decimalText negative h.allDigits (by simp [hwhole]) h.float hsmall', h.value]

end

/-! ### The value -/

/-- The digits and the exponent of a positive value, which are read as the value: the first digit is not a
zero, and an exponent has three digits at most. -/
structure Represents (grisu2 : Double → Bytes × Int) (x : Double) : Prop where
  digits : Digits (grisu2 x).1
  first : (grisu2 x).1.head? ≠ some 0x30
  small : ((grisu2 x).1.length + (grisu2 x).2 - 1).natAbs < 1000
  value : Double.ofDecimal false (grisu2 x).1 (grisu2 x).2 = x

/-- What is needed of the digits of a value: those of a zero are not asked for. -/
def Writes (grisu2 : Double → Bytes × Int) (x : Double) : Prop :=
  x.abs.equal .zero = false → Represents grisu2 x.abs

variable {grisu2 : Double → Bytes × Int} {x : Double}

theorem Double.abs_of_negative (h : x.negative = true) : x.abs.neg = x := by
  rw [abs, if_pos h, neg_neg]

theorem Double.eq_zero_of_abs (h : x.abs.equal .zero = true) : x = ⟨if x.negative then 0x8000000000000000 else 0⟩ := by
  have hbits : x.abs.bits <<< 1 = 0 := by
    unfold equal at h
    rw [Bool.and_eq_true, Bool.or_eq_true, Bool.and_eq_true, beq_iff_eq, beq_iff_eq] at h
    rcases h.2 with h | h
    · rw [h]
      rfl
    · exact h.1
  have hshift : x.bits <<< 1 = 0 := by
    unfold abs neg at hbits
    split_ifs at hbits
    · have hsign : (0x8000000000000000 : UInt64) <<< 1 = 0 := by decide
      rwa [UInt64.shiftLeft_xor, hsign, UInt64.xor_zero] at hbits
    · exact hbits
  -- what is left is the bit of the sign
  obtain ⟨b⟩ := x
  have hmod : b.toNat * 2 % 2 ^ 64 = 0 := by
    have := congrArg UInt64.toNat hshift
    simpa [UInt64.toNat_shiftLeft, Nat.shiftLeft_eq] using this
  have hb := b.toNat_lt
  have hb' : b.toNat = 0 ∨ b.toNat = 2 ^ 63 := by omega
  rcases hb' with h0 | h0
  · obtain rfl : b = 0 := UInt64.toNat_inj.1 h0
    rfl
  · obtain rfl : b = 0x8000000000000000 := UInt64.toNat_inj.1 h0
    rfl

theorem numberText_toChars (h : Writes grisu2 x) {r : Bytes} (hr : EndsAt (fun c => isDigit c || isExponentLetter c) r) :
    NumberText (toChars grisu2 x) true r := by
  unfold toChars
  cases hzero : x.abs.equal .zero with
  | true =>
    have hend : NumberEnd [0x2e, 0x30] true r := .fraction ⟨by simp, by simp [isDigit]⟩ hr
    cases x.negative with
    | true => exact NumberText.negative (i := [0x30]) (.zero _) hend
    | false => exact NumberText.positive (i := [0x30]) (.zero _) hend
  | false =>
    have hx := h hzero
    obtain ⟨whole, fraction, e, htext, hlayout⟩ := exists_numberLayout hx.digits (grisu2 x.abs).2
    obtain ⟨hpositive, hnegative⟩ := hlayout.numberText hx.first hx.small hr
    rw [htext]
    cases x.negative with
    | true => exact hnegative
    | false => exact hpositive

/-- A value is read back from its text. -/
theorem atof_toChars (h : Writes grisu2 x) : atof (toChars grisu2 x) = x := by
  unfold toChars
  cases hzero : x.abs.equal .zero with
  | true =>
    have hx := Double.eq_zero_of_abs hzero
    have hpositive : atof [0x30, 0x2e, 0x30] = ⟨0⟩ := by decide +kernel
    have hnegative : atof [0x2d, 0x30, 0x2e, 0x30] = ⟨0x8000000000000000⟩ := by decide +kernel
    cases hneg : x.negative with
    | true =>
      rw [hneg] at hx
      exact hnegative.trans hx.symm
    | false =>
      rw [hneg] at hx
      exact hpositive.trans hx.symm
  | false =>
    have hx := h hzero
    obtain ⟨whole, fraction, e, htext, hlayout⟩ := exists_numberLayout hx.digits (grisu2 x.abs).2
    obtain ⟨hpositive, hnegative⟩ := hlayout.atof_eq hx.first hx.small
    rw [htext]
    cases hneg : x.negative with
    | true =>
      refine hnegative.trans ?_
      show Double.ofRatio true _ _ = x
      rw [Double.ofRatio_true]
      exact (congrArg Double.neg hx.value).trans (Double.abs_of_negative hneg)
    | false =>
      refine (hpositive.trans hx.value).trans ?_
      rw [Double.abs, if_neg (by simp [hneg])]

end NplBrowser
