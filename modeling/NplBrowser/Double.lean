import Mathlib.Tactic.Ring

/-!
# IEEE-754 doubles

A `double` is its 64 bits. Only what the code does with them is here: the test for a finite value
and the conversions from and to integers (to the nearest value, ties to even; towards zero).
-/

namespace NplBrowser

structure Double where
  bits : UInt64
deriving DecidableEq, Repr

namespace Double

def zero : Double := ⟨0⟩

def negative (d : Double) : Bool := d.bits >>> 63 == 1
def exponent (d : Double) : Nat := ((d.bits >>> 52) &&& 0x7ff).toNat
def fraction (d : Double) : Nat := (d.bits &&& 0xfffffffffffff).toNat

/-- `std::isfinite`. -/
def isFinite (d : Double) : Bool := d.exponent != 0x7ff

/-- `==`: no NaN is equal to anything, and both zeros are. -/
def equal (x y : Double) : Bool :=
  !(x.exponent == 0x7ff && x.fraction != 0) && (x == y || x.bits <<< 1 == 0 && y.bits <<< 1 == 0)

/-- The integer part of a finite value. -/
def trunc (d : Double) : Int :=
  let m := if d.exponent = 0 then d.fraction else d.fraction + 2 ^ 52
  let e := if d.exponent = 0 then 1 else d.exponent
  let n : Nat := if 1075 ≤ e then m * 2 ^ (e - 1075) else m / 2 ^ (1075 - e)
  if d.negative then -n else n

/-- `static_cast<int>`; out of range it is the indefinite integer of the x86 conversion. -/
def toInt32 (d : Double) : Int32 :=
  if d.isFinite ∧ -2 ^ 31 ≤ d.trunc ∧ d.trunc < 2 ^ 31 then Int32.ofInt d.trunc else Int32.minValue

/-- `static_cast<double>` of an integer of at most 64 bits. -/
def ofInt (i : Int) : Double :=
  let n := i.natAbs
  if n = 0 then zero else
  let e := Nat.log2 n
  -- 53 significant bits, rounded to even; a carry out of the top bit moves on to the exponent
  let m :=
    if e ≤ 52 then n * 2 ^ (52 - e)
    else
      let q := n / 2 ^ (e - 52)
      let r := n % 2 ^ (e - 52)
      let half := 2 ^ (e - 53)
      if r > half ∨ (r = half ∧ q % 2 = 1) then q + 1 else q
  let b := (e + 1022) * 2 ^ 52 + m
  ⟨(if i < 0 then b + 2 ^ 63 else b).toUInt64⟩

/-- The nearest value to a fraction, rounded to even, infinite above the range. -/
def ofRatio (negative : Bool) (n d : Nat) : Double :=
  -- `2 ^ k ≤ n / d < 2 ^ (k + 1)`
  let k : Int := Nat.log2 n - Nat.log2 d
  let k := if n * 2 ^ (-k).toNat < d * 2 ^ k.toNat then k - 1 else k
  -- the last place, below which subnormal numbers have none
  let q := max k (-1022) - 52
  let n := n * 2 ^ (-q).toNat
  let d := d * 2 ^ q.toNat
  let m := n / d
  let r := n % d
  let m := if 2 * r > d ∨ (2 * r = d ∧ m % 2 = 1) then m + 1 else m
  let b := if m = 0 then 0 else min ((q + 1074).toNat * 2 ^ 52 + m) (0x7ff * 2 ^ 52)
  ⟨(if negative then b + 2 ^ 63 else b).toUInt64⟩

example : ofInt (-3) = ⟨0xc008000000000000⟩ := by decide
example : (ofInt 2147483647).toInt32 = 2147483647 := by decide

end Double
end NplBrowser
