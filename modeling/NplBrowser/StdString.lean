import NplBrowser.Bytes
import NplBrowser.Double
import NplBrowser.Lib.Search

/-!
# `std::basic_string`: searching, cutting, numbers

A position is a `size_t`, read as a signed number here: `npos` is -1, and any negative number is a
position behind the end of every string. `atoi`, `atof` and `_snprintf` are those of the Microsoft
library.
-/

namespace NplBrowser

section
variable {α : Type*} [DecidableEq α] {s p : List α} {i k : Nat}

def npos : Int := -1

/-- A search result as a `size_t`. -/
def position (i : Option Nat) : Int := i.elim npos Nat.cast

def find (s p : List α) (pos : Int) : Int :=
  if pos < 0 ∨ s.length < pos then npos else position (Search.findFrom p s pos.toNat)

def rfind (s p : List α) (pos : Int) : Int :=
  position (if pos < 0 then Search.last p s else Search.rfindTo p s pos.toNat)

/-- `none`: it throws `out_of_range`. -/
def substr (s : List α) (pos count : Int) : Option (List α) :=
  if pos < 0 ∨ s.length < pos then none
  else some (if count < 0 then s.drop pos.toNat else (s.drop pos.toNat).take count.toNat)

@[simp] theorem position_none : position none = npos := rfl

@[simp] theorem position_some (i : Nat) : position (some i) = i := rfl

theorem natCast_ne_npos (n : Nat) : (n : Int) ≠ npos := by
  unfold npos
  omega

@[simp] theorem find_npos (s p : List α) : find s p npos = npos := if_pos (.inl (by decide))

theorem find_zero (s p : List α) : find s p 0 = position (Search.findFrom p s 0) := by
  unfold find
  rw [if_neg (by omega), Int.toNat_zero]

theorem find_natCast (h : k ≤ s.length) (p : List α) :
    find s p k = position (Search.findFrom p s k) := by
  unfold find
  rw [if_neg (by omega), Int.toNat_natCast]

/-- A search that succeeds at once. -/
theorem find_eq_zero_iff (s p : List α) : find s p 0 = 0 ↔ p <+: s := by
  rw [find_zero]
  constructor
  · intro h
    cases hf : Search.findFrom p s 0 with
    | none =>
      rw [hf] at h
      exact absurd h (by decide)
    | some i =>
      rw [hf, position_some] at h
      obtain rfl : i = 0 := by omega
      exact (Search.findFrom_eq_some_iff.1 hf).2.1
  · intro h
    rw [Search.findFrom_eq_some_iff.2 ⟨Nat.le_refl 0, h, fun j _ hj => absurd hj (Nat.not_lt_zero j)⟩]
    rfl

theorem rfind_npos (s p : List α) : rfind s p npos = position (Search.last p s) := rfl

theorem rfind_natCast (s p : List α) (k : Nat) : rfind s p k = position (Search.rfindTo p s k) := by
  unfold rfind
  rw [if_neg (by omega), Int.toNat_natCast]

omit [DecidableEq α] in
theorem substr_natCast (h : k ≤ s.length) (i : Nat) :
    substr s k ((i : Int) - k) = some (if i < k then s.drop k else (s.drop k).take (i - k)) := by
  unfold substr
  rw [if_neg (by omega), Int.toNat_natCast]
  by_cases hik : i < k
  · rw [if_pos (by omega), if_pos hik]
  · rw [if_neg (by omega), if_neg hik, ← Nat.cast_sub (by omega), Int.toNat_natCast]

end

/-- Blanks, a sign, digits; out of range it is the nearest `int`. -/
def atoi (s : Bytes) : Int :=
  let n : Nat := digitsValue 10 (digitsOf s)
  max (-2 ^ 31) (min (2 ^ 31 - 1) (if isNegative s then -n else n))

/-- `_snprintf` into the memory `m`: a text of `count` bytes or more is cut off, without a NUL. -/
def snprintf (m : Bytes) (count : Nat) (text : Bytes) : Bytes :=
  if text.length < count then text ++ 0 :: m.drop (text.length + 1) else text.take count ++ m.drop count

/-- An exponent behind one of the characters `marks`, zero without digits. -/
def scanExponent (marks : Bytes) (s : Bytes) : Int :=
  match s with
  | [] => 0
  | c :: s =>
    if c ∈ marks then
      let n : Nat := digitsValue 10 ((skipSign s).takeWhile isDigit)
      if s.head? = some 45 then -n else n
    else 0

/-- A number whose digits are in `base`, of which one of the exponent counts as `radix`. `none`: there
is no digit. -/
def scanNumber (base radix : Nat) (digit : UInt8 → Bool) (marks : Bytes) (perDigit : Nat) (neg : Bool)
    (s : Bytes) : Option Double :=
  let whole := s.takeWhile digit
  let s := s.drop whole.length
  let fraction := if s.head? = some 46 then s.tail.takeWhile digit else []
  let s := if s.head? = some 46 then s.drop (fraction.length + 1) else s
  if whole ++ fraction = [] then none
  else
    let e := scanExponent marks s - perDigit * fraction.length
    some (Double.ofRatio neg (digitsValue base (whole ++ fraction) * radix ^ e.toNat) (radix ^ (-e).toNat))

/-- The text begins with `word`, whatever the case. -/
def startsWithWord (word : String) (s : Bytes) : Bool := (s.take word.length).map toLower == lit word

/-- The longest number a text begins with, after blanks and a sign: decimal or hexadecimal, with a fraction
and an exponent, or an infinity or a NaN. Without a number it is zero. -/
def atof (s : Bytes) : Double :=
  let s := (cString s).dropWhile isSpace
  let neg := s.head? == some 45
  let s := skipSign s
  let hex := if startsWithWord "0x" s then scanNumber 16 2 isHexDigit (lit "pP") 4 neg (s.drop 2) else none
  match hex.or (scanNumber 10 10 isDigit (lit "eE") 1 neg s) with
  | some x => x
  | none =>
    let b : Nat := if startsWithWord "inf" s then 0x7ff0000000000000
      else if startsWithWord "nan" s then 0x7ff8000000000000
      else 0
    ⟨(if neg ∧ b ≠ 0 then b + 2 ^ 63 else b).toUInt64⟩

example : atof (lit " 1.5") = ⟨0x3ff8000000000000⟩ := by decide +kernel
example : atof (lit "4.9e-324") = ⟨1⟩ := by decide +kernel

end NplBrowser
