import Mathlib.Tactic.Ring

/-!
# Byte strings

`std::string` is a sequence of bytes. Besides literals this file has what the two programs and the
JSON library do to bytes: the C-string view of a buffer, `strnlen`, `std::stoull`, decimal and
hexadecimal digits, and the UTF-8 decoder of `json.hpp` (`serializer::decode`), by which a dump
accepts or refuses a string.
-/

namespace NplBrowser

/-- `std::string`. -/
abbrev Bytes := List UInt8

/-- The bytes of an ASCII literal. -/
def lit (s : String) : Bytes := s.toList.map fun c => c.toNat.toUInt8

/-! ### C strings -/

/-- The `std::string` constructed from a pointer into the memory `m`: everything before the first
NUL. -/
def cString (m : Bytes) : Bytes := m.takeWhile (· ≠ 0)

def strnlen (m : Bytes) (n : Nat) : Nat := min (cString m).length n

theorem cString_append_nul {s : Bytes} (hs : (0 : UInt8) ∉ s) (m : Bytes) :
    cString (s ++ 0 :: m) = s := by
  induction s with
  | nil => simp [cString]
  | cons b s ih =>
    simp only [List.mem_cons, not_or] at hs
    have hb : b ≠ 0 := Ne.symm hs.1
    simpa [cString, List.takeWhile_cons, hb] using ih hs.2

/-- What follows the last `c`, the whole text where there is none. -/
def afterLast {α : Type*} [DecidableEq α] (c : α) (s : List α) : List α := (s.reverse.takeWhile (· ≠ c)).reverse

section
variable {α : Type*} [DecidableEq α] {c : α} {t : List α}

theorem afterLast_append (h : c ∉ t) (s : List α) : afterLast c (s ++ t) = afterLast c s ++ t := by
  unfold afterLast
  rw [List.reverse_append, List.takeWhile_append_of_pos]
  · simp
  · intro x hx
    have hne : x ≠ c := fun heq => h (heq ▸ List.mem_reverse.1 hx)
    simpa using hne

theorem afterLast_append_cons (h : c ∉ t) (s : List α) : afterLast c (s ++ c :: t) = t := by
  have hc : afterLast c (s ++ [c]) = [] := by simp [afterLast]
  rw [← List.singleton_append, ← List.append_assoc, afterLast_append h, hc, List.nil_append]

end

/-! ### Numbers as text -/

/-- Decimal digits, most significant first. -/
def decimal (n : Nat) : Bytes := (Nat.toDigits 10 n).map fun c => c.toNat.toUInt8

/-- `%04x`. -/
def hex4 (n : Nat) : Bytes :=
  let h (i : Nat) : UInt8 :=
    let d := n / 16 ^ i % 16
    if d < 10 then (48 + d).toUInt8 else (87 + d).toUInt8
  [h 3, h 2, h 1, h 0]

def isSpace (b : UInt8) : Bool := b == 32 || (9 ≤ b && b ≤ 13)

def isDigit (b : UInt8) : Bool := 48 ≤ b && b ≤ 57

theorem isDigit_toNat {b : UInt8} (h : isDigit b = true) : 48 ≤ b.toNat ∧ b.toNat ≤ 57 := by
  simpa [isDigit, UInt8.le_iff_toNat_le] using h

theorem not_isSpace_of_isDigit {b : UInt8} (h : isDigit b = true) : isSpace b = false := by
  have hb := isDigit_toNat h
  simp only [isSpace, Bool.or_eq_false_iff, beq_eq_false_iff_ne, ne_eq, ← UInt8.toNat_inj, Bool.and_eq_false_iff,
    decide_eq_false_iff_not, UInt8.le_iff_toNat_le]
  have h32 : (32 : UInt8).toNat = 32 := rfl
  have h13 : (13 : UInt8).toNat = 13 := rfl
  omega

def isHexDigit (b : UInt8) : Bool := isDigit b || (65 ≤ b && b ≤ 70) || (97 ≤ b && b ≤ 102)

/-- `::tolower` in the C locale. -/
def toLower (b : UInt8) : UInt8 := if 65 ≤ b ∧ b ≤ 90 then b + 32 else b

def digitValue (b : UInt8) : Nat :=
  if isDigit b then b.toNat - 48 else if b < 97 then b.toNat - 55 else b.toNat - 87

/-- The number that digits are in a base. -/
def digitsValue (base : Nat) (digits : Bytes) : Nat := digits.foldl (fun n d => n * base + digitValue d) 0

def skipSign (s : Bytes) : Bytes := if s.head? == some 45 || s.head? == some 43 then s.tail else s

/-- The digits of the decimal number that a text begins with: blanks and a sign before them, and whatever
there is behind them, are left out. -/
def digitsOf (s : Bytes) : Bytes := (skipSign (s.dropWhile isSpace)).takeWhile isDigit

def isNegative (s : Bytes) : Bool := (s.dropWhile isSpace).head? == some 45

/-- `std::stoull`. `none`: it throws, `invalid_argument` without a digit, `out_of_range` above 64 bits; a
negated value wraps around. -/
def stoull (s : Bytes) : Option UInt64 :=
  let s := cString s
  let n := digitsValue 10 (digitsOf s)
  if digitsOf s = [] ∨ 2 ^ 64 ≤ n then none
  else some (if isNegative s then 0 - n.toUInt64 else n.toUInt64)

/-! ### UTF-8 -/

/-- The byte classes of the decoder's table `utf8d`. -/
def utf8Type (b : UInt8) : Nat :=
  if b < 0x80 then 0 else if b < 0x90 then 1 else if b < 0xa0 then 9 else if b < 0xc0 then 7
  else if b < 0xc2 then 8 else if b < 0xe0 then 2
  else if b = 0xe0 then 10 else if b = 0xed then 4 else if b < 0xf0 then 3
  else if b = 0xf0 then 11 else if b < 0xf4 then 6 else if b = 0xf4 then 5 else 8

/-- The transition rows `s0` to `s8` of `utf8d`. -/
def utf8Rows : List (List Nat) :=
  [[0, 1, 2, 3, 5, 8, 7, 1, 1, 1, 4, 6],
   [1, 1, 1, 1, 1, 1, 1, 1, 1, 1, 1, 1],
   [1, 0, 1, 1, 1, 1, 1, 0, 1, 0, 1, 1],
   [1, 2, 1, 1, 1, 1, 1, 2, 1, 2, 1, 1],
   [1, 1, 1, 1, 1, 1, 1, 2, 1, 1, 1, 1],
   [1, 2, 1, 1, 1, 1, 1, 1, 1, 2, 1, 1],
   [1, 1, 1, 1, 1, 1, 1, 3, 1, 3, 1, 1],
   [1, 3, 1, 1, 1, 1, 1, 3, 1, 3, 1, 1],
   [1, 3, 1, 1, 1, 1, 1, 1, 1, 1, 1, 1]]

/-- `serializer::decode`: the state after one more byte; 0 accepts, 1 rejects for good. -/
def utf8Decode (state : Nat) (b : UInt8) : Nat :=
  (utf8Rows.getD state []).getD (utf8Type b) 1

/-- The string is valid UTF-8. -/
def utf8 (s : Bytes) : Bool := s.foldl utf8Decode 0 == 0

@[simp] theorem utf8_nil : utf8 [] = true := rfl

end NplBrowser
