import NplBrowser.Dump
import NplBrowser.Lib.Utf8

/-!
# The lexer of the JSON library (`json.hpp`, `lexer`)

The scanner that the parser takes its tokens from, with the value of the last token and what an error
message tells of it. `next_unget` is kept as the input that is left: what has been put back is read again.
The decimal point is that of the C locale, which the program does not leave. `strtod` is a parameter.
-/

namespace NplBrowser

inductive TokenType
  | uninitialized
  | literalTrue
  | literalFalse
  | literalNull
  | valueString
  | valueUnsigned
  | valueInteger
  | valueFloat
  | beginArray
  | beginObject
  | endArray
  | endObject
  | nameSeparator
  | valueSeparator
  | parseError
  | endOfInput
  /-- Only for diagnostics. -/
  | literalOrValue
deriving DecidableEq, Repr

/-- `token_type_name`. -/
def TokenType.typeName : TokenType → Bytes
  | uninitialized => lit "<uninitialized>"
  | literalTrue => lit "true literal"
  | literalFalse => lit "false literal"
  | literalNull => lit "null literal"
  | valueString => lit "string literal"
  | valueUnsigned | valueInteger | valueFloat => lit "number literal"
  | beginArray => lit "'['"
  | beginObject => lit "'\x7b'"
  | endArray => lit "']'"
  | endObject => lit "'\x7d'"
  | nameSeparator => lit "':'"
  | valueSeparator => lit "','"
  | parseError => lit "<parse error>"
  | endOfInput => lit "end of input"
  | literalOrValue => lit "'[', '\x7b', or a literal"

/-- `position_t`. -/
structure LexerPosition where
  charsReadTotal : Nat := 0
  charsReadCurrentLine : Nat := 0
  linesRead : Nat := 0
deriving DecidableEq

structure Lexer where
  /-- What the input adapter has left, and what has been put back. -/
  input : Bytes
  /-- `none` is the end of the file. -/
  current : Option UInt8 := none
  position : LexerPosition := {}
  tokenString : Bytes := []
  tokenBuffer : Bytes := []
  errorMessage : Bytes := []
  valueInteger : Int64 := 0
  valueUnsigned : UInt64 := 0
  valueFloat : Double := .zero

namespace Lexer

/-! ### Input management -/

def get (l : Lexer) : Lexer :=
  let pos := { l.position with
    charsReadTotal := l.position.charsReadTotal + 1
    charsReadCurrentLine := l.position.charsReadCurrentLine + 1 }
  match l.input with
  | [] => { l with current := none, position := pos }
  | c :: input =>
    { l with
      input
      current := some c
      tokenString := l.tokenString ++ [c]
      position := if c = 0x0a then { pos with linesRead := pos.linesRead + 1, charsReadCurrentLine := 0 } else pos }

def unget (l : Lexer) : Lexer :=
  let pos := { l.position with charsReadTotal := l.position.charsReadTotal - 1 }
  { l with
    input := l.current.toList ++ l.input
    tokenString := if l.current.isSome then l.tokenString.dropLast else l.tokenString
    position :=
      if pos.charsReadCurrentLine = 0 then { pos with linesRead := pos.linesRead - 1 }
      else { pos with charsReadCurrentLine := pos.charsReadCurrentLine - 1 } }

/-- Into the token buffer. -/
def add (l : Lexer) (c : UInt8) : Lexer := { l with tokenBuffer := l.tokenBuffer ++ [c] }

/-- The current character is the beginning of the token. -/
def reset (l : Lexer) : Lexer := { l with tokenBuffer := [], tokenString := l.current.toList }

def error (l : Lexer) (message : Bytes) : TokenType × Lexer := (.parseError, { l with errorMessage := message })

@[simp] theorem current_get (l : Lexer) : l.get.current = l.input.head? := by
  unfold get
  cases l.input <;> rfl

@[simp] theorem input_get (l : Lexer) : l.get.input = l.input.tail := by
  unfold get
  cases l.input <;> rfl

@[simp] theorem tokenBuffer_get (l : Lexer) : l.get.tokenBuffer = l.tokenBuffer := by
  unfold get
  cases l.input <;> rfl

@[simp] theorem input_add (l : Lexer) (c : UInt8) : (l.add c).input = l.input := rfl

@[simp] theorem current_add (l : Lexer) (c : UInt8) : (l.add c).current = l.current := rfl

@[simp] theorem tokenBuffer_add (l : Lexer) (c : UInt8) : (l.add c).tokenBuffer = l.tokenBuffer ++ [c] := rfl

@[simp] theorem input_reset (l : Lexer) : l.reset.input = l.input := rfl

@[simp] theorem current_reset (l : Lexer) : l.reset.current = l.current := rfl

@[simp] theorem tokenBuffer_reset (l : Lexer) : l.reset.tokenBuffer = [] := rfl

theorem length_get {l : Lexer} {c : UInt8} (h : l.get.current = some c) : l.get.input.length < l.input.length := by
  rw [current_get] at h
  rw [input_get]
  cases hl : l.input with
  | nil =>
    rw [hl] at h
    cases h
  | cons => simp

theorem length_get_le (l : Lexer) : l.get.input.length ≤ l.input.length := by
  rw [input_get, List.length_tail]
  exact Nat.sub_le _ _

/-! ### Strings -/

/-- An escape or a character that cannot be read. -/
def fail (l : Lexer) (message : Bytes) : Bool × Lexer := (false, { l with errorMessage := message })

/-- The number that four hexadecimal digits behind `\u` are; the factors are shifts. -/
def getCodepoint (l : Lexer) (codepoint : Nat) : List Nat → Option Nat × Lexer
  | [] => (some codepoint, l)
  | factor :: factors =>
    match l.get.current with
    | some c =>
      if isHexDigit c then l.get.getCodepoint (codepoint + digitValue c <<< factor) factors
      else (none, l.get)
    | none => (none, l.get)

def codepointFactors : List Nat := [12, 8, 4, 0]

/-- The byte itself has been seen to begin a character. -/
def nextByteInRange (l : Lexer) : List Utf8.Range → Bool × Lexer
  | [] => (true, l)
  | (lo, hi) :: ranges =>
    match l.get.current with
    | some c =>
      if lo ≤ c ∧ c ≤ hi then (l.get.add c).nextByteInRange ranges
      else l.get.fail (lit "invalid string: ill-formed UTF-8 byte")
    | none => l.get.fail (lit "invalid string: ill-formed UTF-8 byte")

def addAll (l : Lexer) (bs : Bytes) : Lexer := bs.foldl add l

def hexMessage : Bytes := lit "invalid string: '\\u' must be followed by 4 hex digits"

def surrogateMessage : Bytes :=
  lit "invalid string: surrogate U+DC00..U+DFFF must be followed by U+DC00..U+DFFF"

def IsHigh (codepoint : Nat) : Prop := 0xd800 ≤ codepoint ∧ codepoint ≤ 0xdbff

def IsLow (codepoint : Nat) : Prop := 0xdc00 ≤ codepoint ∧ codepoint ≤ 0xdfff

instance (codepoint : Nat) : Decidable (IsHigh codepoint) := inferInstanceAs (Decidable (_ ∧ _))

instance (codepoint : Nat) : Decidable (IsLow codepoint) := inferInstanceAs (Decidable (_ ∧ _))

/-- The character of a surrogate pair. -/
def ofPair (codepoint1 codepoint2 : Nat) : Nat := codepoint1 <<< 10 + codepoint2 - 0x35fdc00

/-- A `\u` escape, behind the `u`. -/
def scanUnicode (l : Lexer) : Bool × Lexer :=
  match l.getCodepoint 0 codepointFactors with
  | (none, l) => l.fail hexMessage
  | (some codepoint1, l) =>
    if IsHigh codepoint1 then
      if l.get.current = some 0x5c then
        if l.get.get.current = some 0x75 then
          match l.get.get.getCodepoint 0 codepointFactors with
          | (none, l) => l.fail hexMessage
          | (some codepoint2, l) =>
            if IsLow codepoint2 then (true, l.addAll (Utf8.encode (ofPair codepoint1 codepoint2)))
            else l.fail surrogateMessage
        else l.get.get.fail surrogateMessage
      else l.get.fail surrogateMessage
    else if IsLow codepoint1 then
      l.fail (lit "invalid string: surrogate U+DC00..U+DFFF must follow U+D800..U+DBFF")
    else (true, l.addAll (Utf8.encode codepoint1))

/-- What is behind a backslash. -/
def scanEscape (l : Lexer) : Bool × Lexer :=
  let l := l.get
  if l.current = some 0x22 then (true, l.add 0x22)
  else if l.current = some 0x5c then (true, l.add 0x5c)
  else if l.current = some 0x2f then (true, l.add 0x2f)
  else if l.current = some 0x62 then (true, l.add 0x08)
  else if l.current = some 0x66 then (true, l.add 0x0c)
  else if l.current = some 0x6e then (true, l.add 0x0a)
  else if l.current = some 0x72 then (true, l.add 0x0d)
  else if l.current = some 0x74 then (true, l.add 0x09)
  else if l.current = some 0x75 then l.scanUnicode
  else l.fail (lit "invalid string: forbidden character after backslash")

def controlNames : List Bytes :=
  [lit "NUL", lit "SOH", lit "STX", lit "ETX", lit "EOT", lit "ENQ", lit "ACK", lit "BEL", lit "BS", lit "HT", lit "LF",
    lit "VT", lit "FF", lit "CR", lit "SO", lit "SI", lit "DLE", lit "DC1", lit "DC2", lit "DC3", lit "DC4", lit "NAK",
    lit "SYN", lit "ETB", lit "CAN", lit "EM", lit "SUB", lit "ESC", lit "FS", lit "GS", lit "RS", lit "US"]

/-- `%.4X`. -/
def hexUpper4 (n : Nat) : Bytes := (hex4 n).map fun b => if 97 ≤ b then b - 32 else b

def controlMessage (c : UInt8) : Bytes :=
  lit "invalid string: control character U+" ++ hexUpper4 c.toNat ++ lit " (" ++ controlNames.getD c.toNat [] ++
    lit ") must be escaped to \\u" ++ hexUpper4 c.toNat ++
    if c = 0x08 then lit " or \\b" else if c = 0x09 then lit " or \\t" else if c = 0x0a then lit " or \\n"
    else if c = 0x0c then lit " or \\f" else if c = 0x0d then lit " or \\r" else []

/-- From behind the opening quote to the closing one. Every turn takes a character; the fuel is more than
there are. -/
def scanStringLoop : Nat → Lexer → TokenType × Lexer
  | 0, l => l.error []
  | fuel + 1, l =>
    let l := l.get
    match l.current with
    | none => l.error (lit "invalid string: missing closing quote")
    | some c =>
      if c = 0x22 then (.valueString, l)
      else if c = 0x5c then
        if l.scanEscape.1 then scanStringLoop fuel l.scanEscape.2 else (.parseError, l.scanEscape.2)
      else if c ≤ 0x1f then l.error (controlMessage c)
      else if c ≤ 0x7f then scanStringLoop fuel (l.add c)
      else
        -- the cases of a byte from 0x80 on, each with the ranges of the bytes behind it
        match Utf8.follow c with
        | some rs =>
          if ((l.add c).nextByteInRange rs).1 then scanStringLoop fuel ((l.add c).nextByteInRange rs).2
          else (.parseError, ((l.add c).nextByteInRange rs).2)
        | none => l.error (lit "invalid string: ill-formed UTF-8 byte")

def scanString (l : Lexer) : TokenType × Lexer := scanStringLoop (l.input.length + 1) l.reset

/-! ### Numbers

One definition for each label. The character read last is the current one. -/

/-- Nothing if the value is out of range. -/
def strtoull (digits : Bytes) : Option UInt64 :=
  if digitsValue 10 digits < 2 ^ 64 then some (digitsValue 10 digits).toUInt64 else none

/-- Of a text with a minus sign. -/
def strtoll (text : Bytes) : Option Int64 :=
  if digitsValue 10 text.tail ≤ 2 ^ 63 then some (Int64.ofInt (-digitsValue 10 text.tail)) else none

def isDecimal (c : Option UInt8) : Bool := c.any isDigit

def isExponent (c : Option UInt8) : Bool := c == some 0x65 || c == some 0x45

/-- `add(current)`. -/
def addCurrent (l : Lexer) : Lexer := l.addAll l.current.toList

section
variable (strtod : Bytes → Double)

def scanNumberDone (l : Lexer) (numberType : TokenType) : TokenType × Lexer :=
  let l := l.unget
  let float := (TokenType.valueFloat, { l with valueFloat := strtod l.tokenBuffer })
  if numberType = .valueUnsigned then
    match strtoull l.tokenBuffer with
    | some x => (.valueUnsigned, { l with valueUnsigned := x })
    | none => float
  else if numberType = .valueInteger then
    match strtoll l.tokenBuffer with
    | some x => (.valueInteger, { l with valueInteger := x })
    | none => float
  else float

/-- Digits, one after the other, and the character behind them. The list is what is left to read. -/
def scanDigits (l : Lexer) : Bytes → Lexer
  | [] => l.get
  | _ :: input => if isDecimal l.get.current then scanDigits l.get.addCurrent input else l.get

def scanNumberAny2 (l : Lexer) : TokenType × Lexer :=
  scanNumberDone strtod (l.scanDigits l.input) .valueFloat

def scanNumberSign (l : Lexer) : TokenType × Lexer :=
  let l := l.get
  if isDecimal l.current then scanNumberAny2 strtod l.addCurrent
  else l.error (lit "invalid number; expected digit after exponent sign")

def scanNumberExponent (l : Lexer) : TokenType × Lexer :=
  let l := l.get
  if l.current = some 0x2b ∨ l.current = some 0x2d then scanNumberSign strtod l.addCurrent
  else if isDecimal l.current then scanNumberAny2 strtod l.addCurrent
  else l.error (lit "invalid number; expected '+', '-', or digit after exponent")

def scanNumberDecimal2 (l : Lexer) : TokenType × Lexer :=
  let l := l.scanDigits l.input
  if isExponent l.current then scanNumberExponent strtod l.addCurrent
  else scanNumberDone strtod l .valueFloat

def scanNumberDecimal1 (l : Lexer) : TokenType × Lexer :=
  let l := l.get
  if isDecimal l.current then scanNumberDecimal2 strtod l.addCurrent
  else l.error (lit "invalid number; expected digit after '.'")

/-- What may follow the integer part. -/
def scanNumberInteger (l : Lexer) (numberType : TokenType) : TokenType × Lexer :=
  if l.current = some 0x2e then scanNumberDecimal1 strtod l.addCurrent
  else if isExponent l.current then scanNumberExponent strtod l.addCurrent
  else scanNumberDone strtod l numberType

def scanNumberAny1 (l : Lexer) (numberType : TokenType) : TokenType × Lexer :=
  scanNumberInteger strtod (l.scanDigits l.input) numberType

def scanNumberZero (l : Lexer) (numberType : TokenType) : TokenType × Lexer :=
  scanNumberInteger strtod l.get numberType

def scanNumberMinus (l : Lexer) : TokenType × Lexer :=
  let l := l.get
  if l.current = some 0x30 then scanNumberZero strtod l.addCurrent .valueInteger
  else if isDecimal l.current then scanNumberAny1 strtod l.addCurrent .valueInteger
  else l.error (lit "invalid number; expected digit after '-'")

/-- The current character is a minus sign or a digit. -/
def scanNumber (l : Lexer) : TokenType × Lexer :=
  let l := l.reset
  if l.current = some 0x2d then scanNumberMinus strtod l.addCurrent
  else if l.current = some 0x30 then scanNumberZero strtod l.addCurrent .valueUnsigned
  else scanNumberAny1 strtod l.addCurrent .valueUnsigned

end

/-! ### The scanner -/

/-- The first letter is the current character. -/
def scanLiteral (l : Lexer) (type : TokenType) : Bytes → TokenType × Lexer
  | [] => (type, l)
  | c :: text => if l.get.current = some c then l.get.scanLiteral type text else l.get.error (lit "invalid literal")

def skipBom (l : Lexer) : Bool × Lexer :=
  if l.get.current = some 0xef then
    if l.get.get.current = some 0xbb then (l.get.get.get.current == some 0xbf, l.get.get.get)
    else (false, l.get.get)
  else (true, l.get.unget)

def isBlank (c : Option UInt8) : Bool := c == some 0x20 || c == some 0x09 || c == some 0x0a || c == some 0x0d

/-- The next character that is no white space. The list is what is left to read. -/
def skipBlanks (l : Lexer) : Bytes → Lexer
  | [] => l.get
  | _ :: input => if isBlank l.get.current then l.get.skipBlanks input else l.get

section
variable (strtod : Bytes → Double)

/-- The token that begins with the current character. -/
def scanToken (l : Lexer) : TokenType × Lexer :=
  match l.current with
  | none => (.endOfInput, l)
  | some c =>
    if c = 0x5b then (.beginArray, l)
    else if c = 0x5d then (.endArray, l)
    else if c = 0x7b then (.beginObject, l)
    else if c = 0x7d then (.endObject, l)
    else if c = 0x3a then (.nameSeparator, l)
    else if c = 0x2c then (.valueSeparator, l)
    else if c = 0x74 then l.scanLiteral .literalTrue (lit "rue")
    else if c = 0x66 then l.scanLiteral .literalFalse (lit "alse")
    else if c = 0x6e then l.scanLiteral .literalNull (lit "ull")
    else if c = 0x22 then l.scanString
    else if c = 0x2d ∨ isDigit c then scanNumber strtod l
    else if c = 0 then (.endOfInput, l)
    else l.error (lit "invalid literal")

def scan (l : Lexer) : TokenType × Lexer :=
  let bom := if l.position.charsReadTotal = 0 then l.skipBom else (true, l)
  if bom.1 then scanToken strtod (bom.2.skipBlanks bom.2.input)
  else bom.2.error (lit "invalid BOM; must be 0xEF 0xBB 0xBF if given")

end

/-! ### Diagnostics -/

/-- `get_token_string`. -/
def getTokenString (l : Lexer) : Bytes :=
  l.tokenString.flatMap fun c => if c ≤ 0x1f then lit "<U+" ++ hexUpper4 c.toNat ++ lit ">" else [c]

end Lexer

end NplBrowser
