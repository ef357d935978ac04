import NplBrowser.JsonTokens

/-!
# The parser of the JSON library (`json.hpp`, `parser`)

The state machine of `sax_parse_internal` over the tokens of the lexer, with the events it gives to
`json_sax_dom_parser` and the exceptions it throws; there is no callback. A loop turn parses a value that
begins with the last token, or evaluates the state after one. The containers under construction are kept from
the innermost outwards, each with what it holds already, instead of pointers into the root; `Dom.value` is
the root that the pointers would have made, also where an exception leaves it.
-/

namespace NplBrowser

inductive ParseException
  /-- 101, with the number of the byte. -/
  | parseError (byte : Nat) (what : Bytes)
  /-- 406. -/
  | outOfRange (what : Bytes)
deriving DecidableEq

/-! ### The value under construction (`json_sax_dom_parser`) -/

inductive Container
  | array (elems : List Json)
  /-- With the key of `object_element`. -/
  | object (members : List (Bytes × Json)) (element : Option Bytes)

namespace Container

def toJson : Container → Json
  | array elems => .array elems
  | object members _ => .object members

/-- A value at the end of an array, or at the key. -/
def put (v : Json) : Container → Container
  | array elems => array (elems ++ [v])
  | object members (some k) => object (Assoc.insert k v members) (some k)
  | object members none => object members none

/-- `operator[]` inserts null at a new key. -/
def key (k : Bytes) : Container → Container
  | array elems => array elems
  | object members _ =>
    object (if (Assoc.find? k members).isSome then members else Assoc.insert k .null members) (some k)

end Container

/-- `ref_stack`, the innermost container first. -/
structure Dom where
  root : Json
  stack : List Container := []

namespace Dom

def handleValue (d : Dom) (v : Json) : Dom :=
  match d.stack with
  | [] => { d with root := v }
  | f :: stack => { d with stack := f.put v :: stack }

def startArray (d : Dom) : Dom := { d with stack := .array [] :: d.stack }

def startObject (d : Dom) : Dom := { d with stack := .object [] none :: d.stack }

def key (d : Dom) (k : Bytes) : Dom :=
  match d.stack with
  | [] => d
  | f :: stack => { d with stack := f.key k :: stack }

/-- `end_array`, `end_object`: what the innermost container has become is in its place already. -/
def pop (d : Dom) : Dom :=
  match d.stack with
  | [] => d
  | f :: stack => { d with stack }.handleValue f.toJson

/-- What the root has become. -/
def value (d : Dom) : Json :=
  match d.stack with
  | [] => d.root
  | f :: stack => stack.foldl (fun v g => (g.put v).toJson) f.toJson

end Dom

/-! ### The parser -/

structure Parser where
  lexer : Lexer
  lastToken : TokenType := .uninitialized
  dom : Dom
  /-- The innermost container first; an array is `true`. -/
  states : List Bool := []

namespace Parser

/-- How `sax_parse_internal` goes on. -/
inductive Next
  /-- A value begins with the last token. -/
  | value
  /-- A value is complete. -/
  | evaluation
  | done
  | throws (e : ParseException)

def Next.isFinal : Next → Bool
  | .done | .throws _ => true
  | .value | .evaluation => false

def exceptionMessage (p : Parser) (expected : TokenType) (context : Bytes) : Bytes :=
  lit "syntax error " ++ (if context = [] then [] else lit "while parsing " ++ context ++ lit " ") ++ lit "- " ++
    (if p.lastToken = .parseError then
      p.lexer.errorMessage ++ lit "; last read: '" ++ p.lexer.getTokenString ++ lit "'"
    else lit "unexpected " ++ p.lastToken.typeName) ++
    if expected = .uninitialized then [] else lit "; expected " ++ expected.typeName

def positionString (pos : LexerPosition) : Bytes :=
  lit " at line " ++ decimal (pos.linesRead + 1) ++ lit ", column " ++ decimal pos.charsReadCurrentLine

/-- A syntax error. -/
def syntaxError (p : Parser) (expected : TokenType) (context : Bytes) : ParseException :=
  .parseError p.lexer.position.charsReadTotal (lit "[json.exception.parse_error.101] parse error" ++
    positionString p.lexer.position ++ lit ": " ++ p.exceptionMessage expected context)

def numberOverflow (p : Parser) : ParseException :=
  .outOfRange (lit "[json.exception.out_of_range.406] number overflow parsing '" ++ p.lexer.getTokenString ++ lit "'")

/-- A value that is no container. -/
def scalar (p : Parser) (v : Json) : Parser × Next := ({ p with dom := p.dom.handleValue v }, .evaluation)

def unexpected (p : Parser) (expected : TokenType) (context : Bytes) : Parser × Next :=
  (p, .throws (p.syntaxError expected context))

section
variable (strtod : Bytes → Double)

def getToken (p : Parser) : Parser :=
  { p with lexer := (Lexer.scan strtod p.lexer).2, lastToken := (Lexer.scan strtod p.lexer).1 }

/-- The key that the last token is, and the separator; `states` are those of its value. -/
def parseKey (p : Parser) (states : List Bool) : Parser × Next :=
  if p.lastToken ≠ .valueString then p.unexpected .valueString (lit "object key")
  else
    let p := getToken strtod { p with dom := p.dom.key p.lexer.tokenBuffer }
    if p.lastToken ≠ .nameSeparator then p.unexpected .nameSeparator (lit "object separator")
    else (getToken strtod { p with states }, .value)

def parseValue (p : Parser) : Parser × Next :=
  match p.lastToken with
  | .beginObject =>
    let p := getToken strtod { p with dom := p.dom.startObject }
    if p.lastToken = .endObject then ({ p with dom := p.dom.pop }, .evaluation)
    else parseKey strtod p (false :: p.states)
  | .beginArray =>
    let p := getToken strtod { p with dom := p.dom.startArray }
    if p.lastToken = .endArray then ({ p with dom := p.dom.pop }, .evaluation)
    else ({ p with states := true :: p.states }, .value)
  | .valueFloat =>
    if p.lexer.valueFloat.isFinite then p.scalar (.float p.lexer.valueFloat) else (p, .throws p.numberOverflow)
  | .literalFalse => p.scalar (.boolean false)
  | .literalNull => p.scalar .null
  | .literalTrue => p.scalar (.boolean true)
  | .valueInteger => p.scalar (.integer p.lexer.valueInteger)
  | .valueString => p.scalar (.string p.lexer.tokenBuffer)
  | .valueUnsigned => p.scalar (.unsigned p.lexer.valueUnsigned)
  | .parseError => p.unexpected .uninitialized (lit "value")
  | .uninitialized | .endArray | .endObject | .nameSeparator | .valueSeparator | .endOfInput | .literalOrValue =>
    p.unexpected .literalOrValue (lit "value")

def evaluate (p : Parser) : Parser × Next :=
  match p.states with
  | [] => (p, .done)
  | true :: states =>
    let p := getToken strtod p
    if p.lastToken = .valueSeparator then (getToken strtod p, .value)
    else if p.lastToken = .endArray then ({ p with dom := p.dom.pop, states }, .evaluation)
    else p.unexpected .endArray (lit "array")
  | false :: states =>
    let p := getToken strtod p
    if p.lastToken = .valueSeparator then parseKey strtod (getToken strtod p) p.states
    else if p.lastToken = .endObject then ({ p with dom := p.dom.pop, states }, .evaluation)
    else p.unexpected .endObject (lit "object")

/-- A turn of the loop. -/
def step : Parser × Next → Parser × Next
  | (p, .value) => parseValue strtod p
  | (p, .evaluation) => evaluate strtod p
  | (p, .done) => (p, .done)
  | (p, .throws e) => (p, .throws e)

def run : Nat → Parser × Next → Parser × Next
  | 0, x => x
  | n + 1, x => run n (step strtod x)

/-- Two turns for a byte are enough (`saxParseInternal_isFinal`). -/
def saxParseInternal (p : Parser) : Parser × Next := run strtod (2 * p.lexer.input.length + 4) (p, .value)

/-- The constructor, which reads the first token. -/
def ofText (text : Bytes) (root : Json) : Parser :=
  getToken strtod { lexer := { input := text }, dom := { root } }

/-- The result, which was `root` before, and the exception. -/
def parse (strict : Bool) (text : Bytes) (root : Json) : Json × Option ParseException :=
  let x := saxParseInternal strtod (ofText strtod text root)
  match x.2 with
  | .throws e => (x.1.dom.value, some e)
  | _ =>
    let p := getToken strtod x.1
    if strict ∧ p.lastToken ≠ .endOfInput then (x.1.dom.value, some (p.syntaxError .endOfInput (lit "value")))
    else (x.1.dom.value, none)

end

end Parser

/-- `json::parse` of a whole text. -/
def Json.parse (strtod : Bytes → Double) (text : Bytes) : Except ParseException Json :=
  match Parser.parse strtod true text .null with
  | (_, some e) => .error e
  | (j, none) => .ok j

/-- `stream >> j`. -/
def Json.read (strtod : Bytes → Double) (text : Bytes) (j : Json) : Json × Option ParseException :=
  Parser.parse strtod false text j

/-! ### The loop ends

Every turn reads a byte, or completes a scalar, or is the last one. -/

namespace Parser

/-- How many turns there may still be. -/
def turns : Parser × Next → Nat
  | (p, .value) => if p.lastToken = .endOfInput then 1 else 2 * p.lexer.input.length + 3
  | (p, .evaluation) => 2 * p.lexer.input.length + 2
  | _ => 0

variable {strtod : Bytes → Double} {p : Parser} {x : Parser × Next}

/-- A token that is not the end takes a byte. -/
theorem length_getToken (h : (getToken strtod p).lastToken ≠ .endOfInput) :
    (getToken strtod p).lexer.input.length < p.lexer.input.length :=
  Lexer.length_scan h

variable (strtod) in
theorem turns_getToken (p : Parser) : turns (getToken strtod p, .value) ≤ 2 * p.lexer.input.length + 1 := by
  rw [turns]
  split_ifs with h
  · omega
  · have := length_getToken h
    omega

variable (strtod) in
theorem turns_parseKey (p : Parser) (states : List Bool) :
    turns (parseKey strtod p states) ≤ 2 * p.lexer.input.length + 1 := by
  unfold parseKey
  split_ifs with hkey
  · exact Nat.zero_le _
  · dsimp only
    split_ifs with hseparator
    · exact Nat.zero_le _
    · set q := getToken strtod { p with dom := p.dom.key p.lexer.tokenBuffer }
      have hq : q.lexer.input.length < p.lexer.input.length := length_getToken (by rw [not_not.1 hseparator]; decide)
      have := turns_getToken strtod { q with states }
      dsimp only at this
      omega

theorem turns_parseValue : turns (parseValue strtod p) < 2 * p.lexer.input.length + 3 := by
  have scalar : ∀ v, turns (p.scalar v) < 2 * p.lexer.input.length + 3 := fun v => Nat.lt_succ_self _
  unfold parseValue
  split
  · dsimp only
    set q := getToken strtod { p with dom := p.dom.startObject }
    have hq : q.lastToken ≠ .endOfInput → q.lexer.input.length < p.lexer.input.length := length_getToken
    split_ifs with hend
    · have := hq (by rw [hend]; decide)
      rw [turns]
      dsimp only
      omega
    · by_cases hkey : q.lastToken = .valueString
      · have := hq (by rw [hkey]; decide)
        have := turns_parseKey strtod q (false :: q.states)
        omega
      · rw [parseKey, if_pos hkey]
        exact Nat.succ_pos _
  · dsimp only
    set q := getToken strtod { p with dom := p.dom.startArray }
    have hq : q.lastToken ≠ .endOfInput → q.lexer.input.length < p.lexer.input.length := length_getToken
    split_ifs with hend
    · have := hq (by rw [hend]; decide)
      rw [turns]
      dsimp only
      omega
    · rw [turns]
      dsimp only
      split_ifs with hinput
      · omega
      · have := hq hinput
        omega
  · split_ifs
    · exact scalar _
    · exact Nat.succ_pos _
  · exact scalar _
  · exact scalar _
  · exact scalar _
  · exact scalar _
  · exact scalar _
  · exact scalar _
  all_goals exact Nat.succ_pos _

theorem turns_evaluate : turns (evaluate strtod p) < 2 * p.lexer.input.length + 2 := by
  unfold evaluate
  set q := getToken strtod p
  have hq : q.lastToken ≠ .endOfInput → q.lexer.input.length < p.lexer.input.length := length_getToken
  split
  · exact Nat.succ_pos _
  · dsimp only
    split_ifs with hcomma hend
    · have := hq (by rw [hcomma]; decide)
      have := turns_getToken strtod q
      omega
    · have := hq (by rw [hend]; decide)
      rw [turns]
      dsimp only
      omega
    · exact Nat.succ_pos _
  · dsimp only
    split_ifs with hcomma hend
    · have := hq (by rw [hcomma]; decide)
      set r := getToken strtod q
      have hr : r.lastToken ≠ .endOfInput → r.lexer.input.length < q.lexer.input.length := length_getToken
      by_cases hkey : r.lastToken = .valueString
      · have := hr (by rw [hkey]; decide)
        have := turns_parseKey strtod r q.states
        omega
      · rw [parseKey, if_pos hkey]
        exact Nat.succ_pos _
    · have := hq (by rw [hend]; decide)
      rw [turns]
      dsimp only
      omega
    · exact Nat.succ_pos _

variable (strtod) in
theorem turns_step (h : x.2.isFinal = false) : turns (step strtod x) < turns x := by
  obtain ⟨p, next⟩ := x
  cases next with
  | value =>
    rw [step, turns]
    split_ifs with hend
    · rw [parseValue, hend]
      exact Nat.one_pos
    · exact turns_parseValue
  | evaluation => exact turns_evaluate
  | done => cases h
  | throws => cases h

theorem step_of_isFinal (h : x.2.isFinal = true) : step strtod x = x := by
  obtain ⟨p, next⟩ := x
  cases next <;> first | rfl | cases h

theorem run_of_isFinal (h : x.2.isFinal = true) (n : Nat) : run strtod n x = x := by
  induction n with
  | zero => rfl
  | succ n ih => rw [run, step_of_isFinal h, ih]

theorem run_add (m n : Nat) (x : Parser × Next) : run strtod (m + n) x = run strtod n (run strtod m x) := by
  induction m generalizing x with
  | zero => rw [Nat.zero_add, run]
  | succ m ih => rw [Nat.succ_add, run, run, ih]

theorem isFinal_run {n : Nat} : ∀ {x : Parser × Next}, turns x ≤ n → (run strtod n x).2.isFinal = true := by
  induction n with
  | zero =>
    intro x h
    cases hx : x.2.isFinal with
    | true => exact hx
    | false => exact absurd (turns_step strtod hx) (by omega)
  | succ n ih =>
    intro x h
    rw [run]
    cases hx : x.2.isFinal with
    | true =>
      rw [step_of_isFinal hx, run_of_isFinal hx]
      exact hx
    | false =>
      have := turns_step strtod hx
      exact ih (by omega)

variable (strtod) in
/-- The loop is left. -/
theorem saxParseInternal_isFinal (p : Parser) : (saxParseInternal strtod p).2.isFinal = true := by
  refine isFinal_run ?_
  rw [turns]
  split_ifs <;> omega

/-- However many turns are made, the result is the same once there is one. -/
theorem saxParseInternal_eq {n : Nat} (h : (run strtod n (p, .value)).2.isFinal = true) :
    saxParseInternal strtod p = run strtod n (p, .value) := by
  have h' := saxParseInternal_isFinal strtod p
  rw [saxParseInternal] at h' ⊢
  set m := 2 * p.lexer.input.length + 4
  rw [← run_of_isFinal h' n, ← run_add, Nat.add_comm, run_add, run_of_isFinal h]

end Parser

end NplBrowser
