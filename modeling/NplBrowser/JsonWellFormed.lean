import NplBrowser.JsonGrammar

/-!
# What the parser builds

A value that is well-formed can be dumped: its strings and keys are UTF-8 (`serializer::decode` accepts
just that, `utf8_iff`), its numbers are finite, the keys of an object stand in order and each once. Whatever the
text, and also where the parser throws, the value it leaves is well-formed if the one before was
(`Parser.wellFormed_parse`).
-/

namespace NplBrowser

/-! ### The two readers of UTF-8 -/

/-- What has to follow, in a state of `decode`. -/
def utf8Follow : Nat → Option (List Utf8.Range)
  | 0 => some []
  | 2 => some [Utf8.tail]
  | 3 => some [Utf8.tail, Utf8.tail]
  | 4 => some [(0xa0, 0xbf), Utf8.tail]
  | 5 => some [(0x80, 0x9f), Utf8.tail]
  | 6 => some [(0x90, 0xbf), Utf8.tail, Utf8.tail]
  | 7 => some [Utf8.tail, Utf8.tail, Utf8.tail]
  | 8 => some [(0x80, 0x8f), Utf8.tail, Utf8.tail]
  | _ => none

/-- The same step on the ranges. -/
def utf8Next (b : UInt8) : Option (List Utf8.Range) → Option (List Utf8.Range)
  | none => none
  | some [] => Utf8.follow b
  | some (r :: rs) => if Utf8.InRange b r then some rs else none

theorem utf8Follow_decode {n : Nat} (hn : n < 9) (b : UInt8) :
    utf8Decode n b < 9 ∧ utf8Follow (utf8Decode n b) = utf8Next b (utf8Follow n) := by
  have : ∀ n, n < 9 → ∀ b, b < 256 → utf8Decode n b.toUInt8 < 9 ∧
      utf8Follow (utf8Decode n b.toUInt8) = utf8Next b.toUInt8 (utf8Follow n) := by decide +kernel
  simpa using this n hn b.toNat b.toNat_lt

theorem accepts_cons_iff {rs : List Utf8.Range} {b : UInt8} {s : Bytes} : Utf8.accepts rs (b :: s) = true ↔
    ∃ rs', utf8Next b (some rs) = some rs' ∧ Utf8.accepts rs' s = true := by
  cases rs with
  | nil =>
    rw [Utf8.accepts, utf8Next]
    cases Utf8.follow b <;> simp
  | cons r rs =>
    rw [Utf8.accepts, utf8Next, Bool.and_eq_true, decide_eq_true_iff]
    by_cases h : Utf8.InRange b r <;> simp [h]

theorem foldl_utf8Decode {s : Bytes} : ∀ {n : Nat}, n < 9 →
    (s.foldl utf8Decode n = 0 ↔ ∃ rs, utf8Follow n = some rs ∧ Utf8.accepts rs s = true) := by
  induction s with
  | nil =>
    have : ∀ n, n < 9 → (n = 0 ↔ utf8Follow n = some []) := by decide +kernel
    intro n hn
    rw [List.foldl_nil, this n hn]
    constructor
    · exact fun h => ⟨[], h, rfl⟩
    · rintro ⟨_ | ⟨r, rs⟩, h, ha⟩
      · exact h
      · cases ha
  | cons b s ih =>
    intro n hn
    obtain ⟨hlt, hnext⟩ := utf8Follow_decode hn b
    rw [List.foldl_cons, ih hlt, hnext]
    cases utf8Follow n with
    | none => simp [utf8Next]
    | some rs =>
      rw [← accepts_cons_iff]
      simp

theorem utf8_iff {s : Bytes} : utf8 s = true ↔ Utf8.WellFormed s := by
  rw [utf8, beq_iff_eq, foldl_utf8Decode (by decide), ← Utf8.accepts_iff]
  exact ⟨fun ⟨rs, h, ha⟩ => by cases h; exact ha, fun h => ⟨[], rfl, h⟩⟩

/-! ### Well-formed values -/

namespace Json

def elems : Json → List Json
  | array l => l
  | _ => []

/-- `P` holds of the value and of every value in it. -/
inductive Every (P : Json → Prop) : Json → Prop
  | mk {j : Json} (h : P j) (hl : ∀ i ∈ j.elems, Every P i) (hfs : ∀ e ∈ j.fields, Every P e.2) : Every P j

theorem Every.self {P : Json → Prop} {j : Json} (h : Every P j) : P j := by
  cases h
  assumption

theorem Every.imp {P Q : Json → Prop} (hPQ : ∀ j, P j → Q j) {j : Json} (h : Every P j) : Every Q j := by
  induction h with
  | mk h _ _ ihl ihfs => exact .mk (hPQ _ h) ihl ihfs

/-- The keys of an object, as those of a `std::map`. -/
def HasOrder (j : Json) : Prop := Assoc.Ordered j.fields

/-- A string or the keys of an object. -/
def IsText : Json → Prop
  | string s => utf8 s = true
  | object fs => ∀ e ∈ fs, utf8 e.1 = true
  | _ => True

structure Proper (j : Json) : Prop where
  order : j.HasOrder
  text : j.IsText
  finite : j.isFinite = true

def WellFormed (j : Json) : Prop := Every Proper j

theorem wellFormed_array_iff {l : List Json} : (array l).WellFormed ↔ ∀ j ∈ l, j.WellFormed := by
  constructor
  · rintro ⟨-, hl, -⟩
    exact hl
  · exact fun h => .mk ⟨.nil, trivial, rfl⟩ h (by simp [fields])

theorem wellFormed_object_iff {fs : List (Bytes × Json)} :
    (object fs).WellFormed ↔ Assoc.Ordered fs ∧ ∀ e ∈ fs, utf8 e.1 = true ∧ e.2.WellFormed := by
  constructor
  · rintro ⟨hproper, -, hfs⟩
    exact ⟨hproper.order, fun e he => ⟨hproper.text e he, hfs e he⟩⟩
  · exact fun ⟨horder, h⟩ => .mk ⟨horder, fun e he => (h e he).1, rfl⟩ (by simp [elems]) fun e he => (h e he).2

theorem wellFormed_string_iff {s : Bytes} : (string s).WellFormed ↔ utf8 s = true := by
  constructor
  · exact fun h => h.self.text
  · exact fun h => .mk ⟨.nil, h, rfl⟩ (by simp [elems]) (by simp [fields])

/-- Neither a string nor a container. -/
def isScalar : Json → Bool
  | string _ | array _ | object _ => false
  | _ => true

theorem wellFormed_of_isScalar {j : Json} (h : j.isScalar = true) (hfinite : j.isFinite = true) : j.WellFormed := by
  cases j with
  | string | array | object => cases h
  | _ => exact .mk ⟨.nil, trivial, hfinite⟩ (by simp [elems]) (by simp [fields])

mutual

/-- Such a value can be dumped. -/
theorem WellFormed.dumps : ∀ {j : Json}, j.WellFormed → j.dumps = true
  | null, _ | boolean _, _ | integer _, _ | unsigned _, _ | float _, _ => rfl
  | string _, h => wellFormed_string_iff.1 h
  | array _, h => dumpsList_of_wellFormed (wellFormed_array_iff.1 h)
  | object _, h => dumpsFields_of_wellFormed (wellFormed_object_iff.1 h).2

theorem dumpsList_of_wellFormed : ∀ {l : List Json}, (∀ j ∈ l, j.WellFormed) → dumpsList l = true
  | [], _ => rfl
  | j :: l, h => by
    rw [dumpsList, (h j (by simp)).dumps, dumpsList_of_wellFormed fun i hi => h i (by simp [hi])]
    rfl

theorem dumpsFields_of_wellFormed : ∀ {fs : List (Bytes × Json)}, (∀ e ∈ fs, utf8 e.1 = true ∧ e.2.WellFormed) →
    dumpsFields fs = true
  | [], _ => rfl
  | (k, j) :: fs, h => by
    obtain ⟨hk, hj⟩ := h (k, j) (by simp)
    rw [dumpsFields, hk, hj.dumps, dumpsFields_of_wellFormed fun e he => h e (by simp [he])]
    rfl

end

theorem WellFormed.insert {fs : List (Bytes × Json)} {k : Bytes} {v : Json} (h : (object fs).WellFormed)
    (hk : utf8 k = true) (hv : v.WellFormed) : (object (Assoc.insert k v fs)).WellFormed := by
  rw [wellFormed_object_iff] at h ⊢
  refine ⟨h.1.insert k v, fun e he => ?_⟩
  rcases Assoc.mem_insert he with rfl | he
  exacts [⟨hk, hv⟩, h.2 e he]

end Json

/-! ### The value under construction -/

/-- What a container holds is well-formed, and so is what will be put at its key. -/
def Container.Good : Container → Prop
  | array elems => ∀ j ∈ elems, j.WellFormed
  | object members element => (Json.object members).WellFormed ∧ ∀ k, element = some k → utf8 k = true

namespace Container

variable {c : Container} {v : Json} {k : Bytes}

theorem Good.toJson (h : c.Good) : c.toJson.WellFormed := by
  cases c with
  | array => exact Json.wellFormed_array_iff.2 h
  | object => exact h.1

theorem Good.put (h : c.Good) (hv : v.WellFormed) : (c.put v).Good := by
  cases c with
  | array elems =>
    intro j hj
    rcases List.mem_append.1 hj with hj | hj
    · exact h j hj
    · rwa [List.mem_singleton.1 hj]
  | object members element =>
    cases element with
    | none => exact h
    | some k => exact ⟨h.1.insert (h.2 k rfl) hv, h.2⟩

theorem Good.key (h : c.Good) (hk : utf8 k = true) : (c.key k).Good := by
  cases c with
  | array => exact h
  | object members element =>
    refine ⟨?_, fun k' hk' => by rwa [← Option.some.inj hk']⟩
    split_ifs
    · exact h.1
    · exact h.1.insert hk (Json.wellFormed_of_isScalar rfl rfl)

end Container

structure Dom.Good (d : Dom) : Prop where
  root : d.root.WellFormed
  stack : ∀ c ∈ d.stack, c.Good

namespace Dom

variable {d : Dom} {v : Json} {k : Bytes}

theorem Good.cons {c : Container} (h : d.Good) (hc : c.Good) : ({ d with stack := c :: d.stack } : Dom).Good :=
  ⟨h.root, List.forall_mem_cons.2 ⟨hc, h.stack⟩⟩

theorem Good.handleValue (h : d.Good) (hv : v.WellFormed) : (d.handleValue v).Good := by
  obtain ⟨root, _ | ⟨c, stack⟩⟩ := d
  · exact ⟨hv, h.stack⟩
  · obtain ⟨hc, hstack⟩ := List.forall_mem_cons.1 h.stack
    exact ⟨h.root, List.forall_mem_cons.2 ⟨hc.put hv, hstack⟩⟩

theorem Good.key (h : d.Good) (hk : utf8 k = true) : (d.key k).Good := by
  obtain ⟨root, _ | ⟨c, stack⟩⟩ := d
  · exact h
  · obtain ⟨hc, hstack⟩ := List.forall_mem_cons.1 h.stack
    exact ⟨h.root, List.forall_mem_cons.2 ⟨hc.key hk, hstack⟩⟩

theorem Good.pop (h : d.Good) : d.pop.Good := by
  obtain ⟨root, _ | ⟨c, stack⟩⟩ := d
  · exact h
  · obtain ⟨hc, hstack⟩ := List.forall_mem_cons.1 h.stack
    exact Good.handleValue ⟨h.root, hstack⟩ hc.toJson

theorem Good.startArray (h : d.Good) : d.startArray.Good := h.cons (by simp [Container.Good])

theorem Good.startObject (h : d.Good) : d.startObject.Good :=
  h.cons ⟨Json.wellFormed_object_iff.2 ⟨Assoc.ordered_nil, by simp⟩, nofun⟩

theorem wellFormed_foldl {stack : List Container} : ∀ {v : Json}, v.WellFormed → (∀ c ∈ stack, c.Good) →
    (stack.foldl (fun v g => (g.put v).toJson) v).WellFormed := by
  induction stack with
  | nil => exact fun hv _ => hv
  | cons c stack ih =>
    intro v hv h
    rw [List.forall_mem_cons] at h
    exact ih (h.1.put hv).toJson h.2

theorem Good.value (h : d.Good) : d.value.WellFormed := by
  obtain ⟨root, _ | ⟨c, stack⟩⟩ := d
  · exact h.root
  · obtain ⟨hc, hstack⟩ := List.forall_mem_cons.1 h.stack
    exact wellFormed_foldl hc.toJson hstack

end Dom

/-! ### The parser -/

namespace Parser

variable {strtod : Bytes → Double} {p : Parser}

theorem utf8_scan {l : Lexer} (h : (Lexer.scan strtod l).1 = .valueString) :
    utf8 (Lexer.scan strtod l).2.tokenBuffer = true := by
  cases ht : l.text with
  | none => cases (Lexer.scan_error strtod ht).symm.trans h
  | some text =>
    have htoken : Lexer.token (Lexer.scan strtod l) = some (.string (Lexer.scan strtod l).2.tokenBuffer) := by
      rw [Lexer.token, h]
    obtain ⟨w, t, -, -, htext⟩ := (Lexer.token_scan_iff ht).1 ⟨htoken, rfl⟩
    generalize hs : JsonToken.string (Lexer.scan strtod l).2.tokenBuffer = a at htext
    cases htext with
    | punctuation h =>
      rw [← hs] at h
      simp [punctuation] at h
    | word h =>
      rw [← hs] at h
      simp [words] at h
    | string h =>
      cases hs
      exact utf8_iff.2 h.wellFormed
    | number => cases hs

/-- Between two turns. -/
structure Good (p : Parser) : Prop where
  dom : p.dom.Good
  text : p.lastToken = .valueString → utf8 p.lexer.tokenBuffer = true

theorem Good.getToken (h : p.dom.Good) : (getToken strtod p).Good := ⟨h, utf8_scan⟩

theorem Good.parseKey (h : p.Good) (states : List Bool) : (parseKey strtod p states).1.Good := by
  unfold Parser.parseKey
  split_ifs with hkey
  · exact h
  · have hq : (Parser.getToken strtod { p with dom := p.dom.key p.lexer.tokenBuffer }).Good :=
      .getToken (h.dom.key (h.text (not_not.1 hkey)))
    dsimp only
    split_ifs
    · exact hq
    · exact .getToken hq.dom

theorem Good.scalar {v : Json} (h : p.Good) (hv : v.WellFormed) : (p.scalar v).1.Good := ⟨h.dom.handleValue hv, h.text⟩

theorem Good.parseValue (h : p.Good) : (parseValue strtod p).1.Good := by
  unfold Parser.parseValue
  split
  · have hq : (Parser.getToken strtod { p with dom := p.dom.startObject }).Good := .getToken h.dom.startObject
    dsimp only
    split_ifs
    · exact ⟨hq.dom.pop, hq.text⟩
    · exact hq.parseKey _
  · have hq : (Parser.getToken strtod { p with dom := p.dom.startArray }).Good := .getToken h.dom.startArray
    dsimp only
    split_ifs
    · exact ⟨hq.dom.pop, hq.text⟩
    · exact ⟨hq.dom, hq.text⟩
  · split_ifs with hfinite
    · exact h.scalar (Json.wellFormed_of_isScalar rfl hfinite)
    · exact h
  · exact h.scalar (Json.wellFormed_of_isScalar rfl rfl)
  · exact h.scalar (Json.wellFormed_of_isScalar rfl rfl)
  · exact h.scalar (Json.wellFormed_of_isScalar rfl rfl)
  · exact h.scalar (Json.wellFormed_of_isScalar rfl rfl)
  · exact h.scalar (Json.wellFormed_string_iff.2 (h.text ‹_›))
  · exact h.scalar (Json.wellFormed_of_isScalar rfl rfl)
  all_goals exact h

theorem Good.evaluate (h : p.Good) : (evaluate strtod p).1.Good := by
  have hq : (Parser.getToken strtod p).Good := .getToken h.dom
  unfold Parser.evaluate
  split
  · exact h
  · dsimp only
    split_ifs
    · exact .getToken hq.dom
    · exact ⟨hq.dom.pop, hq.text⟩
    · exact hq
  · dsimp only
    split_ifs
    · exact Good.parseKey (.getToken hq.dom) _
    · exact ⟨hq.dom.pop, hq.text⟩
    · exact hq

theorem Good.step {x : Parser × Next} (h : x.1.Good) : (step strtod x).1.Good := by
  obtain ⟨p, next⟩ := x
  cases next with
  | value => exact h.parseValue
  | evaluation => exact h.evaluate
  | done => exact h
  | throws => exact h

theorem Good.run (n : Nat) : ∀ {x : Parser × Next}, x.1.Good → (run strtod n x).1.Good := by
  induction n with
  | zero => exact id
  | succ n ih => exact fun h => ih h.step

theorem parse_fst (strtod : Bytes → Double) (strict : Bool) (text : Bytes) (root : Json) :
    (parse strtod strict text root).1 = (saxParseInternal strtod (ofText strtod text root)).1.dom.value := by
  have hfinal := saxParseInternal_isFinal strtod (ofText strtod text root)
  rcases hsax : saxParseInternal strtod (ofText strtod text root) with ⟨q, next⟩
  rw [hsax] at hfinal
  cases next with
  | value => cases hfinal
  | evaluation => cases hfinal
  | throws e => rw [parse_of_throws hsax]
  | done =>
    rw [parse_of_done hsax]
    split_ifs <;> rfl

/-- Whatever the text, and whether or not the parser throws. -/
theorem wellFormed_parse (strtod : Bytes → Double) (strict : Bool) (text : Bytes) {root : Json} (h : root.WellFormed) :
    (parse strtod strict text root).1.WellFormed := by
  have hp : (ofText strtod text root).Good := .getToken ⟨h, by simp⟩
  rw [parse_fst]
  exact (Good.run _ hp : (saxParseInternal strtod (ofText strtod text root)).1.Good).dom.value

/-- A text that breaks off in an object. -/
theorem wellFormed_parse_broken : (parse (fun _ => .zero) true (lit "\x7b\"a\":[1,") .null).1.WellFormed :=
  wellFormed_parse _ _ _ (Json.wellFormed_of_isScalar rfl rfl)

end Parser

end NplBrowser
