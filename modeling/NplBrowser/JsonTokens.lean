import NplBrowser.JsonNumbers

/-!
# The tokens of a JSON text

The tokens that may stand at the beginning of a text behind white space (`FirstToken`), and its end
(`EndText`). `Lexer.scan` finds exactly these (`Lexer.token_scan_iff`, `Lexer.scan_end_iff`), the first time
behind a byte order mark (`dropBom`), and is further on in the text each time (`Lexer.length_scan`).
-/

namespace NplBrowser

/-- What the parser has to know of a token. -/
inductive JsonToken
  | beginArray
  | endArray
  | beginObject
  | endObject
  | nameSeparator
  | valueSeparator
  | string (s : Bytes)
  | literal (j : Json)

def punctuation : List (UInt8 × JsonToken) :=
  [(0x5b, .beginArray), (0x5d, .endArray), (0x7b, .beginObject), (0x7d, .endObject), (0x3a, .nameSeparator),
    (0x2c, .valueSeparator)]

def words : List (Bytes × JsonToken) :=
  [(lit "true", .literal (.boolean true)), (lit "false", .literal (.boolean false)), (lit "null", .literal .null)]

def Json.isFinite : Json → Bool
  | float x => x.isFinite
  | _ => true

inductive TokenText (strtod : Bytes → Double) : Bytes → JsonToken → Bytes → Prop
  | punctuation {c : UInt8} {a : JsonToken} (h : (c, a) ∈ punctuation) (r : Bytes) : TokenText strtod [c] a r
  | word {t : Bytes} {a : JsonToken} (h : (t, a) ∈ words) (r : Bytes) : TokenText strtod t a r
  | string {t s : Bytes} (h : StringText t s) (r : Bytes) : TokenText strtod (0x22 :: (t ++ [0x22])) (.string s) r
  | number {t r : Bytes} {float : Bool} (h : NumberText t float r)
    (hfinite : (numberValue strtod t (numberType t float)).isFinite = true) :
    TokenText strtod t (.literal (numberValue strtod t (numberType t float))) r

/-- The text without the byte order mark, which has to be whole. -/
def dropBom (text : Bytes) : Option Bytes :=
  if text.head? = some 0xef then if text.take 3 = [0xef, 0xbb, 0xbf] then some (text.drop 3) else none
  else some text

def Blanks (t : Bytes) : Prop := ∀ c ∈ t, Lexer.isBlank (some c) = true

/-- The text begins with the token, behind white space, and goes on with the rest. -/
def FirstToken (strtod : Bytes → Double) (text : Bytes) (a : JsonToken) (r : Bytes) : Prop :=
  ∃ w t, text = w ++ (t ++ r) ∧ Blanks w ∧ TokenText strtod t a r

/-- There is nothing more, at least not before a NUL. -/
def EndText (text : Bytes) : Prop := ∃ w r, text = w ++ r ∧ Blanks w ∧ ∀ c ∈ r.head?, c = 0

namespace Lexer

variable {strtod : Bytes → Double} {l l' k m : Lexer} {t s r w : Bytes} {a : JsonToken}

/-- `none` for what is no token of a value: an error, the end of the input or a number out of range. -/
def token (x : TokenType × Lexer) : Option JsonToken :=
  match x.1 with
  | .beginArray => some .beginArray
  | .endArray => some .endArray
  | .beginObject => some .beginObject
  | .endObject => some .endObject
  | .nameSeparator => some .nameSeparator
  | .valueSeparator => some .valueSeparator
  | .literalTrue => some (.literal (.boolean true))
  | .literalFalse => some (.literal (.boolean false))
  | .literalNull => some (.literal .null)
  | .valueString => some (.string x.2.tokenBuffer)
  | .valueUnsigned => some (.literal (.unsigned x.2.valueUnsigned))
  | .valueInteger => some (.literal (.integer x.2.valueInteger))
  | .valueFloat => if x.2.valueFloat.isFinite then some (.literal (.float x.2.valueFloat)) else none
  | .uninitialized | .parseError | .endOfInput | .literalOrValue => none

/-! ### White space -/

theorem skipBlanks_spec : ∀ {input : Bytes} {l : Lexer}, l.input = input →
    ∃ (w : Bytes) (k : Lexer), Blanks w ∧ l.input = w ++ k.input ∧ isBlank k.input.head? = false ∧ l.skipBlanks input = k.get := by
  intro input
  induction input with
  | nil =>
    intro l hl
    refine ⟨[], l, by simp [Blanks], rfl, ?_, rfl⟩
    rw [hl]
    rfl
  | cons c input ih =>
    intro l hl
    have hc := current_of_input hl
    rw [skipBlanks]
    split_ifs with hb
    · rw [hc] at hb
      obtain ⟨w, k, hw, hk, hend, h⟩ := ih (input_of_input hl)
      refine ⟨c :: w, k, List.forall_mem_cons.2 ⟨hb, hw⟩, ?_, hend, h⟩
      rw [hl, List.cons_append, ← hk, input_of_input hl]
    · rw [current_get] at hb
      exact ⟨[], l, by simp [Blanks], rfl, Bool.eq_false_iff.2 hb, rfl⟩

theorem blanks_append_inj {r r' : Bytes} : ∀ {w w' : Bytes}, Blanks w → Blanks w' → isBlank r.head? = false →
    isBlank r'.head? = false → w ++ r = w' ++ r' → r = r' := by
  intro w
  induction w with
  | nil =>
    intro w' _ hw' hr _ h
    cases w' with
    | nil => exact h
    | cons c w' =>
      have hc := hw' c (by simp)
      have h : r = c :: (w' ++ r') := h
      rw [h] at hr
      exact absurd (hc.symm.trans hr) (by decide)
  | cons c w ih =>
    intro w' hw hw' hr hr' h
    cases w' with
    | nil =>
      have hc := hw c (by simp)
      have h : r' = c :: (w ++ r) := h.symm
      rw [h] at hr'
      exact absurd (hc.symm.trans hr') (by decide)
    | cons d w' =>
      exact ih (fun x hx => hw x (by simp [hx])) (fun x hx => hw' x (by simp [hx])) hr hr' (List.cons.inj h).2

/-! ### One token -/

theorem scanLiteral_cases {type : TokenType} : ∀ {text : Bytes} {l : Lexer},
    (l.scanLiteral type text).1 = .parseError ∨
      (l.scanLiteral type text).1 = type ∧ l.input = text ++ (l.scanLiteral type text).2.input := by
  intro text
  induction text with
  | nil => exact fun {l} => .inr ⟨rfl, rfl⟩
  | cons c text ih =>
    intro l
    rw [scanLiteral]
    split_ifs with hc
    · refine (ih (l := l.get)).imp_right fun h => ⟨h.1, ?_⟩
      rw [(eats_get hc).input, h.2]
      rfl
    · exact .inl rfl

theorem exists_scanLiteral {type : TokenType} : ∀ {text : Bytes} {l : Lexer}, l.input = text ++ r →
    ∃ l', l.scanLiteral type text = (type, l') ∧ l'.input = r := by
  intro text
  induction text with
  | nil => exact fun {l} hl => ⟨l, rfl, hl⟩
  | cons c text ih =>
    intro l hl
    obtain ⟨l', h, hl'⟩ := ih (input_of_input hl)
    refine ⟨l', ?_, hl'⟩
    rw [scanLiteral, if_pos (current_of_input hl), h]

theorem token_of_numberOf {x : TokenType × Lexer} {j : Json} (h : numberOf x = some j) :
    token x = if j.isFinite then some (.literal j) else none := by
  obtain ⟨type, l⟩ := x
  cases type <;> cases h <;> rfl

section
variable (strtod)

theorem scanToken_none (h : l.current = none) : scanToken strtod l = (.endOfInput, l) := by
  rw [scanToken, h]

variable {c : UInt8} (hc : l.current = some c)

include hc

theorem scanToken_zero (h : c = 0) : scanToken strtod l = (.endOfInput, l) := by
  rw [scanToken, hc, h]
  rfl

theorem scanToken_punctuation (h : (c, a) ∈ punctuation) :
    token (scanToken strtod l) = some a ∧ (scanToken strtod l).2 = l := by
  rw [scanToken, hc]
  simp only [punctuation, List.mem_cons, Prod.mk.injEq, List.not_mem_nil, or_false] at h
  rcases h with ⟨rfl, rfl⟩ | ⟨rfl, rfl⟩ | ⟨rfl, rfl⟩ | ⟨rfl, rfl⟩ | ⟨rfl, rfl⟩ | ⟨rfl, rfl⟩ <;> exact ⟨rfl, rfl⟩

theorem scanToken_true (h : c = 0x74) : scanToken strtod l = l.scanLiteral .literalTrue (lit "rue") := by
  rw [scanToken, hc, h]
  rfl

theorem scanToken_false (h : c = 0x66) : scanToken strtod l = l.scanLiteral .literalFalse (lit "alse") := by
  rw [scanToken, hc, h]
  rfl

theorem scanToken_null (h : c = 0x6e) : scanToken strtod l = l.scanLiteral .literalNull (lit "ull") := by
  rw [scanToken, hc, h]
  rfl

theorem scanToken_string (h : c = 0x22) : scanToken strtod l = l.scanString := by
  rw [scanToken, hc, h]
  rfl

theorem scanToken_number (h : c = 0x2d ∨ isDigit c = true) : scanToken strtod l = scanNumber strtod l := by
  have hne : ∀ d, ¬ (d = 0x2d ∨ isDigit d = true) → c ≠ d := fun d hd hcd => hd (hcd ▸ h)
  rw [scanToken, hc]
  dsimp only
  rw [if_neg (hne _ (by decide)), if_neg (hne _ (by decide)), if_neg (hne _ (by decide)), if_neg (hne _ (by decide)),
    if_neg (hne _ (by decide)), if_neg (hne _ (by decide)), if_neg (hne _ (by decide)), if_neg (hne _ (by decide)),
    if_neg (hne _ (by decide)), if_neg (hne _ (by decide)), if_pos h]

/-- What a character that is not the end of the input begins. -/
theorem scanToken_cases : (∃ a, (c, a) ∈ punctuation) ∨ c = 0x74 ∨ c = 0x66 ∨ c = 0x6e ∨ c = 0x22 ∨
    (c = 0x2d ∨ isDigit c = true) ∨ c = 0 ∨ scanToken strtod l = l.error (lit "invalid literal") := by
  by_contra h
  simp only [not_or, not_exists] at h
  obtain ⟨hp, h₇, h₈, h₉, h₁₀, hnumber, hzero, h⟩ := h
  have hp : ∀ e ∈ punctuation, c ≠ e.1 := fun e he hce => hp e.2 (hce ▸ he)
  simp only [punctuation, List.forall_mem_cons] at hp
  obtain ⟨h₁, h₂, h₃, h₄, h₅, h₆, -⟩ := hp
  refine h ?_
  rw [scanToken, hc]
  dsimp only
  rw [if_neg h₁, if_neg h₂, if_neg h₃, if_neg h₄, if_neg h₅, if_neg h₆, if_neg h₇, if_neg h₈, if_neg h₉, if_neg h₁₀,
    if_neg (not_or.2 hnumber), if_neg hzero]

end

theorem token_error {x : TokenType × Lexer} (h : x.1 = .parseError) : token x = none := by
  rw [token, h]

theorem token_end {x : TokenType × Lexer} (h : x.1 = .endOfInput) : token x = none := by
  rw [token, h]

/-- A literal that is a token is the word. -/
theorem token_scanLiteral {c : UInt8} {type : TokenType} {text : Bytes} {b : JsonToken} (hc : k.get.current = some c)
    (hb : (c :: text, b) ∈ words) (htype : ∀ l, token (type, l) = some b)
    (h : token (k.get.scanLiteral type text) = some a) :
    ∃ t, k.input = t ++ (k.get.scanLiteral type text).2.input ∧
      TokenText strtod t a (k.get.scanLiteral type text).2.input := by
  rcases scanLiteral_cases (l := k.get) with herror | ⟨htype', hinput⟩
  · rw [token_error herror] at h
    cases h
  · have hx : k.get.scanLiteral type text = (type, (k.get.scanLiteral type text).2) := Prod.ext htype' rfl
    rw [hx, htype] at h
    cases h
    refine ⟨c :: text, ?_, .word hb _⟩
    rw [(eats_get hc).input, hinput]
    rfl

theorem token_scanToken_sound (h : token (scanToken strtod k.get) = some a) :
    ∃ t, k.input = t ++ (scanToken strtod k.get).2.input ∧ TokenText strtod t a (scanToken strtod k.get).2.input := by
  cases hc : k.get.current with
  | none =>
    rw [scanToken_none strtod hc] at h
    cases h
  | some c =>
    have hinput : k.input = c :: k.get.input := (eats_get hc).input
    rcases scanToken_cases strtod hc with ⟨b, hb⟩ | rfl | rfl | rfl | rfl | hnumber | hzero | herror
    · obtain ⟨hb', hrest⟩ := scanToken_punctuation strtod hc hb
      cases h.symm.trans hb'
      rw [hrest]
      exact ⟨[c], hinput, .punctuation hb _⟩
    · rw [scanToken_true strtod hc rfl] at h ⊢
      exact token_scanLiteral hc (.head _) (fun _ => rfl) h
    · rw [scanToken_false strtod hc rfl] at h ⊢
      exact token_scanLiteral hc (.tail _ (.head _)) (fun _ => rfl) h
    · rw [scanToken_null strtod hc rfl] at h ⊢
      exact token_scanLiteral hc (.tail _ (.tail _ (.head _))) (fun _ => rfl) h
    · rw [scanToken_string strtod hc rfl] at h ⊢
      rcases scanString_type k.get with htype | herror
      · obtain ⟨t, hrest, ht⟩ := scanString_sound (Prod.ext htype rfl)
        have hb : token k.get.scanString = some (.string k.get.scanString.2.tokenBuffer) := by rw [token, htype]
        cases h.symm.trans hb
        refine ⟨0x22 :: (t ++ [0x22]), ?_, .string ht _⟩
        rw [hinput, hrest, List.cons_append, List.append_assoc]
        rfl
      · rw [token_error herror] at h
        cases h
    · rw [scanToken_number strtod hc hnumber] at h ⊢
      have hne : (scanNumber strtod k.get).1 ≠ .parseError := fun herror => by
        rw [token_error herror] at h
        cases h
      obtain ⟨t, float, r, ht, hreads⟩ := scanNumber_sound hc hnumber hne
      have hk : k.input = t ++ r := by
        rw [hinput, ← hreads.input, hc]
        rfl
      rw [token_of_numberOf hreads.value] at h
      split_ifs at h with hfinite
      cases h
      rw [hreads.rest]
      exact ⟨t, hk, .number ht hfinite⟩
    · rw [scanToken_zero strtod hc hzero] at h
      cases h
    · rw [herror] at h
      cases h

theorem scanToken_complete (ht : TokenText strtod t a r) (hl : k.input = t ++ r) :
    token (scanToken strtod k.get) = some a ∧ (scanToken strtod k.get).2.input = r := by
  -- a word is the first letter and the others
  have word : ∀ {c : UInt8} {text : Bytes} (type : TokenType), k.input = c :: text ++ r → (∀ l, token (type, l) = some a) →
      scanToken strtod k.get = k.get.scanLiteral type text →
      token (scanToken strtod k.get) = some a ∧ (scanToken strtod k.get).2.input = r := by
    intro c text type hl htype hscan
    obtain ⟨l', h, hl'⟩ := exists_scanLiteral (input_of_input hl)
    rw [hscan, h]
    exact ⟨htype l', hl'⟩
  cases ht with
  | punctuation h =>
    have hc := current_of_input hl
    obtain ⟨ha, hrest⟩ := scanToken_punctuation strtod hc h
    rw [hrest]
    exact ⟨ha, input_of_input hl⟩
  | word h =>
    simp only [words, List.mem_cons, Prod.mk.injEq, List.not_mem_nil, or_false] at h
    rcases h with ⟨rfl, rfl⟩ | ⟨rfl, rfl⟩ | ⟨rfl, rfl⟩
    · exact word .literalTrue hl (fun _ => rfl) (scanToken_true strtod (current_of_input hl) rfl)
    · exact word .literalFalse hl (fun _ => rfl) (scanToken_false strtod (current_of_input hl) rfl)
    · exact word .literalNull hl (fun _ => rfl) (scanToken_null strtod (current_of_input hl) rfl)
  | @string t s h =>
    have hl : k.input = 0x22 :: (t ++ 0x22 :: r) := by
      rw [hl, List.cons_append, List.append_assoc]
      rfl
    obtain ⟨l', h', hl', hbuffer⟩ := exists_scanString h (input_of_input hl)
    rw [scanToken_string strtod (current_of_input hl) rfl, h', token]
    exact ⟨by rw [hbuffer], hl'⟩
  | @number t r float h hfinite =>
    have hreads := exists_scanNumber strtod h hl
    obtain ⟨c, t', rfl, hc⟩ := h.exists_cons
    rw [scanToken_number strtod (current_of_input hl) hc]
    exact ⟨by rw [token_of_numberOf hreads.value, if_pos hfinite], hreads.rest⟩

/-! ### Going forward -/

/-- No more is left to read, and no less has been read. -/
structure Advances (l l' : Lexer) : Prop where
  input : l'.input.length ≤ l.input.length
  total : l.position.charsReadTotal ≤ l'.position.charsReadTotal

theorem Advances.refl (l : Lexer) : Advances l l := ⟨le_rfl, le_rfl⟩

theorem Advances.trans (h : Advances l m) (h' : Advances m l') : Advances l l' :=
  ⟨h'.input.trans h.input, h.total.trans h'.total⟩

theorem total_get (l : Lexer) : l.get.position.charsReadTotal = l.position.charsReadTotal + 1 := by
  unfold get
  cases l.input with
  | nil => rfl
  | cons c => dsimp only; split_ifs <;> rfl

theorem total_unget (l : Lexer) : l.unget.position.charsReadTotal = l.position.charsReadTotal - 1 := by
  unfold unget
  dsimp only
  split_ifs <;> rfl

theorem Advances.get (h : Advances l m) : Advances l m.get :=
  h.trans ⟨length_get_le m, by rw [total_get]; omega⟩

theorem Advances.unget_get (h : Advances l m) : Advances l m.get.unget :=
  h.trans ⟨by rw [input_unget_get], by rw [total_unget, total_get, Nat.add_sub_cancel]⟩

theorem Advances.add (h : Advances l m) (c : UInt8) : Advances l (m.add c) := ⟨h.input, h.total⟩

theorem Advances.addAll (h : Advances l m) (bs : Bytes) : Advances l (m.addAll bs) := by
  induction bs generalizing m with
  | nil => exact h
  | cons b bs ih => exact ih (h.add b)

theorem Advances.fail (h : Advances l m) (message : Bytes) : Advances l (m.fail message).2 := ⟨h.input, h.total⟩

theorem Advances.error (h : Advances l m) (message : Bytes) : Advances l (m.error message).2 := ⟨h.input, h.total⟩

theorem Advances.reset (h : Advances l m) : Advances l m.reset := ⟨h.input, h.total⟩

theorem Advances.getCodepoint (h : Advances l m) (n : Nat) (factors : List Nat) :
    Advances l (m.getCodepoint n factors).2 := by
  induction factors generalizing m n with
  | nil => exact h
  | cons factor factors ih =>
    rw [Lexer.getCodepoint]
    cases m.get.current with
    | none => exact h.get
    | some c =>
      dsimp only
      split_ifs
      · exact ih h.get _
      · exact h.get

theorem Advances.scanUnicode (h : Advances l m) : Advances l m.scanUnicode.2 := by
  have h₁ := h.getCodepoint 0 codepointFactors
  rw [Lexer.scanUnicode]
  generalize m.getCodepoint 0 codepointFactors = x at h₁ ⊢
  obtain ⟨_ | c₁, l₁⟩ := x
  · exact h₁.fail _
  · have h₂ := h₁.get.get.getCodepoint 0 codepointFactors
    dsimp only at h₁ h₂ ⊢
    generalize l₁.get.get.getCodepoint 0 codepointFactors = y at h₂ ⊢
    obtain ⟨_ | c₂, l₂⟩ := y
    · split_ifs
      · exact h₂.fail _
      · exact h₁.get.get.fail _
      · exact h₁.get.fail _
      · exact h₁.fail _
      · exact h₁.addAll (Utf8.encode c₁)
    · dsimp only at h₂ ⊢
      generalize ofPair c₁ c₂ = c
      split_ifs
      · exact h₂.addAll (Utf8.encode c)
      · exact h₂.fail _
      · exact h₁.get.get.fail _
      · exact h₁.get.fail _
      · exact h₁.fail _
      · exact h₁.addAll (Utf8.encode c₁)

theorem Advances.scanEscape (h : Advances l m) : Advances l m.scanEscape.2 := by
  rw [Lexer.scanEscape]
  split_ifs
  · exact h.get.add _
  · exact h.get.add _
  · exact h.get.add _
  · exact h.get.add _
  · exact h.get.add _
  · exact h.get.add _
  · exact h.get.add _
  · exact h.get.add _
  · exact h.get.scanUnicode
  · exact h.get.fail _

theorem Advances.nextByteInRange {rs : List Utf8.Range} : ∀ {m : Lexer}, Advances l m →
    Advances l (m.nextByteInRange rs).2 := by
  induction rs with
  | nil => exact id
  | cons r rs ih =>
    intro m h
    rw [Lexer.nextByteInRange]
    cases m.get.current with
    | none => exact h.get.fail _
    | some c =>
      dsimp only
      split_ifs
      · exact ih (h.get.add c)
      · exact h.get.fail _

theorem Advances.scanStringLoop {n : Nat} : ∀ {m : Lexer}, Advances l m → Advances l (scanStringLoop n m).2 := by
  induction n with
  | zero => exact fun h => h.error []
  | succ n ih =>
    intro m h
    rw [Lexer.scanStringLoop]
    cases m.get.current with
    | none => exact h.get.error _
    | some c =>
      dsimp only
      split_ifs
      · exact h.get
      · exact ih h.get.scanEscape
      · exact h.get.scanEscape
      · exact h.get.error _
      · exact ih (h.get.add c)
      · cases Utf8.follow c with
        | none => exact h.get.error _
        | some rs =>
          dsimp only
          split_ifs
          · exact ih (h.get.add c).nextByteInRange
          · exact (h.get.add c).nextByteInRange

theorem Advances.scanLiteral {type : TokenType} {text : Bytes} : ∀ {m : Lexer}, Advances l m →
    Advances l (m.scanLiteral type text).2 := by
  induction text with
  | nil => exact id
  | cons c text ih =>
    intro m h
    rw [Lexer.scanLiteral]
    split_ifs
    · exact ih h.get
    · exact h.get.error _

theorem Advances.exists_scanDigits (input : Bytes) : ∀ {m : Lexer}, Advances l m →
    ∃ k, Advances l k ∧ m.scanDigits input = k.get := by
  induction input with
  | nil => exact fun {m} h => ⟨m, h, rfl⟩
  | cons c input ih =>
    intro m h
    rw [scanDigits]
    split_ifs
    · exact ih (h.get.addAll _)
    · exact ⟨m, h, rfl⟩

theorem Advances.exists_skipBlanks (input : Bytes) : ∀ {m : Lexer}, Advances l m →
    ∃ k, Advances l k ∧ m.skipBlanks input = k.get := by
  induction input with
  | nil => exact fun {m} h => ⟨m, h, rfl⟩
  | cons c input ih =>
    intro m h
    rw [skipBlanks]
    split_ifs
    · exact ih h.get
    · exact ⟨m, h, rfl⟩

section
variable {type : TokenType}

theorem Advances.scanNumberDone (h : Advances l m) : Advances l (scanNumberDone strtod m.get type).2 := by
  have h := h.unget_get
  unfold Lexer.scanNumberDone
  split_ifs
  · dsimp only
    cases strtoull m.get.unget.tokenBuffer <;> exact ⟨h.input, h.total⟩
  · dsimp only
    cases strtoll m.get.unget.tokenBuffer <;> exact ⟨h.input, h.total⟩
  · exact ⟨h.input, h.total⟩

theorem Advances.scanNumberAny2 (h : Advances l m) : Advances l (scanNumberAny2 strtod m).2 := by
  obtain ⟨k, hk, hdigits⟩ := h.exists_scanDigits m.input
  rw [Lexer.scanNumberAny2, hdigits]
  exact hk.scanNumberDone

theorem Advances.scanNumberSign (h : Advances l m) : Advances l (scanNumberSign strtod m).2 := by
  rw [Lexer.scanNumberSign]
  split_ifs
  · exact (h.get.addAll _).scanNumberAny2
  · exact h.get.error _

theorem Advances.scanNumberExponent (h : Advances l m) : Advances l (scanNumberExponent strtod m).2 := by
  rw [Lexer.scanNumberExponent]
  split_ifs
  · exact (h.get.addAll _).scanNumberSign
  · exact (h.get.addAll _).scanNumberAny2
  · exact h.get.error _

theorem Advances.scanNumberDecimal1 (h : Advances l m) : Advances l (scanNumberDecimal1 strtod m).2 := by
  rw [Lexer.scanNumberDecimal1]
  split_ifs
  · have h : Advances l m.get.addCurrent := h.get.addAll _
    obtain ⟨k, hk, hdigits⟩ := h.exists_scanDigits m.get.addCurrent.input
    rw [scanNumberDecimal2, hdigits]
    split_ifs
    · exact (hk.get.addAll _).scanNumberExponent
    · exact hk.scanNumberDone
  · exact h.get.error _

theorem Advances.scanNumberInteger (h : Advances l m) : Advances l (scanNumberInteger strtod m.get type).2 := by
  rw [Lexer.scanNumberInteger]
  split_ifs
  · exact (h.get.addAll _).scanNumberDecimal1
  · exact (h.get.addAll _).scanNumberExponent
  · exact h.scanNumberDone

theorem Advances.scanNumberAny1 (h : Advances l m) : Advances l (scanNumberAny1 strtod m type).2 := by
  obtain ⟨k, hk, hdigits⟩ := h.exists_scanDigits m.input
  rw [Lexer.scanNumberAny1, hdigits]
  exact hk.scanNumberInteger

theorem Advances.scanNumber (h : Advances l m) : Advances l (scanNumber strtod m).2 := by
  have h := h.reset.addAll m.current.toList
  rw [Lexer.scanNumber]
  split_ifs
  · rw [scanNumberMinus]
    split_ifs
    · exact (h.get.addAll _).scanNumberInteger
    · exact (h.get.addAll _).scanNumberAny1
    · exact h.get.error _
  · exact h.scanNumberInteger
  · exact h.scanNumberAny1

end

theorem Advances.scanToken (h : Advances l m) : Advances l (scanToken strtod m).2 := by
  cases hc : m.current with
  | none =>
    rw [scanToken_none strtod hc]
    exact h
  | some c =>
    rcases scanToken_cases strtod hc with ⟨b, hb⟩ | rfl | rfl | rfl | rfl | hnumber | hzero | herror
    · rw [(scanToken_punctuation strtod hc hb).2]
      exact h
    · rw [scanToken_true strtod hc rfl]
      exact h.scanLiteral
    · rw [scanToken_false strtod hc rfl]
      exact h.scanLiteral
    · rw [scanToken_null strtod hc rfl]
      exact h.scanLiteral
    · rw [scanToken_string strtod hc rfl]
      exact h.reset.scanStringLoop
    · rw [scanToken_number strtod hc hnumber]
      exact h.scanNumber
    · rw [scanToken_zero strtod hc hzero]
      exact h
    · rw [herror]
      exact h.error _

/-! ### The scanner -/

theorem isBlank_eq_false_of_tokenText (ht : TokenText strtod t a r) : isBlank (t ++ r).head? = false := by
  cases ht with
  | punctuation h =>
    simp only [punctuation, List.mem_cons, Prod.mk.injEq, List.not_mem_nil, or_false] at h
    rcases h with ⟨rfl, -⟩ | ⟨rfl, -⟩ | ⟨rfl, -⟩ | ⟨rfl, -⟩ | ⟨rfl, -⟩ | ⟨rfl, -⟩ <;> rfl
  | word h =>
    simp only [words, List.mem_cons, Prod.mk.injEq, List.not_mem_nil, or_false] at h
    rcases h with ⟨rfl, -⟩ | ⟨rfl, -⟩ | ⟨rfl, -⟩ <;> rfl
  | string => rfl
  | number h =>
    obtain ⟨c, t, rfl, rfl | hc⟩ := h.exists_cons
    · rfl
    · have hd : ∀ n, n < 256 → isDigit n.toUInt8 = true → isBlank (some n.toUInt8) = false := by decide +kernel
      simpa using hd c.toNat c.toNat_lt (by simpa using hc)

/-- What the next scan reads, if a byte order mark at the beginning is whole. -/
def text (l : Lexer) : Option Bytes := if l.position.charsReadTotal = 0 then dropBom l.input else some l.input

theorem skipBom_spec (l : Lexer) : dropBom l.input = if l.skipBom.1 then some l.skipBom.2.input else none := by
  unfold dropBom skipBom
  simp only [current_get, input_get]
  by_cases h₁ : l.input.head? = some 0xef
  · obtain ⟨t, ht⟩ := List.head?_eq_some_iff.1 h₁
    rw [if_pos h₁, if_pos h₁]
    simp only [ht, List.tail_cons]
    by_cases h₂ : t.head? = some 0xbb
    · obtain ⟨t, rfl⟩ := List.head?_eq_some_iff.1 h₂
      rw [if_pos h₂]
      simp only [input_get, ht, List.tail_cons, List.take_succ_cons, List.drop_succ_cons]
      cases t with
      | nil => rfl
      | cons c t => simp
    · rw [if_neg h₂]
      refine if_neg fun h => h₂ ?_
      simp only [List.take_succ_cons, List.cons.injEq, true_and] at h
      cases t with
      | nil => cases h
      | cons c t => exact congrArg some (List.cons.inj h).1
  · rw [if_neg h₁, if_neg h₁, if_pos rfl, input_unget_get]

variable (strtod) in
theorem scan_first (h : l.position.charsReadTotal = 0) : scan strtod l =
    if l.skipBom.1 then scanToken strtod (l.skipBom.2.skipBlanks l.skipBom.2.input)
    else l.skipBom.2.error (lit "invalid BOM; must be 0xEF 0xBB 0xBF if given") := by
  rw [scan, if_pos h]

variable (strtod) in
theorem scan_next (h : l.position.charsReadTotal ≠ 0) : scan strtod l = scanToken strtod (l.skipBlanks l.input) := by
  rw [scan, if_neg h]
  rfl

variable (strtod) in
theorem scan_eq {text : Bytes} (h : l.text = some text) : ∃ (w : Bytes) (k : Lexer), Blanks w ∧ text = w ++ k.input ∧
    isBlank k.input.head? = false ∧ scan strtod l = scanToken strtod k.get := by
  obtain ⟨m, hm, hscan⟩ : ∃ m : Lexer, m.input = text ∧ scan strtod l = scanToken strtod (m.skipBlanks m.input) := by
    rw [Lexer.text] at h
    by_cases hl : l.position.charsReadTotal = 0
    · rw [if_pos hl, skipBom_spec] at h
      rw [scan_first strtod hl]
      split_ifs at h ⊢
      exact ⟨l.skipBom.2, Option.some.inj h, rfl⟩
    · rw [if_neg hl] at h
      exact ⟨l, Option.some.inj h, scan_next strtod hl⟩
  obtain ⟨w, k, hw, hk, hend, hblanks⟩ := skipBlanks_spec (l := m) rfl
  exact ⟨w, k, hw, hm ▸ hk, hend, by rw [hscan, hblanks]⟩

/-- A scan finds a token and the rest of the text if the text begins so. -/
theorem token_scan_iff {text : Bytes} (hl : l.text = some text) :
    (token (scan strtod l) = some a ∧ (scan strtod l).2.input = r) ↔ FirstToken strtod text a r := by
  obtain ⟨w, k, hw, hk, hend, h⟩ := scan_eq strtod hl
  rw [h]
  constructor
  · rintro ⟨ha, rfl⟩
    obtain ⟨t, ht, htext⟩ := token_scanToken_sound ha
    exact ⟨w, t, by rw [hk, ← ht], hw, htext⟩
  · rintro ⟨w', t, hinput, hw', ht⟩
    refine scanToken_complete ht ?_
    exact blanks_append_inj hw hw' hend (isBlank_eq_false_of_tokenText ht) (hk.symm.trans hinput)

theorem isBlank_zero {r : Bytes} (h : ∀ c ∈ r.head?, c = 0) : isBlank r.head? = false := by
  cases r with
  | nil => rfl
  | cons c r =>
    have := h c rfl
    subst this
    rfl

theorem scanToken_end_iff : (scanToken strtod k.get).1 = .endOfInput ↔ ∀ c ∈ k.input.head?, c = 0 := by
  rw [← current_get]
  cases hc : k.get.current with
  | none =>
    rw [scanToken_none strtod hc]
    exact iff_of_true rfl (by simp)
  | some c =>
    constructor
    · intro h d hd
      cases hd
      rcases scanToken_cases strtod hc with ⟨b, hb⟩ | rfl | rfl | rfl | rfl | hnumber | hzero | herror
      · have := (scanToken_punctuation strtod hc hb).1
        rw [token_end h] at this
        cases this
      · rw [scanToken_true strtod hc rfl] at h
        rcases scanLiteral_cases (l := k.get) with herror | ⟨htype, -⟩
        · exact absurd (herror.symm.trans h) (by decide)
        · exact absurd (htype.symm.trans h) (by decide)
      · rw [scanToken_false strtod hc rfl] at h
        rcases scanLiteral_cases (l := k.get) with herror | ⟨htype, -⟩
        · exact absurd (herror.symm.trans h) (by decide)
        · exact absurd (htype.symm.trans h) (by decide)
      · rw [scanToken_null strtod hc rfl] at h
        rcases scanLiteral_cases (l := k.get) with herror | ⟨htype, -⟩
        · exact absurd (herror.symm.trans h) (by decide)
        · exact absurd (htype.symm.trans h) (by decide)
      · rw [scanToken_string strtod hc rfl] at h
        rcases scanString_type k.get with htype | herror
        · exact absurd (htype.symm.trans h) (by decide)
        · exact absurd (herror.symm.trans h) (by decide)
      · rw [scanToken_number strtod hc hnumber] at h
        have hne : (scanNumber strtod k.get).1 ≠ .parseError := by
          rw [h]
          decide
        obtain ⟨t, float, r, -, hreads⟩ := scanNumber_sound hc hnumber hne
        have := hreads.value
        rw [numberOf, h] at this
        cases this
      · exact hzero
      · rw [herror] at h
        cases h
    · intro h
      rw [scanToken_zero strtod hc (h c rfl)]

theorem scan_end_iff {text : Bytes} (hl : l.text = some text) : (scan strtod l).1 = .endOfInput ↔ EndText text := by
  obtain ⟨w, k, hw, hk, hend, h⟩ := scan_eq strtod hl
  rw [h, scanToken_end_iff]
  constructor
  · exact fun hzero => ⟨w, k.input, hk, hw, hzero⟩
  · rintro ⟨w', r, hinput, hw', hr⟩
    rwa [blanks_append_inj hw hw' hend (isBlank_zero hr) (hk.symm.trans hinput)]

variable (strtod) in
theorem scan_error (h : l.text = none) : (scan strtod l).1 = .parseError := by
  rw [Lexer.text] at h
  split_ifs at h with hl
  rw [skipBom_spec] at h
  rw [scan_first strtod hl]
  split_ifs at h ⊢
  rfl

theorem Advances.skipBom (h : Advances l m) : Advances l m.skipBom.2 := by
  rw [Lexer.skipBom]
  split_ifs
  · exact h.get.get.get
  · exact h.get.get
  · exact h.unget_get

theorem length_get_lt (h : l.get.current ≠ none) : l.get.input.length < l.input.length := by
  obtain ⟨c, hc⟩ := Option.ne_none_iff_exists'.1 h
  exact length_get hc

/-- Wherever a token is looked for, what is left gets less, unless there is nothing. -/
theorem scanToken_get_progress (h : Advances l k) : 0 < (scanToken strtod k.get).2.position.charsReadTotal ∧
    ((scanToken strtod k.get).1 ≠ .endOfInput → (scanToken strtod k.get).2.input.length < l.input.length) := by
  have hscan : Advances k.get (scanToken strtod k.get).2 := (Advances.refl k.get).scanToken
  constructor
  · have := hscan.total
    rw [total_get] at this
    omega
  · intro hend
    have hne : k.get.current ≠ none := fun hnone => hend (by rw [scanToken_none strtod hnone])
    have := length_get_lt hne
    have := hscan.input
    have := h.input
    omega

theorem skipBom_broken (h : ¬ l.skipBom.1 = true) : Advances l.get l.skipBom.2 ∧ l.get.current ≠ none := by
  rw [Lexer.skipBom] at h ⊢
  split_ifs at h ⊢ with h₁ h₂
  · exact ⟨(Advances.refl l.get).get.get, by rw [h₁]; decide⟩
  · exact ⟨(Advances.refl l.get).get, by rw [h₁]; decide⟩
  · exact absurd rfl h

theorem scan_progress (l : Lexer) : 0 < (scan strtod l).2.position.charsReadTotal ∧
    ((scan strtod l).1 ≠ .endOfInput → (scan strtod l).2.input.length < l.input.length) := by
  by_cases hl : l.position.charsReadTotal = 0
  · rw [scan_first strtod hl]
    split_ifs with hbom
    · obtain ⟨k, hk, h⟩ := (Advances.refl l).skipBom.exists_skipBlanks l.skipBom.2.input
      rw [h]
      exact scanToken_get_progress hk
    · obtain ⟨hget, hne⟩ := skipBom_broken hbom
      have hlength := length_get_lt hne
      have htotal := hget.total
      rw [total_get] at htotal
      exact ⟨Nat.lt_of_lt_of_le (Nat.succ_pos _) htotal, fun _ => Nat.lt_of_le_of_lt hget.input hlength⟩
  · rw [scan_next strtod hl]
    obtain ⟨k, hk, h⟩ := (Advances.refl l).exists_skipBlanks l.input
    rw [h]
    exact scanToken_get_progress hk

theorem text_scan (l : Lexer) : (scan strtod l).2.text = some (scan strtod l).2.input := by
  rw [text, if_neg (Nat.ne_of_gt (scan_progress l).1)]

theorem length_scan (h : (scan strtod l).1 ≠ .endOfInput) : (scan strtod l).2.input.length < l.input.length :=
  (scan_progress l).2 h

end Lexer

end NplBrowser
