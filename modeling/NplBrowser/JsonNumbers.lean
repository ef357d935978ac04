import NplBrowser.JsonStrings

/-!
# The numbers of a JSON text

What a number may look like and where it ends (`NumberText`), and the value it is converted to. From a
character that begins a number on, `Lexer.scanNumber` reads a number or makes an error
(`Lexer.scanNumber_sound`), and it reads every number (`Lexer.exists_scanNumber`). A number ends with what
follows it, which is why the rest of the text is part of the relation.
-/

namespace NplBrowser

/-- The rest does not go on with such a character. -/
def EndsAt (p : UInt8 → Bool) (r : Bytes) : Prop := ∀ c ∈ r.head?, p c = false

structure Digits (ds : Bytes) : Prop where
  ne_nil : ds ≠ []
  digits : ∀ d ∈ ds, isDigit d = true

/-- The integer part, before what follows it. -/
inductive IntegerText : Bytes → Bytes → Prop
  | zero (r : Bytes) : IntegerText [0x30] r
  | digits {d : UInt8} {ds r : Bytes} (hd : isDigit d = true) (hzero : d ≠ 0x30) (hds : ∀ d ∈ ds, isDigit d = true)
    (hr : EndsAt isDigit r) : IntegerText (d :: ds) r

theorem IntegerText.exists_cons {i r : Bytes} (h : IntegerText i r) : ∃ d ds, i = d :: ds := by
  cases h <;> exact ⟨_, _, rfl⟩

def isExponentLetter (c : UInt8) : Bool := c == 0x65 || c == 0x45

/-- What stands behind the letter. -/
inductive ExponentText : Bytes → Prop
  | unsigned {ds : Bytes} (hds : Digits ds) : ExponentText ds
  | signed {c : UInt8} {ds : Bytes} (hc : c = 0x2b ∨ c = 0x2d) (hds : Digits ds) : ExponentText (c :: ds)

/-- What may follow the integer part, whether that makes the number a floating-point one, and what
follows the number. -/
inductive NumberEnd : Bytes → Bool → Bytes → Prop
  | integer {r : Bytes} (hr : EndsAt (fun c => c == 0x2e || isExponentLetter c) r) : NumberEnd [] false r
  | exponent {c : UInt8} {e r : Bytes} (hc : isExponentLetter c = true) (he : ExponentText e) (hr : EndsAt isDigit r) :
    NumberEnd (c :: e) true r
  | fraction {ds r : Bytes} (hds : Digits ds) (hr : EndsAt (fun c => isDigit c || isExponentLetter c) r) :
    NumberEnd (0x2e :: ds) true r
  | both {c : UInt8} {ds e r : Bytes} (hds : Digits ds) (hc : isExponentLetter c = true) (he : ExponentText e)
    (hr : EndsAt isDigit r) : NumberEnd (0x2e :: (ds ++ c :: e)) true r

inductive NumberText : Bytes → Bool → Bytes → Prop
  | positive {i e r : Bytes} {float : Bool} (hi : IntegerText i (e ++ r)) (he : NumberEnd e float r) :
    NumberText (i ++ e) float r
  | negative {i e r : Bytes} {float : Bool} (hi : IntegerText i (e ++ r)) (he : NumberEnd e float r) :
    NumberText (0x2d :: (i ++ e)) float r

theorem EndsAt.or {p q : UInt8 → Bool} {r : Bytes} (hp : EndsAt p r) (hq : EndsAt q r) : EndsAt (fun c => p c || q c) r :=
  fun c hc => Bool.or_eq_false_iff.2 ⟨hp c hc, hq c hc⟩

theorem EndsAt.and {p q : UInt8 → Bool} {r : Bytes} (h : EndsAt (fun c => p c || q c) r) : EndsAt p r ∧ EndsAt q r :=
  ⟨fun c hc => (Bool.or_eq_false_iff.1 (h c hc)).1, fun c hc => (Bool.or_eq_false_iff.1 (h c hc)).2⟩

/-- The letter is no digit, so that the digits before it end. -/
theorem endsAt_isDigit_cons {c : UInt8} (hc : isExponentLetter c = true) (t : Bytes) : EndsAt isDigit (c :: t) := by
  rintro d ⟨⟩
  rw [isExponentLetter, Bool.or_eq_true, beq_iff_eq, beq_iff_eq] at hc
  rcases hc with rfl | rfl <;> decide

theorem NumberText.exists_cons {t r : Bytes} {float : Bool} (h : NumberText t float r) :
    ∃ c t', t = c :: t' ∧ (c = 0x2d ∨ isDigit c = true) := by
  cases h with
  | positive hi he =>
    cases hi with
    | zero => exact ⟨_, _, rfl, .inr (by decide)⟩
    | digits hd => exact ⟨_, _, rfl, .inr hd⟩
  | negative => exact ⟨_, _, rfl, .inl rfl⟩

section
variable (strtod : Bytes → Double)

/-- The type of a number whose text has no fraction and no exponent. -/
def integerType (t : Bytes) : TokenType := if t.head? = some 0x2d then .valueInteger else .valueUnsigned

def numberType (t : Bytes) (float : Bool) : TokenType := if float then .valueFloat else integerType t

/-- What a text of a type is converted to: an integer out of range becomes a `double`. -/
def numberValue (t : Bytes) (type : TokenType) : Json :=
  if type = .valueUnsigned then
    match Lexer.strtoull t with
    | some x => .unsigned x
    | none => .float (strtod t)
  else if type = .valueInteger then
    match Lexer.strtoll t with
    | some x => .integer x
    | none => .float (strtod t)
  else .float (strtod t)

end

namespace Lexer

variable {strtod : Bytes → Double} {l l' k k' m : Lexer} {t s r ds : Bytes}

/-- The value of a token that is a number. -/
def numberOf (x : TokenType × Lexer) : Option Json :=
  match x.1 with
  | .valueUnsigned => some (.unsigned x.2.valueUnsigned)
  | .valueInteger => some (.integer x.2.valueInteger)
  | .valueFloat => some (.float x.2.valueFloat)
  | _ => none

@[simp] theorem input_unget_get (k : Lexer) : k.get.unget.input = k.input := by
  show k.get.current.toList ++ k.get.input = k.input
  rw [current_get, input_get]
  cases k.input <;> rfl

@[simp] theorem tokenBuffer_unget (k : Lexer) : k.unget.tokenBuffer = k.tokenBuffer := rfl

variable (strtod) in
/-- The character behind the number has been read. -/
theorem scanNumberDone_get (k : Lexer) (type : TokenType) : (scanNumberDone strtod k.get type).2.input = k.input ∧
    numberOf (scanNumberDone strtod k.get type) = some (numberValue strtod k.tokenBuffer type) := by
  unfold scanNumberDone numberValue
  simp only [tokenBuffer_unget, tokenBuffer_get]
  split_ifs
  · cases strtoull k.tokenBuffer <;> exact ⟨input_unget_get k, rfl⟩
  · cases strtoll k.tokenBuffer <;> exact ⟨input_unget_get k, rfl⟩
  · exact ⟨input_unget_get k, rfl⟩

theorem addCurrent_eq {c : UInt8} (h : l.current = some c) : l.addCurrent = l.add c := by
  rw [addCurrent, h]
  rfl

theorem eats_addCurrent {c : UInt8} (h : l.get.current = some c) : Eats l l.get.addCurrent [c] [c] := by
  rw [addCurrent_eq h]
  exact (eats_get h).trans (eats_add l.get c)

theorem input_addCurrent (hl : l.input = t) : l.addCurrent.input = t := by
  have := (eats_addAll l l.current.toList).input
  exact this.symm.trans hl

theorem isDecimal_iff {c : Option UInt8} : isDecimal c = true ↔ ∃ d, c = some d ∧ isDigit d = true := by
  cases c <;> simp [isDecimal]

theorem isExponent_iff {c : Option UInt8} : isExponent c = true ↔ ∃ d, c = some d ∧ isExponentLetter d = true := by
  cases c <;> simp [isExponent, isExponentLetter]

theorem isDecimal_of_endsAt (h : EndsAt isDigit l.input) : isDecimal l.get.current = false := by
  rw [Bool.eq_false_iff]
  intro hd
  obtain ⟨d, hc, hd⟩ := isDecimal_iff.1 hd
  rw [current_get] at hc
  rw [h d hc] at hd
  cases hd

theorem endsAt_of_isDecimal (h : ¬ isDecimal l.get.current = true) : EndsAt isDigit l.input := by
  intro c hc
  rw [Bool.eq_false_iff]
  rw [current_get] at h
  exact fun hd => h (isDecimal_iff.2 ⟨c, hc, hd⟩)

/-! ### Digits -/

theorem scanDigits_sound : ∀ {input : Bytes} {l : Lexer}, l.input = input →
    ∃ ds k, (∀ d ∈ ds, isDigit d = true) ∧ Eats l k ds ds ∧ EndsAt isDigit k.input ∧ l.scanDigits input = k.get := by
  intro input
  induction input with
  | nil =>
    intro l hl
    refine ⟨[], l, by simp, .refl l, ?_, rfl⟩
    rw [hl]
    intro c hc
    cases hc
  | cons c input ih =>
    intro l hl
    have hc := current_of_input hl
    rw [scanDigits]
    split_ifs with hd
    · have hd' : isDigit c = true := by rwa [hc] at hd
      obtain ⟨ds, k, hds, heats, hk, h⟩ := ih (input_addCurrent (input_of_input hl))
      exact ⟨c :: ds, k, List.forall_mem_cons.2 ⟨hd', hds⟩, (eats_addCurrent hc).trans heats, hk, h⟩
    · exact ⟨[], l, by simp, .refl l, endsAt_of_isDecimal hd, rfl⟩

theorem exists_scanDigits (hr : EndsAt isDigit r) : ∀ {ds : Bytes} {l : Lexer}, (∀ d ∈ ds, isDigit d = true) →
    l.input = ds ++ r → ∃ k, Eats l k ds ds ∧ l.scanDigits l.input = k.get := by
  intro ds
  induction ds with
  | nil =>
    intro l _ hl
    refine ⟨l, .refl l, ?_⟩
    have hl : l.input = r := hl
    have hd := isDecimal_of_endsAt (hl ▸ hr : EndsAt isDigit l.input)
    cases h : l.input with
    | nil => rfl
    | cons c input => rw [scanDigits, hd]; rfl
  | cons d ds ih =>
    intro l hds hl
    rw [List.forall_mem_cons] at hds
    have hc := current_of_input hl
    have hinput : l.get.addCurrent.input = ds ++ r := input_addCurrent (input_of_input hl)
    obtain ⟨k, heats, h⟩ := ih hds.2 hinput
    refine ⟨k, (eats_addCurrent hc).trans heats, ?_⟩
    rw [hl, List.cons_append, scanDigits, if_pos (isDecimal_iff.2 ⟨d, hc, hds.1⟩), ← h, hinput]

theorem digits_cons {d : UInt8} (hd : isDigit d = true) (hds : ∀ d ∈ ds, isDigit d = true) : Digits (d :: ds) :=
  ⟨by simp, List.forall_mem_cons.2 ⟨hd, hds⟩⟩

/-! ### Behind an integer part

What a label reads before the number is done, if it is not an error. -/

variable (strtod) in
/-- From `l` on `e` is read, and then the number is done. -/
structure ReadsNumber (l : Lexer) (e : Bytes) (k : Lexer) (type : TokenType) (x : TokenType × Lexer) : Prop where
  eats : Eats l k e e
  done : x = scanNumberDone strtod k.get type

theorem ReadsNumber.cons {c : UInt8} {e : Bytes} {type : TokenType} {x : TokenType × Lexer} (hc : l.get.current = some c)
    (h : ReadsNumber strtod l.get.addCurrent e k type x) : ReadsNumber strtod l (c :: e) k type x :=
  ⟨(eats_addCurrent hc).trans h.eats, h.done⟩

variable (strtod) in
theorem scanNumberAny2_sound (l : Lexer) : ∃ ds k, (∀ d ∈ ds, isDigit d = true) ∧ EndsAt isDigit k.input ∧
    ReadsNumber strtod l ds k .valueFloat (scanNumberAny2 strtod l) := by
  obtain ⟨ds, k, hds, heats, hk, h⟩ := scanDigits_sound (l := l) rfl
  exact ⟨ds, k, hds, hk, heats, by rw [scanNumberAny2, h]⟩

theorem scanNumberSign_sound (h : (scanNumberSign strtod l).1 ≠ .parseError) : ∃ ds k, Digits ds ∧
    EndsAt isDigit k.input ∧ ReadsNumber strtod l ds k .valueFloat (scanNumberSign strtod l) := by
  rw [scanNumberSign] at h ⊢
  split_ifs at h ⊢ with hd
  · obtain ⟨d, hc, hd⟩ := isDecimal_iff.1 hd
    obtain ⟨ds, k, hds, hk, hreads⟩ := scanNumberAny2_sound strtod l.get.addCurrent
    exact ⟨d :: ds, k, digits_cons hd hds, hk, hreads.cons hc⟩
  · exact absurd rfl h

theorem scanNumberExponent_sound (h : (scanNumberExponent strtod l).1 ≠ .parseError) : ∃ e k, ExponentText e ∧
    EndsAt isDigit k.input ∧ ReadsNumber strtod l e k .valueFloat (scanNumberExponent strtod l) := by
  rw [scanNumberExponent] at h ⊢
  split_ifs at h ⊢ with hsign hd
  · obtain ⟨ds, k, hds, hk, hreads⟩ := scanNumberSign_sound h
    rcases hsign with hc | hc
    · exact ⟨0x2b :: ds, k, .signed (.inl rfl) hds, hk, hreads.cons hc⟩
    · exact ⟨0x2d :: ds, k, .signed (.inr rfl) hds, hk, hreads.cons hc⟩
  · obtain ⟨d, hc, hd⟩ := isDecimal_iff.1 hd
    obtain ⟨ds, k, hds, hk, hreads⟩ := scanNumberAny2_sound strtod l.get.addCurrent
    exact ⟨d :: ds, k, .unsigned (digits_cons hd hds), hk, hreads.cons hc⟩
  · exact absurd rfl h

theorem endsAt_of_isExponent (h : ¬ isExponent l.get.current = true) : EndsAt isExponentLetter l.input := by
  intro c hc
  rw [Bool.eq_false_iff]
  rw [current_get] at h
  exact fun hd => h (isExponent_iff.2 ⟨c, hc, hd⟩)

theorem endsAt_of_ne {c : UInt8} (h : ¬ l.get.current = some c) : EndsAt (· == c) l.input := by
  intro d hd
  rw [current_get] at h
  rw [Bool.eq_false_iff]
  intro hc
  rw [eq_of_beq hc] at hd
  exact h hd

theorem scanNumberDecimal1_sound (h : (scanNumberDecimal1 strtod l).1 ≠ .parseError) : ∃ e k,
    NumberEnd (0x2e :: e) true k.input ∧ ReadsNumber strtod l e k .valueFloat (scanNumberDecimal1 strtod l) := by
  rw [scanNumberDecimal1] at h ⊢
  split_ifs at h ⊢ with hd
  · obtain ⟨d, hc, hd⟩ := isDecimal_iff.1 hd
    obtain ⟨ds, k, hds, heats, hk, hdigits⟩ := scanDigits_sound (l := l.get.addCurrent) rfl
    rw [scanNumberDecimal2, hdigits] at h ⊢
    have heats := (eats_addCurrent hc).trans heats
    split_ifs at h ⊢ with he
    · obtain ⟨c, hc', he⟩ := isExponent_iff.1 he
      obtain ⟨e, k', hexponent, hk', hreads⟩ := scanNumberExponent_sound h
      have hreads := hreads.cons hc'
      exact ⟨d :: (ds ++ c :: e), k', .both (digits_cons hd hds) he hexponent hk', heats.trans hreads.eats, hreads.done⟩
    · exact ⟨d :: ds, k, .fraction (digits_cons hd hds) (EndsAt.or hk (endsAt_of_isExponent he)), heats, rfl⟩
  · exact absurd rfl h

theorem scanNumberInteger_sound {type : TokenType} (h : (scanNumberInteger strtod l.get type).1 ≠ .parseError) :
    ∃ e float k, NumberEnd e float k.input ∧
      ReadsNumber strtod l e k (if float then .valueFloat else type) (scanNumberInteger strtod l.get type) := by
  rw [scanNumberInteger] at h ⊢
  split_ifs at h ⊢ with hpoint he
  · obtain ⟨e, k, hend, hreads⟩ := scanNumberDecimal1_sound h
    exact ⟨0x2e :: e, true, k, hend, hreads.cons hpoint⟩
  · obtain ⟨c, hc, he⟩ := isExponent_iff.1 he
    obtain ⟨e, k, hexponent, hk, hreads⟩ := scanNumberExponent_sound h
    exact ⟨c :: e, true, k, .exponent he hexponent hk, hreads.cons hc⟩
  · refine ⟨[], false, l, .integer (EndsAt.or (endsAt_of_ne hpoint) (endsAt_of_isExponent he)), .refl l, rfl⟩

/-! ### Before a text

The same labels, for a text that the grammar has. -/

theorem exists_scanDigits_get (hds : Digits ds) (hr : EndsAt isDigit r) (hl : l.input = ds ++ r) :
    isDecimal l.get.current = true ∧ ∃ k, Eats l k ds ds ∧ k.input = r ∧
      l.get.addCurrent.scanDigits l.get.addCurrent.input = k.get := by
  obtain ⟨hne, hds⟩ := hds
  cases ds with
  | nil => exact absurd rfl hne
  | cons d ds =>
    rw [List.forall_mem_cons] at hds
    have hc := current_of_input hl
    obtain ⟨k, heats, h⟩ := exists_scanDigits hr hds.2 (input_addCurrent (input_of_input hl))
    have heats := (eats_addCurrent hc).trans heats
    exact ⟨isDecimal_iff.2 ⟨d, hc, hds.1⟩, k, heats, List.append_cancel_left (heats.input.symm.trans hl), h⟩

variable (strtod) in
theorem exists_scanNumberAny2 (hds : Digits ds) (hr : EndsAt isDigit r) (hl : l.input = ds ++ r) :
    isDecimal l.get.current = true ∧
      ∃ k, ReadsNumber strtod l ds k .valueFloat (scanNumberAny2 strtod l.get.addCurrent) := by
  obtain ⟨hd, k, heats, -, h⟩ := exists_scanDigits_get hds hr hl
  exact ⟨hd, k, heats, by rw [scanNumberAny2, h]⟩

theorem not_sign_of_isDecimal (h : isDecimal l.current = true) : ¬ (l.current = some 0x2b ∨ l.current = some 0x2d) := by
  rintro (hc | hc) <;> rw [hc] at h <;> exact absurd h (by decide)

variable (strtod) in
theorem exists_scanNumberSign (hds : Digits ds) (hr : EndsAt isDigit r) (hl : l.input = ds ++ r) :
    ∃ k, ReadsNumber strtod l ds k .valueFloat (scanNumberSign strtod l) := by
  obtain ⟨hd, k, hreads⟩ := exists_scanNumberAny2 strtod hds hr hl
  refine ⟨k, ?_⟩
  rw [scanNumberSign, if_pos hd]
  exact hreads

variable (strtod) in
theorem exists_scanNumberExponent {e : Bytes} (he : ExponentText e) (hr : EndsAt isDigit r) (hl : l.input = e ++ r) :
    ∃ k, ReadsNumber strtod l e k .valueFloat (scanNumberExponent strtod l) := by
  rw [scanNumberExponent]
  cases he with
  | unsigned hds =>
    obtain ⟨hd, k, hreads⟩ := exists_scanNumberAny2 strtod hds hr hl
    refine ⟨k, ?_⟩
    rw [if_neg (not_sign_of_isDecimal hd), if_pos hd]
    exact hreads
  | signed hc hds =>
    have hcurrent := current_of_input hl
    obtain ⟨k, hreads⟩ := exists_scanNumberSign strtod hds hr (input_addCurrent (input_of_input hl))
    refine ⟨k, ?_⟩
    rw [if_pos (by rw [hcurrent]; exact hc.imp (congrArg some) (congrArg some))]
    exact hreads.cons hcurrent

theorem isExponent_of_endsAt (h : EndsAt isExponentLetter l.input) : ¬ isExponent l.get.current = true := by
  intro he
  obtain ⟨d, hc, he⟩ := isExponent_iff.1 he
  rw [current_get] at hc
  rw [h d hc] at he
  cases he

theorem ne_of_endsAt {c : UInt8} (h : EndsAt (· == c) l.input) : ¬ l.get.current = some c := by
  intro hc
  rw [current_get] at hc
  exact absurd (beq_self_eq_true c) (Bool.eq_false_iff.1 (h c hc))

variable (strtod) in
theorem exists_scanNumberDecimal1 {e : Bytes} (he : NumberEnd (0x2e :: e) true r) (hl : l.input = e ++ r) :
    ∃ k, ReadsNumber strtod l e k .valueFloat (scanNumberDecimal1 strtod l) := by
  rw [scanNumberDecimal1]
  cases he with
  | exponent hc => exact absurd hc (by decide)
  | fraction hds hr =>
    obtain ⟨hr, hr'⟩ := hr.and
    obtain ⟨hd, k, heats, hk, h⟩ := exists_scanDigits_get hds hr hl
    refine ⟨k, heats, ?_⟩
    rw [if_pos hd, scanNumberDecimal2, h, if_neg (isExponent_of_endsAt (hk ▸ hr'))]
  | @both c ds e r hds hc he hr =>
    rw [List.append_assoc] at hl
    obtain ⟨hd, k, heats, hk, h⟩ := exists_scanDigits_get hds (endsAt_isDigit_cons hc (e ++ r)) hl
    have hcurrent := current_of_input hk
    obtain ⟨k', hreads⟩ := exists_scanNumberExponent strtod he hr (input_addCurrent (input_of_input hk))
    refine ⟨k', heats.trans (hreads.cons hcurrent).eats, ?_⟩
    rw [if_pos hd, scanNumberDecimal2, h, if_pos (isExponent_iff.2 ⟨c, hcurrent, hc⟩)]
    exact hreads.done

variable (strtod) in
theorem exists_scanNumberInteger {e : Bytes} {float : Bool} (type : TokenType) (he : NumberEnd e float r)
    (hl : l.input = e ++ r) : ∃ k, ReadsNumber strtod l e k (if float then .valueFloat else type)
      (scanNumberInteger strtod l.get type) := by
  rw [scanNumberInteger]
  cases he with
  | integer hr =>
    have hl : l.input = r := hl
    rw [← hl] at hr
    obtain ⟨hpoint, hr⟩ := hr.and
    refine ⟨l, .refl l, ?_⟩
    rw [if_neg (ne_of_endsAt hpoint), if_neg (isExponent_of_endsAt hr)]
    rfl
  | @exponent c e r hc he hr =>
    have hcurrent := current_of_input hl
    obtain ⟨k, hreads⟩ := exists_scanNumberExponent strtod he hr (input_addCurrent (input_of_input hl))
    have hpoint : ¬ l.get.current = some 0x2e := by
      rw [hcurrent]
      rintro ⟨⟩
      exact absurd hc (by decide)
    refine ⟨k, ?_⟩
    rw [if_neg hpoint, if_pos (isExponent_iff.2 ⟨c, hcurrent, hc⟩)]
    exact hreads.cons hcurrent
  | fraction hds hr =>
    have hcurrent := current_of_input hl
    obtain ⟨k, hreads⟩ := exists_scanNumberDecimal1 strtod (.fraction hds hr)
      (input_addCurrent (input_of_input hl))
    refine ⟨k, ?_⟩
    rw [if_pos hcurrent]
    exact hreads.cons hcurrent
  | both hds hc he hr =>
    have hcurrent := current_of_input hl
    obtain ⟨k, hreads⟩ := exists_scanNumberDecimal1 strtod (.both hds hc he hr)
      (input_addCurrent (input_of_input hl))
    refine ⟨k, ?_⟩
    rw [if_pos hcurrent]
    exact hreads.cons hcurrent

/-! ### The whole number -/

section
variable {type : TokenType} {d c : UInt8} {x : TokenType × Lexer}

variable (strtod) in
/-- The label after the first digit. -/
def scanNumberFirst (l : Lexer) (d : UInt8) (type : TokenType) : TokenType × Lexer :=
  if d = 0x30 then scanNumberZero strtod l type else scanNumberAny1 strtod l type

theorem ReadsNumber.append {e : Bytes} (h : Eats l m t t) (h' : ReadsNumber strtod m e k type x) :
    ReadsNumber strtod l (t ++ e) k type x :=
  ⟨h.trans h'.eats, h'.done⟩

theorem scanNumberFirst_sound (hd : isDigit d = true) (h : (scanNumberFirst strtod l d type).1 ≠ .parseError) :
    ∃ i e float k, IntegerText (d :: i) (e ++ k.input) ∧ NumberEnd e float k.input ∧
      ReadsNumber strtod l (i ++ e) k (if float then .valueFloat else type) (scanNumberFirst strtod l d type) := by
  unfold scanNumberFirst at h ⊢
  split_ifs at h ⊢ with hzero
  · obtain ⟨e, float, k, hend, hreads⟩ := scanNumberInteger_sound h
    rw [hzero]
    exact ⟨[], e, float, k, .zero _, hend, hreads⟩
  · obtain ⟨ds, m, hds, heats, hm, hdigits⟩ := scanDigits_sound (l := l) rfl
    rw [scanNumberAny1, hdigits] at h ⊢
    obtain ⟨e, float, k, hend, hreads⟩ := scanNumberInteger_sound h
    rw [hreads.eats.input] at hm
    exact ⟨ds, e, float, k, .digits hd hzero hds hm, hend, hreads.append heats⟩

variable (strtod type) in
theorem exists_scanNumberFirst {i e : Bytes} {float : Bool} (hi : IntegerText (d :: i) (e ++ r)) (he : NumberEnd e float r)
    (hl : l.input = i ++ (e ++ r)) : isDigit d = true ∧
      ∃ k, ReadsNumber strtod l (i ++ e) k (if float then .valueFloat else type) (scanNumberFirst strtod l d type) := by
  unfold scanNumberFirst
  cases hi with
  | zero =>
    obtain ⟨k, hreads⟩ := exists_scanNumberInteger strtod type he hl
    exact ⟨by decide, k, by rwa [if_pos rfl, scanNumberZero]⟩
  | digits hd hzero hds hr =>
    obtain ⟨m, heats, hdigits⟩ := exists_scanDigits hr hds hl
    obtain ⟨k, hreads⟩ := exists_scanNumberInteger strtod type he
      (List.append_cancel_left (heats.input.symm.trans hl))
    refine ⟨hd, k, ?_⟩
    rw [if_neg hzero, scanNumberAny1, hdigits]
    exact hreads.append heats

theorem eats_reset (h : l.current = some c) : l.reset.addCurrent = l.reset.add c := addCurrent_eq h

theorem scanNumber_minus (h : l.current = some 0x2d) : scanNumber strtod l = scanNumberMinus strtod (l.reset.add 0x2d) := by
  rw [scanNumber, eats_reset h]
  exact if_pos h

theorem scanNumber_first (h : l.current = some d) (hd : isDigit d = true) :
    scanNumber strtod l = scanNumberFirst strtod (l.reset.add d) d .valueUnsigned := by
  have hminus : ¬ l.reset.current = some 0x2d := by
    rw [current_reset, h]
    rintro ⟨⟩
    exact absurd hd (by decide)
  rw [scanNumber, scanNumberFirst, eats_reset h, if_neg hminus, current_reset, h]
  simp only [Option.some.injEq]

theorem scanNumberMinus_first (h : l.get.current = some d) (hd : isDigit d = true) :
    scanNumberMinus strtod l = scanNumberFirst strtod l.get.addCurrent d .valueInteger := by
  rw [scanNumberMinus, scanNumberFirst, h, if_pos (isDecimal_iff.2 ⟨d, rfl, hd⟩)]
  simp only [Option.some.injEq]

theorem integerType_of_isDigit (hd : isDigit d = true) (t : Bytes) : integerType (d :: t) = .valueUnsigned := by
  refine if_neg ?_
  rintro ⟨⟩
  exact absurd hd (by decide)

/-- From `l` on, whose current character is the first one of `t`, the number `t` is read. -/
structure ReadsWhole (strtod : Bytes → Double) (l : Lexer) (t r : Bytes) (type : TokenType) (x : TokenType × Lexer) :
    Prop where
  input : l.current.toList ++ l.input = t ++ r
  rest : x.2.input = r
  value : numberOf x = some (numberValue strtod t type)

theorem ReadsNumber.whole {e : Bytes} (hc : l.current = some c) (h : ReadsNumber strtod (l.reset.add c) e k type x) :
    ReadsWhole strtod l (c :: e) k.input type x := by
  have hdone := scanNumberDone_get strtod k type
  have hinput : l.input = e ++ k.input := h.eats.input
  have hbuffer : k.tokenBuffer = c :: e := h.eats.buffer
  rw [← h.done, hbuffer] at hdone
  refine ⟨?_, hdone.1, hdone.2⟩
  rw [hc, hinput]
  rfl

theorem scanNumber_sound (hc : l.current = some c) (hnumber : c = 0x2d ∨ isDigit c = true)
    (h : (scanNumber strtod l).1 ≠ .parseError) : ∃ t float r, NumberText t float r ∧
      ReadsWhole strtod l t r (numberType t float) (scanNumber strtod l) := by
  rcases hnumber with rfl | hd
  · rw [scanNumber_minus hc] at h ⊢
    by_cases hd : isDecimal (l.reset.add 0x2d).get.current = true
    · obtain ⟨d, hcurrent, hd⟩ := isDecimal_iff.1 hd
      rw [scanNumberMinus_first hcurrent hd] at h ⊢
      obtain ⟨i, e, float, k, hi, hend, hreads⟩ := scanNumberFirst_sound hd h
      exact ⟨_, float, k.input, .negative hi hend, (hreads.cons hcurrent).whole hc⟩
    · refine absurd ?_ h
      have hzero : ¬ (l.reset.add 0x2d).get.current = some 0x30 := by
        intro hzero
        rw [hzero] at hd
        exact hd (by decide)
      rw [scanNumberMinus, if_neg hzero, if_neg hd]
      rfl
  · rw [scanNumber_first hc hd] at h ⊢
    obtain ⟨i, e, float, k, hi, hend, hreads⟩ := scanNumberFirst_sound hd h
    refine ⟨_, float, k.input, .positive hi hend, ?_⟩
    rw [numberType, List.cons_append, integerType_of_isDigit hd]
    exact hreads.whole hc

theorem ReadsNumber.whole_get {e : Bytes} (hl : l.input = c :: (e ++ r))
    (h : ReadsNumber strtod (l.get.reset.add c) e k type x) : ReadsWhole strtod l.get (c :: e) r type x := by
  have hinput : e ++ k.input = e ++ r := h.eats.input.symm.trans (input_of_input hl)
  rw [← List.append_cancel_left hinput]
  exact h.whole (current_of_input hl)

variable (strtod) in
theorem exists_scanNumber {float : Bool} (ht : NumberText t float r) (hl : l.input = t ++ r) :
    ReadsWhole strtod l.get t r (numberType t float) (scanNumber strtod l.get) := by
  cases ht with
  | @positive i e r float hi he =>
    obtain ⟨d, i, rfl⟩ := hi.exists_cons
    have hl : l.input = d :: (i ++ e ++ r) := hl
    have hc := current_of_input hl
    have hinput : (l.get.reset.add d).input = i ++ (e ++ r) := by
      rw [← List.append_assoc]
      exact input_of_input hl
    obtain ⟨hd, k, hreads⟩ := exists_scanNumberFirst strtod .valueUnsigned hi he hinput
    rw [scanNumber_first hc hd, numberType, List.cons_append, integerType_of_isDigit hd]
    exact hreads.whole_get hl
  | @negative i e r float hi he =>
    obtain ⟨d, i, rfl⟩ := hi.exists_cons
    have hl : l.input = 0x2d :: (d :: (i ++ e) ++ r) := hl
    have hinput : (l.get.reset.add 0x2d).input = d :: (i ++ (e ++ r)) := by
      rw [← List.append_assoc]
      exact input_of_input hl
    have hc := current_of_input hinput
    obtain ⟨hd, k, hreads⟩ := exists_scanNumberFirst strtod .valueInteger hi he
      (input_addCurrent (input_of_input hinput))
    rw [scanNumber_minus (current_of_input hl), scanNumberMinus_first hc hd]
    exact (hreads.cons hc).whole_get hl

end

end Lexer

end NplBrowser
