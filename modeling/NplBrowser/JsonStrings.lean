import NplBrowser.JsonLexer

/-!
# The strings of a JSON text

What may stand between the quotes of a string, and the bytes that it means (`StringText`): characters of
UTF-8 that need no escape, and escapes. `Lexer.scanString` reads exactly these texts, to the first quote
that no backslash stands before (`Lexer.scanString_sound`, `Lexer.exists_scanString`). What they mean is
UTF-8 (`StringText.wellFormed`).
-/

namespace NplBrowser

/-- The letter of an escape and what it stands for. -/
def escapes : List (UInt8 × UInt8) :=
  [(0x22, 0x22), (0x5c, 0x5c), (0x2f, 0x2f), (0x62, 0x08), (0x66, 0x0c), (0x6e, 0x0a), (0x72, 0x0d), (0x74, 0x09)]

/-- The four digits of a `\u` escape. -/
structure HexDigits (ds : Bytes) : Prop where
  length : ds.length = 4
  hex : ∀ d ∈ ds, isHexDigit d = true

open Lexer (IsHigh IsLow ofPair)

/-- A character or an escape, and its bytes. -/
inductive StringPiece : Bytes → Bytes → Prop
  | char {c : UInt8} {rs : List Utf8.Range} {bs : Bytes} (hc : 0x20 ≤ c) (hquote : c ≠ 0x22) (hslash : c ≠ 0x5c)
    (hf : Utf8.follow c = some rs) (hbs : List.Forall₂ Utf8.InRange bs rs) : StringPiece (c :: bs) (c :: bs)
  | escape {c d : UInt8} (hc : (c, d) ∈ escapes) : StringPiece [0x5c, c] [d]
  | unicode {ds : Bytes} (hds : HexDigits ds) (hhigh : ¬ IsHigh (digitsValue 16 ds))
    (hlow : ¬ IsLow (digitsValue 16 ds)) :
    StringPiece (0x5c :: 0x75 :: ds) (Utf8.encode (digitsValue 16 ds))
  | pair {ds es : Bytes} (hds : HexDigits ds) (hes : HexDigits es) (hhigh : IsHigh (digitsValue 16 ds))
    (hlow : IsLow (digitsValue 16 es)) :
    StringPiece (0x5c :: 0x75 :: (ds ++ 0x5c :: 0x75 :: es))
      (Utf8.encode (ofPair (digitsValue 16 ds) (digitsValue 16 es)))

inductive StringText : Bytes → Bytes → Prop
  | nil : StringText [] []
  | cons {t s t' s' : Bytes} (h : StringPiece t s) (h' : StringText t' s') : StringText (t ++ t') (s ++ s')

theorem digitValue_lt {d : UInt8} (h : isHexDigit d = true) : digitValue d < 16 := by
  have : ∀ n, n < 256 → isHexDigit n.toUInt8 = true → digitValue n.toUInt8 < 16 := by decide +kernel
  simpa using this d.toNat d.toNat_lt (by simpa using h)

theorem HexDigits.eq {ds : Bytes} (h : HexDigits ds) : ∃ a b c d, ds = [a, b, c, d] ∧ isHexDigit a = true ∧
    isHexDigit b = true ∧ isHexDigit c = true ∧ isHexDigit d = true := by
  obtain ⟨hlength, hhex⟩ := h
  obtain ⟨a, b, c, d, rfl⟩ : ∃ a b c d, ds = [a, b, c, d] := by
    rcases ds with _ | ⟨a, _ | ⟨b, _ | ⟨c, _ | ⟨d, _ | ⟨e, ds⟩⟩⟩⟩⟩ <;> simp at hlength
    exact ⟨a, b, c, d, rfl⟩
  simp only [List.forall_mem_cons] at hhex
  exact ⟨a, b, c, d, rfl, hhex.1, hhex.2.1, hhex.2.2.1, hhex.2.2.2.1⟩

theorem HexDigits.value_lt {ds : Bytes} (h : HexDigits ds) : digitsValue 16 ds < 0x10000 := by
  obtain ⟨a, b, c, d, rfl, ha, hb, hc, hd⟩ := h.eq
  have ha := digitValue_lt ha
  have hb := digitValue_lt hb
  have hc := digitValue_lt hc
  have hd := digitValue_lt hd
  simp only [digitsValue, List.foldl_cons, List.foldl_nil]
  omega

theorem isScalar_of_hexDigits {ds : Bytes} (h : HexDigits ds) (hhigh : ¬ IsHigh (digitsValue 16 ds))
    (hlow : ¬ IsLow (digitsValue 16 ds)) : Utf8.IsScalar (digitsValue 16 ds) := by
  have := h.value_lt
  unfold IsHigh at hhigh
  unfold IsLow at hlow
  unfold Utf8.IsScalar
  omega

theorem isScalar_ofPair {high low : Nat} (hhigh : IsHigh high) (hlow : IsLow low) : Utf8.IsScalar (ofPair high low) := by
  unfold IsHigh at hhigh
  unfold IsLow at hlow
  have h : high <<< 10 = high * 1024 := Nat.shiftLeft_eq high 10
  unfold Utf8.IsScalar ofPair
  rw [h]
  omega

theorem StringPiece.ne_nil {t s : Bytes} (h : StringPiece t s) : t ≠ [] := by
  cases h <;> simp

theorem StringPiece.wellFormed {t s : Bytes} (h : StringPiece t s) : Utf8.WellFormed s := by
  cases h with
  | char _ _ _ hf hbs => exact Utf8.wellFormed_char hf hbs
  | escape hc =>
    have : (escapes.all fun e => Utf8.follow e.2 == some []) = true := by decide
    exact Utf8.wellFormed_char (eq_of_beq (List.all_eq_true.1 this _ hc)) .nil
  | unicode hds hhigh hlow => exact Utf8.wellFormed_encode (isScalar_of_hexDigits hds hhigh hlow)
  | pair _ _ hhigh hlow =>
    have h := isScalar_ofPair hhigh hlow
    exact Utf8.wellFormed_encode h

theorem StringText.wellFormed {t s : Bytes} (h : StringText t s) : Utf8.WellFormed s := by
  induction h with
  | nil => exact .nil
  | cons h _ ih => exact h.wellFormed.append ih

namespace Lexer

variable {l l' m : Lexer} {t t' s s' : Bytes}

/-- From one state to the other the text `t` has been read and `s` been put into the token buffer. -/
structure Eats (l l' : Lexer) (t s : Bytes) : Prop where
  input : l.input = t ++ l'.input
  buffer : l'.tokenBuffer = l.tokenBuffer ++ s

theorem Eats.refl (l : Lexer) : Eats l l [] [] := ⟨rfl, (List.append_nil _).symm⟩

theorem Eats.trans (h : Eats l m t s) (h' : Eats m l' t' s') : Eats l l' (t ++ t') (s ++ s') where
  input := by rw [h.input, h'.input, List.append_assoc]
  buffer := by rw [h'.buffer, h.buffer, List.append_assoc]

theorem eats_get {c : UInt8} (h : l.get.current = some c) : Eats l l.get [c] [] := by
  refine ⟨?_, by simp⟩
  rw [current_get] at h
  rw [input_get]
  exact (List.cons_head?_tail (by rw [h]; rfl)).symm

theorem eats_add (l : Lexer) (c : UInt8) : Eats l (l.add c) [] [c] := ⟨rfl, rfl⟩

theorem eats_addAll (l : Lexer) (bs : Bytes) : Eats l (l.addAll bs) [] bs := by
  induction bs generalizing l with
  | nil => exact .refl l
  | cons b bs ih => exact (eats_add l b).trans (ih (l.add b))

theorem current_of_input {c : UInt8} (h : l.input = c :: t) : l.get.current = some c := by
  rw [current_get, h]
  rfl

theorem input_of_input {c : UInt8} (h : l.input = c :: t) : l.get.input = t := by
  rw [input_get, h]
  rfl

/-! ### Escapes -/

theorem getCodepoint_sound {factors : List Nat} : ∀ {l : Lexer} {n v : Nat},
    l.getCodepoint n factors = (some v, l') →
    ∃ ds : Bytes, ds.length = factors.length ∧ (∀ d ∈ ds, isHexDigit d = true) ∧ Eats l l' ds [] ∧
      v = (ds.zip factors).foldl (fun n e => n + digitValue e.1 <<< e.2) n := by
  induction factors with
  | nil =>
    intro l n v h
    cases h
    exact ⟨[], rfl, by simp, .refl _, rfl⟩
  | cons factor factors ih =>
    intro l n v h
    rw [getCodepoint] at h
    cases hc : l.get.current with
    | none =>
      rw [hc] at h
      cases h
    | some c =>
      rw [hc] at h
      dsimp only at h
      split_ifs at h with hhex
      · obtain ⟨ds, hlength, hds, heats, rfl⟩ := ih h
        exact ⟨c :: ds, by simp [hlength], List.forall_mem_cons.2 ⟨hhex, hds⟩, (eats_get hc).trans heats, rfl⟩
      · cases h

theorem exists_getCodepoint (factors : List Nat) : ∀ {l : Lexer} {ds : Bytes} (n : Nat),
    ds.length = factors.length → (∀ d ∈ ds, isHexDigit d = true) → l.input = ds ++ t →
    ∃ l', Eats l l' ds [] ∧ l.getCodepoint n factors =
      (some ((ds.zip factors).foldl (fun n e => n + digitValue e.1 <<< e.2) n), l') := by
  induction factors with
  | nil =>
    intro l ds n hlength _ _
    cases List.length_eq_zero_iff.1 hlength
    exact ⟨l, .refl l, rfl⟩
  | cons factor factors ih =>
    intro l ds n hlength hds hl
    cases ds with
    | nil => cases hlength
    | cons d ds =>
      rw [List.forall_mem_cons] at hds
      have hc := current_of_input hl
      obtain ⟨l', heats, h⟩ := ih (n + digitValue d <<< factor) (Nat.succ.inj hlength) hds.2 (input_of_input hl)
      refine ⟨l', (eats_get hc).trans heats, ?_⟩
      rw [getCodepoint, hc]
      dsimp only
      rw [if_pos hds.1, h]
      rfl

theorem foldl_codepointFactors {ds : Bytes} (h : HexDigits ds) :
    (ds.zip codepointFactors).foldl (fun n e => n + digitValue e.1 <<< e.2) 0 = digitsValue 16 ds := by
  obtain ⟨a, b, c, d, rfl, -⟩ := h.eq
  simp only [codepointFactors, digitsValue, List.zip_cons_cons, List.zip_nil_right, List.foldl_cons, List.foldl_nil,
    Nat.shiftLeft_eq]
  omega

theorem codepoint_sound {v : Nat} (h : l.getCodepoint 0 codepointFactors = (some v, l')) :
    ∃ ds, HexDigits ds ∧ Eats l l' ds [] ∧ v = digitsValue 16 ds := by
  obtain ⟨ds, hlength, hhex, heats, rfl⟩ := getCodepoint_sound h
  exact ⟨ds, ⟨hlength, hhex⟩, heats, foldl_codepointFactors ⟨hlength, hhex⟩⟩

theorem exists_codepoint {ds : Bytes} (h : HexDigits ds) (hl : l.input = ds ++ t) :
    ∃ l', Eats l l' ds [] ∧ l.getCodepoint 0 codepointFactors = (some (digitsValue 16 ds), l') := by
  obtain ⟨l', heats, h'⟩ := exists_getCodepoint codepointFactors 0 h.length h.hex hl
  exact ⟨l', heats, by rw [h', foldl_codepointFactors h]⟩

/-- Both halves of a pair, and the bytes of its character. -/
theorem eats_pair {ds es : Bytes} {l₁ l₂ : Lexer} (heats₁ : Eats l l₁ ds []) (hslash : l₁.get.current = some 0x5c)
    (hu : l₁.get.get.current = some 0x75) (heats₂ : Eats l₁.get.get l₂ es []) (bs : Bytes) :
    Eats l (l₂.addAll bs) (ds ++ 0x5c :: 0x75 :: es) bs := by
  simpa using heats₁.trans ((eats_get hslash).trans ((eats_get hu).trans (heats₂.trans (eats_addAll l₂ bs))))

theorem scanUnicode_sound (h : l.scanUnicode = (true, l')) :
    ∃ t s, Eats l l' t s ∧ StringPiece (0x5c :: 0x75 :: t) s := by
  rw [scanUnicode] at h
  rcases hc₁ : l.getCodepoint 0 codepointFactors with ⟨_ | c₁, l₁⟩
  · rw [hc₁] at h
    cases h
  rw [hc₁] at h
  dsimp only at h
  obtain ⟨ds, hds, heats₁, rfl⟩ := codepoint_sound hc₁
  split_ifs at h with hhigh hslash hu hlow
  · rcases hc₂ : l₁.get.get.getCodepoint 0 codepointFactors with ⟨_ | c₂, l₂⟩
    · rw [hc₂] at h
      cases h
    rw [hc₂] at h
    dsimp only at h
    obtain ⟨es, hes, heats₂, rfl⟩ := codepoint_sound hc₂
    split_ifs at h with hlow
    · obtain ⟨-, rfl⟩ := Prod.mk.inj h
      refine ⟨ds ++ 0x5c :: 0x75 :: es, Utf8.encode (ofPair (digitsValue 16 ds) (digitsValue 16 es)), ?_, ?_⟩
      · exact eats_pair heats₁ hslash hu heats₂ _
      · exact .pair hds hes hhigh hlow
    · cases h
  · cases h
  · cases h
  · cases h
  · cases h
    refine ⟨ds, Utf8.encode (digitsValue 16 ds), ?_, ?_⟩
    · simpa using heats₁.trans (eats_addAll l₁ _)
    · exact .unicode hds hhigh hlow

theorem exists_scanUnicode {ds : Bytes} (hds : HexDigits ds) (hhigh : ¬ IsHigh (digitsValue 16 ds))
    (hlow : ¬ IsLow (digitsValue 16 ds)) (hl : l.input = ds ++ t) :
    ∃ l', Eats l l' ds (Utf8.encode (digitsValue 16 ds)) ∧ l.scanUnicode = (true, l') := by
  obtain ⟨l₁, heats, h⟩ := exists_codepoint hds hl
  refine ⟨_, by simpa using heats.trans (eats_addAll l₁ _), ?_⟩
  rw [scanUnicode, h]
  dsimp only
  rw [if_neg hhigh, if_neg hlow]

theorem exists_scanUnicode_pair {ds es : Bytes} (hds : HexDigits ds) (hes : HexDigits es)
    (hhigh : IsHigh (digitsValue 16 ds)) (hlow : IsLow (digitsValue 16 es))
    (hl : l.input = ds ++ 0x5c :: 0x75 :: (es ++ t)) :
    ∃ l', Eats l l' (ds ++ 0x5c :: 0x75 :: es) (Utf8.encode (ofPair (digitsValue 16 ds) (digitsValue 16 es))) ∧
      l.scanUnicode = (true, l') := by
  obtain ⟨l₁, heats₁, h₁⟩ := exists_codepoint hds hl
  have hl₁ : l₁.input = 0x5c :: 0x75 :: (es ++ t) := List.append_cancel_left (heats₁.input.symm.trans hl)
  have hslash := current_of_input hl₁
  have hu := current_of_input (input_of_input hl₁)
  obtain ⟨l₂, heats₂, h₂⟩ := exists_codepoint hes (input_of_input (input_of_input hl₁))
  refine ⟨_, eats_pair heats₁ hslash hu heats₂ _, ?_⟩
  rw [scanUnicode, h₁]
  simp only [if_pos hhigh, if_pos hslash, if_pos hu, h₂, if_pos hlow]

theorem scanEscape_sound (h : l.scanEscape = (true, l')) : ∃ t s, Eats l l' t s ∧ StringPiece (0x5c :: t) s := by
  have one : ∀ c d, l.get.current = some c → (c, d) ∈ escapes → (true, l.get.add d) = (true, l') →
      ∃ t s, Eats l l' t s ∧ StringPiece (0x5c :: t) s := by
    intro c d hc hd h
    cases h
    exact ⟨[c], [d], (eats_get hc).trans (eats_add l.get d), .escape hd⟩
  rw [scanEscape] at h
  split_ifs at h with h₁ h₂ h₃ h₄ h₅ h₆ h₇ h₈ h₉
  · exact one _ _ h₁ (by decide) h
  · exact one _ _ h₂ (by decide) h
  · exact one _ _ h₃ (by decide) h
  · exact one _ _ h₄ (by decide) h
  · exact one _ _ h₅ (by decide) h
  · exact one _ _ h₆ (by decide) h
  · exact one _ _ h₇ (by decide) h
  · exact one _ _ h₈ (by decide) h
  · obtain ⟨t, s, heats, ht⟩ := scanUnicode_sound h
    exact ⟨0x75 :: t, s, (eats_get h₉).trans heats, ht⟩
  · cases h

theorem exists_scanEscape {c d : UInt8} (hc : (c, d) ∈ escapes) (hl : l.input = c :: t) :
    ∃ l', Eats l l' [c] [d] ∧ l.scanEscape = (true, l') := by
  have hcurrent := current_of_input hl
  refine ⟨_, (eats_get hcurrent).trans (eats_add l.get d), ?_⟩
  rw [scanEscape, hcurrent]
  simp only [escapes, List.mem_cons, Prod.mk.injEq, List.not_mem_nil, or_false] at hc
  rcases hc with ⟨rfl, rfl⟩ | ⟨rfl, rfl⟩ | ⟨rfl, rfl⟩ | ⟨rfl, rfl⟩ | ⟨rfl, rfl⟩ | ⟨rfl, rfl⟩ | ⟨rfl, rfl⟩ | ⟨rfl, rfl⟩ <;>
    rfl

theorem scanEscape_unicode (hl : l.input = 0x75 :: t) : l.scanEscape = l.get.scanUnicode := by
  rw [scanEscape, current_of_input hl]
  rfl

/-! ### Characters of more than a byte -/

theorem follow_of_le {c : UInt8} (h : c ≤ 0x7f) : Utf8.follow c = some [] := if_pos h

theorem nextByteInRange_sound {rs : List Utf8.Range} : ∀ {l : Lexer}, l.nextByteInRange rs = (true, l') →
    ∃ bs, Eats l l' bs bs ∧ List.Forall₂ Utf8.InRange bs rs := by
  induction rs with
  | nil =>
    intro l h
    cases h
    exact ⟨[], .refl _, .nil⟩
  | cons r rs ih =>
    intro l h
    rw [nextByteInRange] at h
    cases hc : l.get.current with
    | none =>
      rw [hc] at h
      cases h
    | some c =>
      rw [hc] at h
      dsimp only at h
      split_ifs at h with hr
      · obtain ⟨bs, heats, hbs⟩ := ih h
        exact ⟨c :: bs, ((eats_get hc).trans (eats_add l.get c)).trans heats, .cons hr hbs⟩
      · cases h

theorem exists_nextByteInRange {rs : List Utf8.Range} {bs : Bytes} (h : List.Forall₂ Utf8.InRange bs rs) :
    ∀ {l : Lexer}, l.input = bs ++ t → ∃ l', Eats l l' bs bs ∧ l.nextByteInRange rs = (true, l') := by
  induction h with
  | nil => exact fun {l} _ => ⟨l, .refl l, rfl⟩
  | @cons b r bs rs hb _ ih =>
    intro l hl
    have hc := current_of_input hl
    have hl' : (l.get.add b).input = bs ++ t := input_of_input hl
    obtain ⟨l', heats, h⟩ := ih hl'
    refine ⟨l', ((eats_get hc).trans (eats_add l.get b)).trans heats, ?_⟩
    rw [nextByteInRange, hc]
    exact (if_pos hb).trans h

/-! ### The string -/

theorem not_le_iff {c : UInt8} : ¬ c ≤ 0x1f ↔ 0x20 ≤ c := by
  rw [UInt8.le_iff_toNat_le, UInt8.le_iff_toNat_le]
  exact Nat.not_le

/-- A turn of the loop. -/
theorem scanStringLoop_succ_sound {n : Nat} (h : scanStringLoop (n + 1) l = (.valueString, l')) :
    (Eats l l' [0x22] []) ∨
      ∃ m t s, StringPiece t s ∧ Eats l m t s ∧ scanStringLoop n m = (.valueString, l') := by
  rw [scanStringLoop] at h
  cases hc : l.get.current with
  | none =>
    rw [hc] at h
    cases h
  | some c =>
    rw [hc] at h
    dsimp only at h
    have hget := eats_get hc
    split_ifs at h with hquote hslash hescape hcontrol hascii
    · cases h
      rw [hquote] at hget
      exact .inl hget
    · obtain ⟨t, s, heats, ht⟩ := scanEscape_sound (Prod.ext hescape rfl)
      rw [hslash] at hget
      exact .inr ⟨_, _, _, ht, hget.trans heats, h⟩
    · cases h
    · cases h
    · have hchar : StringPiece [c] [c] := .char (not_le_iff.1 hcontrol) hquote hslash (follow_of_le hascii) .nil
      exact .inr ⟨_, _, _, hchar, hget.trans (eats_add l.get c), h⟩
    · cases hf : Utf8.follow c with
      | none =>
        rw [hf] at h
        cases h
      | some rs =>
        rw [hf] at h
        dsimp only at h
        split_ifs at h with hnext
        · obtain ⟨bs, heats, hbs⟩ := nextByteInRange_sound (Prod.ext hnext rfl)
          have hchar : StringPiece (c :: bs) (c :: bs) := .char (not_le_iff.1 hcontrol) hquote hslash hf hbs
          exact .inr ⟨_, _, _, hchar, (hget.trans (eats_add l.get c)).trans heats, h⟩
        · cases h

theorem scanStringLoop_sound {n : Nat} : ∀ {l : Lexer}, scanStringLoop n l = (.valueString, l') →
    ∃ t s, Eats l l' (t ++ [0x22]) s ∧ StringText t s := by
  induction n with
  | zero =>
    intro l h
    cases h
  | succ n ih =>
    intro l h
    obtain hend | ⟨m, t, s, hpiece, heats, hm⟩ := scanStringLoop_succ_sound h
    · exact ⟨[], [], hend, .nil⟩
    · obtain ⟨t', s', heats', ht'⟩ := ih hm
      refine ⟨t ++ t', s ++ s', ?_, .cons hpiece ht'⟩
      rw [List.append_assoc]
      exact heats.trans heats'

theorem scanStringLoop_quote (hl : l.input = 0x22 :: t) (n : Nat) :
    scanStringLoop (n + 1) l = (.valueString, l.get) := by
  rw [scanStringLoop, current_of_input hl]
  rfl

theorem scanStringLoop_escape (hl : l.input = 0x5c :: t) (h : l.get.scanEscape = (true, m)) (n : Nat) :
    scanStringLoop (n + 1) l = scanStringLoop n m := by
  rw [scanStringLoop, current_of_input hl]
  dsimp only
  rw [if_neg (by decide), if_pos rfl, h]
  rfl

theorem scanStringLoop_char {c : UInt8} {rs : List Utf8.Range} (hc : 0x20 ≤ c) (hquote : c ≠ 0x22) (hslash : c ≠ 0x5c)
    (hf : Utf8.follow c = some rs) (hl : l.input = c :: t) (h : (l.get.add c).nextByteInRange rs = (true, m)) (n : Nat) :
    scanStringLoop (n + 1) l = scanStringLoop n m := by
  rw [scanStringLoop, current_of_input hl]
  dsimp only
  rw [if_neg hquote, if_neg hslash, if_neg (not_le_iff.2 hc)]
  by_cases hascii : c ≤ 0x7f
  · rw [follow_of_le hascii] at hf
    cases hf
    cases h
    rw [if_pos hascii]
  · rw [if_neg hascii, hf]
    dsimp only
    rw [h]
    rfl

theorem Eats.escape (h : Eats l.get.get m t s) (hl : l.input = 0x5c :: t') (hl' : l.get.input = 0x75 :: s') :
    Eats l m (0x5c :: 0x75 :: t) s :=
  (eats_get (current_of_input hl)).trans ((eats_get (current_of_input hl')).trans h)

theorem exists_scanStringLoop_succ (h : StringPiece t s) {r : Bytes} (hl : l.input = t ++ r) :
    ∃ m, Eats l m t s ∧ ∀ n, scanStringLoop (n + 1) l = scanStringLoop n m := by
  cases h with
  | @char c rs bs hc hquote hslash hf hbs =>
    have hl' : (l.get.add c).input = bs ++ r := input_of_input hl
    obtain ⟨m, heats, hm⟩ := exists_nextByteInRange hbs hl'
    refine ⟨m, ?_, scanStringLoop_char hc hquote hslash hf hl hm⟩
    exact ((eats_get (current_of_input hl)).trans (eats_add l.get c)).trans heats
  | escape hc =>
    obtain ⟨m, heats, hm⟩ := exists_scanEscape hc (input_of_input hl)
    exact ⟨m, (eats_get (current_of_input hl)).trans heats, scanStringLoop_escape hl hm⟩
  | unicode hds hhigh hlow =>
    have hl' := input_of_input hl
    obtain ⟨m, heats, hm⟩ := exists_scanUnicode hds hhigh hlow (input_of_input hl')
    rw [← scanEscape_unicode hl'] at hm
    exact ⟨m, heats.escape hl hl', scanStringLoop_escape hl hm⟩
  | @pair ds es hds hes hhigh hlow =>
    have hl' := input_of_input hl
    have hl'' : l.get.get.input = ds ++ 0x5c :: 0x75 :: (es ++ r) :=
      (input_of_input hl').trans (List.append_assoc ds _ r)
    obtain ⟨m, heats, hm⟩ := exists_scanUnicode_pair hds hes hhigh hlow hl''
    rw [← scanEscape_unicode hl'] at hm
    exact ⟨m, heats.escape hl hl', scanStringLoop_escape hl hm⟩

theorem exists_scanStringLoop (h : StringText t s) : ∀ {n : Nat} {l : Lexer} {r : Bytes},
    l.input = t ++ 0x22 :: r → t.length < n →
    ∃ l', Eats l l' (t ++ [0x22]) s ∧ scanStringLoop n l = (.valueString, l') := by
  induction h with
  | nil =>
    intro n l r hl hn
    obtain ⟨n, rfl⟩ := Nat.exists_eq_add_one_of_ne_zero (Nat.ne_of_gt hn)
    exact ⟨l.get, eats_get (current_of_input hl), scanStringLoop_quote hl n⟩
  | @cons t s t' s' hpiece h ih =>
    intro n l r hl hn
    obtain ⟨n, rfl⟩ := Nat.exists_eq_add_one_of_ne_zero (Nat.ne_of_gt (Nat.zero_lt_of_lt hn))
    rw [List.append_assoc] at hl
    obtain ⟨m, heats, hm⟩ := exists_scanStringLoop_succ hpiece hl
    have hlength : 0 < t.length := List.length_pos_iff.2 hpiece.ne_nil
    rw [List.length_append] at hn
    obtain ⟨l', heats', h'⟩ := ih (List.append_cancel_left (heats.input.symm.trans hl)) (by omega : t'.length < n)
    refine ⟨l', ?_, (hm n).trans h'⟩
    rw [List.append_assoc]
    exact heats.trans heats'

theorem scanStringLoop_type (n : Nat) : ∀ l : Lexer,
    (scanStringLoop n l).1 = .valueString ∨ (scanStringLoop n l).1 = .parseError := by
  induction n with
  | zero => exact fun _ => .inr rfl
  | succ n ih =>
    intro l
    rw [scanStringLoop]
    cases l.get.current with
    | none => exact .inr rfl
    | some c =>
      dsimp only
      split_ifs
      · exact .inl rfl
      · exact ih _
      · exact .inr rfl
      · exact .inr rfl
      · exact ih _
      · cases Utf8.follow c with
        | none => exact .inr rfl
        | some rs =>
          dsimp only
          split_ifs
          · exact ih _
          · exact .inr rfl

theorem scanString_type (l : Lexer) : l.scanString.1 = .valueString ∨ l.scanString.1 = .parseError :=
  scanStringLoop_type _ _

theorem scanString_sound (h : l.scanString = (.valueString, l')) :
    ∃ t, l.input = t ++ 0x22 :: l'.input ∧ StringText t l'.tokenBuffer := by
  obtain ⟨t, s, heats, ht⟩ := scanStringLoop_sound h
  have hinput : l.input = t ++ [0x22] ++ l'.input := heats.input
  have hbuffer : l'.tokenBuffer = s := heats.buffer
  rw [List.append_assoc] at hinput
  exact ⟨t, hinput, by rwa [hbuffer]⟩

theorem exists_scanString (h : StringText t s) {r : Bytes} (hl : l.input = t ++ 0x22 :: r) :
    ∃ l', l.scanString = (.valueString, l') ∧ l'.input = r ∧ l'.tokenBuffer = s := by
  have hlength : t.length < l.input.length + 1 := by
    rw [hl, List.length_append]
    omega
  obtain ⟨l', heats, h'⟩ := exists_scanStringLoop h (l := l.reset) hl hlength
  refine ⟨l', h', ?_, heats.buffer⟩
  have hinput := heats.input.symm.trans hl
  rw [List.append_assoc] at hinput
  exact (List.cons.inj (List.append_cancel_left hinput)).2

end Lexer

end NplBrowser
