import NplBrowser.DumpFloat
import NplBrowser.JsonWellFormed

/-!
# A dump is read back

`dumpWith` is the dump with and without indentation. Its text is a row of tokens with white space between
them (`Json.tokens_dumpWith`), so that parsing gives the value again as `parsed` says it
(`Json.parse_dumpWith`): in an object the keys have to stand in order, as they do in a `std::map`, and a number
has to be read back as itself (`ReadsBack`), as a value that `to_chars` has written is (`readsBack_toChars`).
-/

namespace NplBrowser

/-! ### Integers -/

theorem digitsValue_map {l : List Char} (h : ∀ c ∈ l, c.isDigit = true) : ∀ n : Nat,
    (l.map fun c => c.toNat.toUInt8).foldl (fun n d => n * 10 + digitValue d) n = Nat.ofDigitChars 10 l n := by
  induction l with
  | nil => exact fun n => Nat.ofDigitChars_nil.symm
  | cons c l ih =>
    intro n
    obtain ⟨hlo, hhi⟩ := Char.isDigit_iff_toNat.1 (h c (by simp))
    have hlo : 48 ≤ c.toNat := hlo
    have hhi : c.toNat ≤ 57 := hhi
    have hvalue : ∀ k, 48 ≤ k → k ≤ 57 → digitValue k.toUInt8 = k - 48 := by decide
    rw [List.map_cons, List.foldl_cons, ih fun c hc => h c (by simp [hc]), Nat.ofDigitChars_cons, hvalue _ hlo hhi,
      Nat.mul_comm]
    rfl

theorem digits_toDigits (n : Nat) : ∀ c ∈ Nat.toDigits 10 n, c.isDigit = true :=
  fun _ hc => Nat.isDigit_of_mem_toDigits (by decide) (by decide) hc

theorem digitsValue_decimal (n : Nat) : digitsValue 10 (decimal n) = n :=
  (digitsValue_map (digits_toDigits n) 0).trans Nat.ofDigitChars_ten_toDigits

theorem digits_decimal (n : Nat) : Digits (decimal n) where
  ne_nil := by simp [decimal, Nat.toDigits_ne_nil]
  digits := by
    intro d hd
    obtain ⟨c, hc, rfl⟩ := List.mem_map.1 hd
    obtain ⟨hlo, hhi⟩ := Char.isDigit_iff_toNat.1 (digits_toDigits n c hc)
    have hdigit : ∀ k, 48 ≤ k → k ≤ 57 → isDigit k.toUInt8 = true := by decide
    exact hdigit _ hlo hhi

/-- Only the zero begins with one. -/
theorem head?_decimal {n : Nat} (hn : n ≠ 0) : (decimal n).head? ≠ some 0x30 := by
  induction n using Nat.strong_induction_on with
  | _ n ih =>
    unfold decimal at *
    rw [Nat.toDigits_eq_if (by decide)]
    split_ifs with h
    · have : ∀ n, n < 10 → n ≠ 0 → (([n.digitChar].map fun c => c.toNat.toUInt8).head? ≠ some 0x30) := by decide
      exact this n h hn
    · rw [List.map_append, List.head?_append_of_ne_nil _ (by simp [Nat.toDigits_ne_nil])]
      exact ih (n / 10) (by omega) (by omega)

/-- What makes a number longer. -/
def isNumberChar (c : UInt8) : Bool := isDigit c || (c == 0x2e || isExponentLetter c)

section
variable {r : Bytes}

theorem numberText_decimal (n : Nat) (hr : EndsAt isNumberChar r) :
    NumberText (decimal n) false r ∧ NumberText (0x2d :: decimal n) false r := by
  obtain ⟨hdigit, hend⟩ := hr.and
  have hinteger : IntegerText (decimal n) ([] ++ r) := by
    by_cases hn : n = 0
    · subst hn
      exact .zero _
    · obtain ⟨d, ds, h⟩ := List.exists_cons_of_ne_nil (digits_decimal n).ne_nil
      have hdigits := (digits_decimal n).digits
      have hfirst := head?_decimal hn
      rw [h] at hdigits hfirst ⊢
      exact .digits (hdigits d (by simp)) (fun hd => hfirst (congrArg some hd)) (fun x hx => hdigits x (by simp [hx])) hdigit
  have htext := NumberText.positive hinteger (.integer hend)
  have htext' := NumberText.negative hinteger (.integer hend)
  rw [List.append_nil] at htext htext'
  exact ⟨htext, htext'⟩

variable (strtod : Bytes → Double)

theorem numberValue_decimal (n : UInt64) :
    numberValue strtod (decimal n.toNat) (numberType (decimal n.toNat) false) = .unsigned n := by
  have htype : numberType (decimal n.toNat) false = .valueUnsigned := by
    obtain ⟨d, ds, h⟩ := List.exists_cons_of_ne_nil (digits_decimal n.toNat).ne_nil
    have hdigit : isDigit d = true := (digits_decimal n.toNat).digits d (by simp [h])
    have hd : d ≠ 0x2d := by
      rintro rfl
      cases hdigit
    simp [numberType, integerType, h, hd]
  have hlt := n.toNat_lt
  rw [htype, numberValue, if_pos rfl, Lexer.strtoull, digitsValue_decimal, if_pos hlt]
  simp

theorem numberValue_minus {i : Int64} (hi : i < 0) :
    numberValue strtod (0x2d :: decimal i.toInt.natAbs) (numberType (0x2d :: decimal i.toInt.natAbs) false) = .integer i := by
  have htype : numberType (0x2d :: decimal i.toInt.natAbs) false = .valueInteger := rfl
  have hle := i.le_toInt
  have hneg : i.toInt < 0 := Int64.lt_iff_toInt_lt.1 hi
  have hbound : i.toInt.natAbs ≤ 2 ^ 63 := by omega
  rw [htype, numberValue, if_neg (by decide), if_pos rfl, Lexer.strtoll, List.tail_cons, digitsValue_decimal, if_pos hbound]
  have hback : Int64.ofInt (-(i.toInt.natAbs : Int)) = i := by
    rw [show -(i.toInt.natAbs : Int) = i.toInt by omega, Int64.ofInt_toInt]
  exact congrArg Json.integer hback

end

/-! ### Strings -/

theorem stringPiece_escape {b : UInt8} (hb : b ≤ 0x7f) : StringPiece (escape b) [b] := by
  unfold escape
  split_ifs with h08 h09 h0a h0c h0d h22 h5c h1f
  · exact h08 ▸ .escape (c := 0x62) (by decide)
  · exact h09 ▸ .escape (c := 0x74) (by decide)
  · exact h0a ▸ .escape (c := 0x6e) (by decide)
  · exact h0c ▸ .escape (c := 0x66) (by decide)
  · exact h0d ▸ .escape (c := 0x72) (by decide)
  · exact h22 ▸ .escape (c := 0x22) (by decide)
  · exact h5c ▸ .escape (c := 0x5c) (by decide)
  · -- any other control character, in four digits
    have hdigits : ∀ n, n < 32 → (hex4 n).length = 4 ∧ (∀ d ∈ hex4 n, isHexDigit d = true) ∧
        digitsValue 16 (hex4 n) = n ∧ Utf8.encode n = [n.toUInt8] := by decide +kernel
    have hn : b.toNat < 32 := Nat.lt_succ_of_le (UInt8.le_iff_toNat_le.1 h1f)
    obtain ⟨hlength, hhex, hvalue, hencode⟩ := hdigits b.toNat hn
    have hpiece : StringPiece (0x5c :: 0x75 :: hex4 b.toNat) (Utf8.encode (digitsValue 16 (hex4 b.toNat))) := by
      refine .unicode ⟨hlength, hhex⟩ ?_ ?_
      · rw [hvalue, Lexer.IsHigh]
        omega
      · rw [hvalue, Lexer.IsLow]
        omega
    have hlit : lit "\\u" = [0x5c, 0x75] := by decide
    rw [hvalue, hencode] at hpiece
    simpa [hlit] using hpiece
  · exact .char (Lexer.not_le_iff.1 h1f) h22 h5c (Lexer.follow_of_le hb) .nil

theorem le_of_not_ascii {b : UInt8} (h : ¬ b ≤ 0x7f) : 0x80 ≤ b := by
  rw [UInt8.le_iff_toNat_le] at h ⊢
  exact Nat.lt_of_not_le h

theorem escape_of_le {b : UInt8} (hb : 0x80 ≤ b) : escape b = [b] := by
  have : ∀ n, n < 256 → 0x80 ≤ n → escape n.toUInt8 = [n.toUInt8] := by decide +kernel
  simpa using this b.toNat b.toNat_lt (UInt8.le_iff_toNat_le.1 hb)

theorem le_of_follow {b : UInt8} {rs : List Utf8.Range} (h : Utf8.follow b = some rs) : ∀ r ∈ rs, 0x80 ≤ r.1 := by
  unfold Utf8.follow at h
  split_ifs at h
  all_goals
    cases h
    simp [Utf8.tail]

/-- Nothing within a longer character is escaped. -/
theorem flatMap_escape_of_inRange {bs : Bytes} {rs : List Utf8.Range} (h : List.Forall₂ Utf8.InRange bs rs)
    (hrs : ∀ r ∈ rs, 0x80 ≤ r.1) : bs.flatMap escape = bs := by
  induction h with
  | nil => rfl
  | cons hb _ ih =>
    rw [List.forall_mem_cons] at hrs
    rw [List.flatMap_cons, escape_of_le (UInt8.le_trans hrs.1 hb.1), ih hrs.2]
    rfl

theorem stringText_escape {s : Bytes} (h : Utf8.WellFormed s) : StringText (s.flatMap escape) s := by
  induction h with
  | nil => exact .nil
  | @cons b rs bs l hb hbs _ ih =>
    rw [List.flatMap_cons, List.flatMap_append, flatMap_escape_of_inRange hbs (le_of_follow hb)]
    by_cases hle : b ≤ 0x7f
    · cases hb.symm.trans (Lexer.follow_of_le hle)
      cases hbs
      exact .cons (stringPiece_escape hle) ih
    · have hge : 0x80 ≤ b := le_of_not_ascii hle
      have hpiece : StringPiece (b :: bs) (b :: bs) := by
        refine .char (UInt8.le_trans (by decide) hge) ?_ ?_ hb hbs
        · rintro rfl
          exact absurd hge (by decide)
        · rintro rfl
          exact absurd hge (by decide)
      rw [escape_of_le hge, ← List.append_assoc]
      exact .cons hpiece ih

/-! ### The dump with indentation -/

/-- What stands before an element and before a closing bracket. -/
def gap (indent : Option Nat) (current : Nat) : Bytes :=
  match indent with
  | none => []
  | some _ => 0x0a :: List.replicate current 0x20

def colon (indent : Option Nat) : Bytes := if indent.isSome then lit ": " else lit ":"

theorem cat_nil_cons (l : List (Option Bytes)) : cat (some [] :: l) = cat l := by
  cases h : cat l <;> simp [cat, h]

theorem cat_some_eq_iff {u t : Bytes} {l : List (Option Bytes)} :
    cat (some u :: l) = some t ↔ ∃ v, cat l = some v ∧ u ++ v = t := by
  cases h : cat l <;> simp [cat, h]

theorem cat_one {o : Option Bytes} {t : Bytes} (h : cat [o] = some t) : o = some t := by
  obtain ⟨u, rfl, v, ⟨⟩, rfl⟩ := cat_cons_eq_some_iff.1 h
  rw [List.append_nil]

/-- What is in brackets. -/
theorem cat_brackets {a b g t : Bytes} {o : Option Bytes} (h : cat [some a, o, some g, some b] = some t) :
    ∃ u, o = some u ∧ t = a ++ (u ++ (g ++ b)) := by
  obtain ⟨_, h₁, rfl⟩ := cat_some_eq_iff.1 h
  obtain ⟨u, rfl, _, h₂, rfl⟩ := cat_cons_eq_some_iff.1 h₁
  obtain ⟨_, h₃, rfl⟩ := cat_some_eq_iff.1 h₂
  cases cat_one h₃
  exact ⟨u, rfl, rfl⟩

namespace Json

section
variable (dumpFloat : Double → Bytes) (indent : Option Nat)

mutual

/-- `dump` at a depth, `indent` the step from one depth to the next if there is to be indentation. The row of
blanks that the serializer copies from is taken to be long enough, as it is to a depth of 512. -/
def dumpWith (current : Nat) : Json → Option Bytes
  | null => some (lit "null")
  | boolean b => some (lit (if b then "true" else "false"))
  | integer i => some (dumpInt i.toInt)
  | unsigned n => some (decimal n.toNat)
  | float x => some (if x.isFinite then dumpFloat x else lit "null")
  | string s => dumpString s
  | array l =>
    if l.isEmpty then some (lit "[]")
    else cat [some (lit "["), dumpElemsWith (current + indent.getD 0) l, some (gap indent current), some (lit "]")]
  | object fs =>
    if fs.isEmpty then some (lit "\x7b\x7d")
    else cat [some (lit "\x7b"), dumpMembersWith (current + indent.getD 0) fs, some (gap indent current), some (lit "\x7d")]

def dumpElemsWith (current : Nat) : List Json → Option Bytes
  | [] => some []
  | [j] => cat [some (gap indent current), dumpWith current j]
  | j :: l => cat [some (gap indent current), dumpWith current j, some (lit ","), dumpElemsWith current l]

def dumpMembersWith (current : Nat) : List (Bytes × Json) → Option Bytes
  | [] => some []
  | [(k, j)] => cat [some (gap indent current), dumpString k, some (colon indent), dumpWith current j]
  | (k, j) :: fs => cat [some (gap indent current), dumpString k, some (colon indent), dumpWith current j, some (lit ","),
      dumpMembersWith current fs]

end

end

/-! Without indentation it is the compact dump. -/

section
variable {dumpFloat : Double → Bytes}

mutual

theorem dumpWith_none (current : Nat) : ∀ j : Json, j.dumpWith dumpFloat none current = j.dump dumpFloat
  | null | boolean _ | integer _ | unsigned _ | float _ | string _ => rfl
  | array l => by
    rw [dumpWith, dump, dumpElemsWith_none]
    cases l with
    | nil => rfl
    | cons j l => cases dumpElems dumpFloat (j :: l) <;> simp [cat, gap]
  | object fs => by
    rw [dumpWith, dump, dumpMembersWith_none]
    cases fs with
    | nil => rfl
    | cons e fs => cases dumpMembers dumpFloat (e :: fs) <;> simp [cat, gap]

theorem dumpElemsWith_none (current : Nat) : ∀ l : List Json, dumpElemsWith dumpFloat none current l = dumpElems dumpFloat l
  | [] => rfl
  | [j] => by
    rw [dumpElemsWith, dumpElems, dumpWith_none, gap, cat_nil_cons]
    cases j.dump dumpFloat <;> simp [cat]
  | j :: j' :: l => by
    rw [dumpElemsWith, dumpElems, dumpWith_none, dumpElemsWith_none current (j' :: l)]
    · exact cat_nil_cons _
    · simp
    · simp

theorem dumpMembersWith_none (current : Nat) : ∀ fs : List (Bytes × Json),
    dumpMembersWith dumpFloat none current fs = dumpMembers dumpFloat fs
  | [] => rfl
  | [(k, j)] => by
    rw [dumpMembersWith, dumpMembers, dumpWith_none]
    exact cat_nil_cons _
  | (k, j) :: e :: fs => by
    rw [dumpMembersWith, dumpMembers, dumpWith_none, dumpMembersWith_none current (e :: fs)]
    · exact cat_nil_cons _
    · simp
    · simp

end

end

end Json

/-! ### The tokens of a dump -/

section
variable {strtod : Bytes → Double} {text t w r : Bytes} {a : JsonToken} {as : List JsonToken}

theorem Blanks.append (hw : Blanks w) (ht : Blanks t) : Blanks (w ++ t) :=
  fun c hc => (List.mem_append.1 hc).elim (hw c) (ht c)

theorem blanks_singleton {c : UInt8} (h : Lexer.isBlank (some c) = true) : Blanks [c] :=
  fun _ hd => List.mem_singleton.1 hd ▸ h

theorem tokens_one (h : TokenText strtod t a r) : Tokens strtod (t ++ r) [a] r :=
  .cons ⟨[], t, rfl, by simp [Blanks], h⟩ (.nil r)

theorem Tokens.cons_text (h : TokenText strtod t a text) (has : Tokens strtod text as r) :
    Tokens strtod (t ++ text) (a :: as) r :=
  tokens_append.2 ⟨text, tokens_one h, has⟩

/-- More white space in front changes nothing. -/
theorem Tokens.blanks (hw : Blanks w) (h : Tokens strtod text as r) (hne : as ≠ []) : Tokens strtod (w ++ text) as r := by
  cases h with
  | nil => exact absurd rfl hne
  | cons ha has =>
    obtain ⟨w', t, rfl, hw', ht⟩ := ha
    exact .cons ⟨w ++ w', t, (List.append_assoc _ _ _).symm, hw.append hw', ht⟩ has

theorem blanks_gap (indent : Option Nat) (current : Nat) : Blanks (gap indent current) := by
  cases indent with
  | none => exact fun c hc => absurd hc List.not_mem_nil
  | some n =>
    intro c hc
    rcases List.mem_cons.1 hc with rfl | hc
    · decide
    · rw [List.eq_of_mem_replicate hc]
      decide

/-- A gap and what no number goes on with. -/
theorem endsAt_gap {c : UInt8} (hc : isNumberChar c = false) (indent : Option Nat) (current : Nat) (r : Bytes) :
    EndsAt isNumberChar (gap indent current ++ c :: r) := by
  cases indent with
  | none =>
    rintro d ⟨⟩
    exact hc
  | some n =>
    rintro d ⟨⟩
    decide

theorem endsAt_comma (r : Bytes) : EndsAt isNumberChar (lit "," ++ r) := by
  rintro c ⟨⟩
  decide

theorem endsAt_blanks (hw : Blanks w) : EndsAt isNumberChar w := by
  intro c hc
  have hblank := hw c (List.mem_of_mem_head? hc)
  have : ∀ n, n < 256 → Lexer.isBlank (some n.toUInt8) = true → isNumberChar n.toUInt8 = false := by decide +kernel
  simpa using this c.toNat c.toNat_lt (by simpa using hblank)

variable (strtod) in
theorem tokenText_dumpString {s : Bytes} (h : dumpString s = some t) (r : Bytes) : TokenText strtod t (.string s) r := by
  unfold dumpString at h
  split at h
  · rename_i hs
    cases h
    exact .string (stringText_escape (utf8_iff.1 hs)) r
  · cases h

variable (strtod) in
theorem tokens_colon (indent : Option Nat) (h : Tokens strtod text as r) (hne : as ≠ []) :
    Tokens strtod (colon indent ++ text) (.nameSeparator :: as) r := by
  have hcolon : ∀ r, TokenText strtod [0x3a] .nameSeparator r := .punctuation (by simp [punctuation])
  cases indent with
  | none => exact .cons_text (hcolon _) h
  | some n =>
    have hblank : Blanks [0x20] := blanks_singleton (by decide)
    exact .cons_text (t := [0x3a]) (hcolon _) (h.blanks hblank hne)

end

/-- A value that is a number of the grammar when it is written, and is read as itself. -/
structure ReadsBack (strtod : Bytes → Double) (dumpFloat : Double → Bytes) (x : Double) : Prop where
  text : ∀ r, EndsAt isNumberChar r → NumberText (dumpFloat x) true r
  value : strtod (dumpFloat x) = x

namespace Json

/-- The keys in order, and a finite number to be read back. -/
structure Readable (strtod : Bytes → Double) (dumpFloat : Double → Bytes) (j : Json) : Prop where
  order : j.HasOrder
  number : ∀ x, j = float x → x.isFinite = true → ReadsBack strtod dumpFloat x

variable {strtod : Bytes → Double} {dumpFloat : Double → Bytes} {indent : Option Nat}

theorem readable_object {fs : List (Bytes × Json)} (horder : Assoc.Ordered fs)
    (hfs : ∀ e ∈ fs, Every (Readable strtod dumpFloat) e.2) : Every (Readable strtod dumpFloat) (object fs) :=
  .mk ⟨horder, by simp⟩ (by simp [elems]) hfs

/-- Neither elements nor members, and if it is a number, it is read back. -/
theorem readable_leaf {j : Json} (hl : j.elems = []) (hfs : j.fields = [])
    (hnumber : ∀ x, j = float x → ReadsBack strtod dumpFloat x) : Every (Readable strtod dumpFloat) j := by
  refine .mk ⟨?_, fun x hx _ => hnumber x hx⟩ (by simp [hl]) (by simp [hfs])
  rw [HasOrder, hfs]
  exact Assoc.ordered_nil

theorem ordered_parsedMembers {fs : List (Bytes × Json)} (h : Assoc.Ordered fs) : Assoc.Ordered (parsedMembers fs) := by
  have hmem : ∀ {fs : List (Bytes × Json)}, ∀ e ∈ parsedMembers fs, ∃ e' ∈ fs, e'.1 = e.1 := by
    intro fs
    induction fs with
    | nil => exact fun e he => absurd he List.not_mem_nil
    | cons e fs ih =>
      intro e' he'
      rcases List.mem_cons.1 he' with rfl | he'
      · exact ⟨e, by simp, rfl⟩
      · obtain ⟨e'', he'', hkey⟩ := ih e' he'
        exact ⟨e'', by simp [he''], hkey⟩
  induction fs with
  | nil => exact Assoc.ordered_nil
  | cons e fs ih =>
    obtain ⟨hlt, hfs⟩ := Assoc.ordered_cons.1 h
    refine Assoc.ordered_cons.2 ⟨fun a ha => ?_, ih hfs⟩
    obtain ⟨e', he', hkey⟩ := hmem a ha
    exact hkey ▸ hlt e' he'

theorem tokenText_integer (strtod : Bytes → Double) (i : Int64) {r : Bytes} (hr : EndsAt isNumberChar r) :
    TokenText strtod (dumpInt i.toInt) (.literal (integer i).parsed) r := by
  rw [dumpInt, parsed]
  by_cases hi : i < 0
  · have hneg : i.toInt < 0 := Int64.lt_iff_toInt_lt.1 hi
    have hvalue := numberValue_minus strtod hi
    rw [if_pos hneg, if_pos hi, ← hvalue]
    exact .number (numberText_decimal _ hr).2 (hvalue ▸ rfl)
  · have hpos : 0 ≤ i := Int64.not_lt.1 hi
    have hnat : i.toInt.natAbs = i.toUInt64.toNat := by
      rw [Int64.toNat_toUInt64_of_le hpos, ← Int64.cast_toNatClampNeg i hpos, Int.natAbs_natCast]
    have hvalue := numberValue_decimal strtod i.toUInt64
    have hnot : ¬ i.toInt < 0 := fun hneg => hi (Int64.lt_iff_toInt_lt.2 hneg)
    rw [if_neg hnot, if_neg hi, hnat, ← hvalue]
    exact .number (numberText_decimal _ hr).1 (hvalue ▸ rfl)

theorem tokenText_float {x : Double} {r : Bytes} (h : ReadsBack strtod dumpFloat x) (hfinite : x.isFinite = true)
    (hr : EndsAt isNumberChar r) : TokenText strtod (dumpFloat x) (.literal (float x)) r := by
  have hvalue : numberValue strtod (dumpFloat x) (numberType (dumpFloat x) true) = float x := congrArg float h.value
  rw [← hvalue]
  refine .number (h.text r hr) ?_
  rw [hvalue]
  exact hfinite

theorem tokenText_scalar {j : Json} {current : Nat} {t r : Bytes} (hscalar : j.isScalar = true)
    (h : j.dumpWith dumpFloat indent current = some t) (hj : Readable strtod dumpFloat j) (hr : EndsAt isNumberChar r) :
    TokenText strtod t (.literal j.parsed) r := by
  have hnull : (lit "null", JsonToken.literal null) ∈ words := by simp [words]
  cases j with
  | string | array | object => cases hscalar
  | null =>
    cases h
    exact .word hnull r
  | boolean b =>
    cases h
    have hword : (lit (if b then "true" else "false"), JsonToken.literal (boolean b)) ∈ words := by
      cases b <;> simp [words]
    exact .word hword r
  | integer i =>
    cases h
    exact tokenText_integer strtod i hr
  | unsigned n =>
    cases h
    have hvalue := numberValue_decimal strtod n
    show TokenText strtod (decimal n.toNat) (.literal (unsigned n)) r
    rw [← hvalue]
    exact .number (numberText_decimal n.toNat hr).1 (hvalue ▸ rfl)
  | float x =>
    rw [dumpWith] at h
    cases h
    rw [parsed]
    split
    · rename_i hfinite
      exact tokenText_float (hj.number x rfl hfinite) hfinite hr
    · exact .word hnull r

/-- A key and the colon before a value. -/
theorem tokens_member {k s text r : Bytes} {current : Nat} {as : List JsonToken} (hk : dumpString k = some s)
    (h : Tokens strtod text as r) (hne : as ≠ []) :
    Tokens strtod (gap indent current ++ (s ++ (colon indent ++ text))) (.string k :: .nameSeparator :: as) r := by
  have hcolon := tokens_colon strtod indent h hne
  have hkey := hcolon.cons_text (tokenText_dumpString strtod hk _)
  exact hkey.blanks (blanks_gap indent current) (by simp)

/-- A comma between two rows of tokens. -/
theorem tokens_comma {u v r : Bytes} {as bs : List JsonToken} (h : Tokens strtod (u ++ (lit "," ++ v)) as (lit "," ++ v))
    (h' : Tokens strtod v bs r) : Tokens strtod (u ++ (lit "," ++ v)) (as ++ .valueSeparator :: bs) r := by
  have hcomma : TokenText strtod (lit ",") .valueSeparator v := .punctuation (c := 0x2c) (by simp [punctuation]) v
  exact tokens_append.2 ⟨_, h, h'.cons_text hcomma⟩

/-- A row of tokens between brackets. -/
theorem tokens_brackets {o c u r : Bytes} {a b : JsonToken} {as : List JsonToken} {current : Nat}
    (hopen : ∀ r, TokenText strtod o a r) (hclose : ∀ r, TokenText strtod c b r)
    (h : Tokens strtod (u ++ (gap indent current ++ (c ++ r))) as (gap indent current ++ (c ++ r))) :
    Tokens strtod (o ++ (u ++ (gap indent current ++ c)) ++ r) (a :: (as ++ [b])) r := by
  have hgap : Tokens strtod (gap indent current ++ (c ++ r)) [b] r :=
    (tokens_one (hclose r)).blanks (blanks_gap indent current) (by simp)
  have hrow : Tokens strtod (u ++ (gap indent current ++ (c ++ r))) (as ++ [b]) r := tokens_append.2 ⟨_, h, hgap⟩
  simpa only [List.append_assoc] using hrow.cons_text (hopen _)

mutual

/-- The dump of a value, and that the tokens in it are those of what is to be read. -/
theorem tokens_dumpWith : ∀ {j : Json} {current : Nat} {t r : Bytes}, j.dumpWith dumpFloat indent current = some t →
    Every (Readable strtod dumpFloat) j → EndsAt isNumberChar r →
    ∃ as, Tokens strtod (t ++ r) as r ∧ ValueTokens as j.parsed
  | null, _, _, _, h, hj, hr | boolean _, _, _, _, h, hj, hr | integer _, _, _, _, h, hj, hr
  | unsigned _, _, _, _, h, hj, hr | float _, _, _, _, h, hj, hr =>
    ⟨_, tokens_one (tokenText_scalar rfl h hj.self hr), .literal _⟩
  | string s, _, _, r, h, _, _ => ⟨_, tokens_one (tokenText_dumpString strtod h r), .string s⟩
  | array l, current, t, r, h, hj, hr => by
    rw [dumpWith] at h
    have hopen : ∀ r, TokenText strtod (lit "[") .beginArray r := .punctuation (c := 0x5b) (by simp [punctuation])
    have hclose : ∀ r, TokenText strtod (lit "]") .endArray r := .punctuation (c := 0x5d) (by simp [punctuation])
    split at h
    · rename_i hempty
      cases List.isEmpty_iff.1 hempty
      cases h
      have hall := (tokens_one (hclose r)).cons_text (hopen _)
      exact ⟨_, hall, .emptyArray⟩
    · rename_i hne
      obtain ⟨u, hu, rfl⟩ := cat_brackets h
      obtain ⟨-, hl, -⟩ := hj
      have hend : EndsAt isNumberChar (gap indent current ++ (lit "]" ++ r)) := endsAt_gap (c := 0x5d) (by decide) _ _ r
      obtain ⟨as, htokens, has⟩ := tokens_dumpElemsWith (by simpa using hne) hu hl hend
      exact ⟨_, tokens_brackets hopen hclose htokens, .array has⟩
  | object fs, current, t, r, h, hj, hr => by
    rw [dumpWith] at h
    have hopen : ∀ r, TokenText strtod (lit "\x7b") .beginObject r := .punctuation (c := 0x7b) (by simp [punctuation])
    have hclose : ∀ r, TokenText strtod (lit "\x7d") .endObject r := .punctuation (c := 0x7d) (by simp [punctuation])
    split at h
    · rename_i hempty
      cases List.isEmpty_iff.1 hempty
      cases h
      have hall := (tokens_one (hclose r)).cons_text (hopen _)
      exact ⟨_, hall, .emptyObject⟩
    · rename_i hne
      obtain ⟨u, hu, rfl⟩ := cat_brackets h
      obtain ⟨hread, -, hfs⟩ := hj
      have hend : EndsAt isNumberChar (gap indent current ++ (lit "\x7d" ++ r)) := endsAt_gap (c := 0x7d) (by decide) _ _ r
      obtain ⟨as, htokens, has⟩ := tokens_dumpMembersWith (by simpa using hne) hu hfs hend
      -- the members come in the order in which the map has them
      have horder : Assoc.Ordered fs := hread.order
      have hobject := ValueTokens.object has
      rw [Assoc.insertAll_nil (ordered_parsedMembers horder)] at hobject
      exact ⟨_, tokens_brackets hopen hclose htokens, hobject⟩

theorem tokens_dumpElemsWith : ∀ {l : List Json} {current : Nat} {t r : Bytes}, l ≠ [] →
    dumpElemsWith dumpFloat indent current l = some t → (∀ j ∈ l, Every (Readable strtod dumpFloat) j) →
    EndsAt isNumberChar r → ∃ as, Tokens strtod (t ++ r) as r ∧ ElementTokens as (parsedElems l)
  | [], _, _, _, hne, _, _, _ => absurd rfl hne
  | [j], current, t, r, _, h, hl, hr => by
    obtain ⟨u, h₁, rfl⟩ := cat_some_eq_iff.1 h
    have hu := cat_one h₁
    obtain ⟨as, htokens, has⟩ := tokens_dumpWith hu (hl j (by simp)) hr
    refine ⟨as, ?_, .one has⟩
    simpa only [List.append_assoc, List.append_nil] using htokens.blanks (blanks_gap indent current) has.ne_nil
  | j :: j' :: l, current, t, r, _, h, hl, hr => by
    obtain ⟨_, h₁, rfl⟩ := cat_some_eq_iff.1 h
    obtain ⟨u, hu, _, h₂, rfl⟩ := cat_cons_eq_some_iff.1 h₁
    obtain ⟨v, h₃, rfl⟩ := cat_some_eq_iff.1 h₂
    have hv := cat_one h₃
    rw [List.forall_mem_cons] at hl
    obtain ⟨bs, hbs, hrest⟩ := tokens_dumpElemsWith (by simp) hv hl.2 hr
    obtain ⟨as, has, hvalue⟩ := tokens_dumpWith hu hl.1 (endsAt_comma _)
    have hrow := tokens_comma has hbs
    refine ⟨_, ?_, .cons hvalue hrest⟩
    simpa only [List.append_assoc, List.append_nil] using hrow.blanks (blanks_gap indent current) (by simp)

theorem tokens_dumpMembersWith : ∀ {fs : List (Bytes × Json)} {current : Nat} {t r : Bytes}, fs ≠ [] →
    dumpMembersWith dumpFloat indent current fs = some t → (∀ e ∈ fs, Every (Readable strtod dumpFloat) e.2) →
    EndsAt isNumberChar r → ∃ as, Tokens strtod (t ++ r) as r ∧ MemberTokens as (parsedMembers fs)
  | [], _, _, _, hne, _, _, _ => absurd rfl hne
  | [(k, j)], current, t, r, _, h, hfs, hr => by
    obtain ⟨_, h₁, rfl⟩ := cat_some_eq_iff.1 h
    obtain ⟨s, hs, _, h₂, rfl⟩ := cat_cons_eq_some_iff.1 h₁
    obtain ⟨u, h₃, rfl⟩ := cat_some_eq_iff.1 h₂
    have hu := cat_one h₃
    obtain ⟨as, htokens, has⟩ := tokens_dumpWith hu (hfs (k, j) (by simp)) hr
    refine ⟨_, ?_, .one k has⟩
    simpa only [List.append_assoc] using tokens_member hs htokens has.ne_nil
  | (k, j) :: e :: fs, current, t, r, _, h, hfs, hr => by
    obtain ⟨_, h₁, rfl⟩ := cat_some_eq_iff.1 h
    obtain ⟨s, hs, _, h₂, rfl⟩ := cat_cons_eq_some_iff.1 h₁
    obtain ⟨_, h₃, rfl⟩ := cat_some_eq_iff.1 h₂
    obtain ⟨u, hu, _, h₄, rfl⟩ := cat_cons_eq_some_iff.1 h₃
    obtain ⟨v, h₅, rfl⟩ := cat_some_eq_iff.1 h₄
    have hv := cat_one h₅
    rw [List.forall_mem_cons] at hfs
    obtain ⟨bs, hbs, hrest⟩ := tokens_dumpMembersWith (by simp) hv hfs.2 hr
    obtain ⟨as, has, hvalue⟩ := tokens_dumpWith hu hfs.1 (endsAt_comma _)
    have hrow := tokens_comma has hbs
    refine ⟨_, ?_, .cons k hvalue hrest⟩
    simpa only [List.append_assoc] using tokens_member hs hrow (by simp)

end

/-! ### Reading it back -/

theorem head?_of_tokenText {t r : Bytes} {a : JsonToken} (h : TokenText strtod t a r) : (t ++ r).head? ≠ some 0xef := by
  cases h with
  | punctuation h =>
    simp only [punctuation, List.mem_cons, Prod.mk.injEq, List.not_mem_nil, or_false] at h
    rcases h with ⟨rfl, -⟩ | ⟨rfl, -⟩ | ⟨rfl, -⟩ | ⟨rfl, -⟩ | ⟨rfl, -⟩ | ⟨rfl, -⟩ <;> simp
  | word h =>
    simp only [words, List.mem_cons, Prod.mk.injEq, List.not_mem_nil, or_false] at h
    rcases h with ⟨rfl, -⟩ | ⟨rfl, -⟩ | ⟨rfl, -⟩ <;> simp [lit]
  | string => simp
  | number h =>
    obtain ⟨c, t, rfl, rfl | hc⟩ := h.exists_cons
    · simp
    · rintro ⟨⟩
      exact absurd hc (by decide)

/-- No token begins as a byte order mark does. -/
theorem dropBom_of_tokens {text r : Bytes} {as : List JsonToken} (h : Tokens strtod text as r) (hne : as ≠ []) :
    dropBom text = some text := by
  cases h with
  | nil => exact absurd rfl hne
  | cons ha _ =>
    obtain ⟨w, t, rfl, hw, ht⟩ := ha
    refine if_neg ?_
    cases w with
    | nil =>
      rw [List.nil_append]
      exact head?_of_tokenText ht
    | cons c w =>
      rintro ⟨⟩
      exact absurd (hw 0xef (by simp)) (by decide)

theorem beginsWith_dumpWith {j : Json} {t r : Bytes} (h : j.dumpWith dumpFloat indent 0 = some t)
    (hj : Every (Readable strtod dumpFloat) j) (hr : EndsAt isNumberChar r) : BeginsWith strtod (t ++ r) j.parsed r := by
  obtain ⟨as, htokens, has⟩ := tokens_dumpWith h hj hr
  exact ⟨_, as, dropBom_of_tokens htokens has.ne_nil, htokens, has⟩

theorem jsonText_dumpWith {j : Json} {t w : Bytes} (h : j.dumpWith dumpFloat indent 0 = some t)
    (hj : Every (Readable strtod dumpFloat) j) (hw : Blanks w) : JsonText strtod (t ++ w) j.parsed :=
  ⟨w, beginsWith_dumpWith h hj (endsAt_blanks hw), w, [], (List.append_nil w).symm, hw, by simp⟩

/-- Neither the parser nor the stream reads anything else, whatever white space is put behind the text. -/
theorem parse_dumpWith_of_readable (root : Json) {j : Json} {t w : Bytes} (h : j.dumpWith dumpFloat indent 0 = some t)
    (hj : Every (Readable strtod dumpFloat) j) (hw : Blanks w) :
    Json.parse strtod (t ++ w) = .ok j.parsed ∧ Json.read strtod (t ++ w) root = (j.parsed, none) := by
  obtain ⟨r, hbegins, hend⟩ := jsonText_dumpWith h hj hw
  exact ⟨parse_ok_iff.2 (Parser.parse_eq_iff.2 ⟨r, hbegins, fun _ => hend⟩), read_eq_iff.2 ⟨r, hbegins⟩⟩

end Json

/-! ### Numbers as `to_chars` writes them -/

theorem readsBack_toChars {grisu2 : Double → Bytes × Int} {x : Double} (h : Writes grisu2 x) :
    ReadsBack atof (toChars grisu2) x where
  text r hr := by
    obtain ⟨hdigit, hend⟩ := hr.and
    exact numberText_toChars h (hdigit.or hend.and.2)
  value := atof_toChars h

namespace Json

end Json

end NplBrowser
