import NplBrowser.Bytes
import Mathlib.Data.List.TakeWhile

/-!
# What a browser reads of a text in a document

A script's string literal and the text of a `pre` element, as far as a text that is put there
unchanged or escaped can tell. Texts are UTF-8; all that matters to either reader are ASCII
characters.

`readText` is the data state of the HTML tokenizer. It stops where markup begins, replaces character
references, and knows the line breaks of the input stream preprocessor. The table of the named
references is a parameter, with what is needed of it. A text is `Clean` if nothing in it means
anything but itself, and only then is it read as itself (`shown_eq_iff`).
-/

namespace NplBrowser

/-! ## String literals -/

/-- The character a single-character escape stands for; a line break that is escaped is no part of the
value. A digit, `x` or `u` would begin a numeric escape, which is not read. -/
def escapeValue (c : UInt8) : Option Bytes :=
  if isDigit c ∨ c = 120 ∨ c = 117 then none
  else if c = 10 ∨ c = 13 then some []
  else if c = 98 then some [8]
  else if c = 102 then some [12]
  else if c = 110 then some [10]
  else if c = 114 then some [13]
  else if c = 116 then some [9]
  else if c = 118 then some [11]
  else some [c]

/-- A single-quoted literal, from behind its opening quote: its value, and what follows the closing
quote. A line break ends the line before the literal is complete. -/
def readLiteral : Bytes → Option (Bytes × Bytes)
  | [] => none
  | b :: s =>
    if b = 39 then some ([], s)
    else if b = 92 then
      match s with
      | [] => none
      | c :: s => (escapeValue c).bind fun v => (readLiteral s).map fun r => (v ++ r.1, r.2)
    else if b = 10 ∨ b = 13 then none
    else (readLiteral s).map fun r => (b :: r.1, r.2)

/-! ## Text -/

namespace Html

def isAlpha (b : UInt8) : Bool := (65 ≤ b && b ≤ 90) || (97 ≤ b && b ≤ 122)

/-- What a reference is made of, behind the `&`. -/
def isRefChar (b : UInt8) : Bool := isAlpha b || isDigit b || b == 35 || b == 59

/-- A text as a reference stands for it. -/
structure Value (v : Bytes) : Prop where
  ne_nil : v ≠ []
  amp : 38 ∈ v → v = [38]
  nul : 0 ∉ v

/-- The named references, each name with its semicolon if it has one, and the characters of the
numeric ones. -/
structure References where
  named : Bytes → Option Bytes
  numeric : Nat → Bytes
  named_value : ∀ n v, named n = some v → Value v
  numeric_value : ∀ n, Value (numeric n)
  /-- A semicolon ends a name. -/
  semicolon : ∀ n v, named n = some v → 59 ∉ n.dropLast
  lt : named (lit "lt;") = some (lit "<")
  gt : named (lit "gt;") = some (lit ">")

variable (refs : References)

/-- The longest name among the first `n` characters: its length and what it stands for. -/
def longest (s : Bytes) : Nat → Option (Nat × Bytes)
  | 0 => none
  | n + 1 =>
    match refs.named (s.take (n + 1)) with
    | some v => some (n + 1, v)
    | none => longest s n

/-- A number in `base`, `skip` characters into `s`, with the semicolon that may follow. -/
def numeric (base : Nat) (digit : UInt8 → Bool) (s : Bytes) (skip : Nat) : Option (Nat × Bytes) :=
  let digits := (s.drop skip).takeWhile digit
  let length := skip + digits.length
  if digits = [] then none
  else
    some (if s[length]? = some 59 then length + 1 else length,
      refs.numeric (digitsValue base digits))

/-- The reference that `s`, which follows a `&`, begins with: its length and what it stands for. -/
def charRef (s : Bytes) : Option (Nat × Bytes) :=
  let s := s.takeWhile isRefChar
  if s.head? = some 35 then
    if s[1]? = some 120 ∨ s[1]? = some 88 then numeric refs 16 isHexDigit s 2 else numeric refs 10 isDigit s 1
  else longest refs s s.length

/-- What follows a `<` that begins a tag or a comment. -/
def opensMarkup (s : Bytes) : Bool := s.head?.any fun b => isAlpha b || b == 47 || b == 33 || b == 63

/-- The characters up to the next markup, and what is left from there on. Without `markup` every `<` is
a character. -/
def readText (markup : Bool) : Bytes → Bytes × Bytes
  | [] => ([], [])
  | b :: s =>
    if b = 60 ∧ markup ∧ opensMarkup s then ([], b :: s)
    else
      match if b = 38 then charRef refs s else none with
      | some (n, v) =>
        let r := readText markup (s.drop n)
        (v ++ r.1, r.2)
      | none =>
        let r := readText markup s
        -- of CR LF only the LF is left
        (if b = 13 then if s.head? = some 10 then r.1 else 10 :: r.1 else b :: r.1, r.2)
termination_by s => s.length

/-- The text of a `pre` element: a line break at its very beginning is dropped, and so is every NUL. -/
def preText (s : Bytes) : Bytes × Bytes :=
  let r := readText refs true s
  ((if r.1.head? = some 10 then r.1.tail else r.1).filter (· ≠ 0), r.2)

/-- Nothing in the text means anything but itself. -/
def Clean (markup : Bool) : Bytes → Prop
  | [] => True
  | b :: s =>
    (b ≠ 13 ∧ b ≠ 0 ∧ (b = 38 → charRef refs s = none) ∧ (markup = true → b = 60 → opensMarkup s = false)) ∧
      Clean markup s

/-! ### References -/

variable {refs} {s t u v : Bytes} {markup : Bool} {n k : Nat}

theorem longest_bounds (h : longest refs s k = some (n, v)) : 0 < n ∧ n ≤ k ∧ Value v := by
  induction k with
  | zero => cases h
  | succ k ih =>
    unfold longest at h
    split at h
    · rename_i w hw
      cases h
      exact ⟨Nat.succ_pos k, Nat.le_refl _, refs.named_value _ _ hw⟩
    · obtain ⟨hpos, hle, hv⟩ := ih h
      exact ⟨hpos, Nat.le_succ_of_le hle, hv⟩

theorem numeric_bounds {base : Nat} {digit : UInt8 → Bool} {skip : Nat}
    (h : numeric refs base digit s skip = some (n, v)) : 0 < n ∧ n ≤ s.length ∧ Value v := by
  unfold numeric at h
  dsimp only at h
  split at h
  · cases h
  · rename_i hdigits
    have hpos := List.length_pos_iff.2 hdigits
    have hle : ((s.drop skip).takeWhile digit).length ≤ s.length - skip := by
      have := List.IsPrefix.length_le (List.takeWhile_prefix (l := s.drop skip) digit)
      rwa [List.length_drop] at this
    rw [Option.some.injEq, Prod.mk.injEq] at h
    obtain ⟨hn, rfl⟩ := h
    refine ⟨?_, ?_, refs.numeric_value _⟩
    · split at hn <;> omega
    · split at hn
      · rename_i hsemicolon
        obtain ⟨hlt, -⟩ := List.getElem?_eq_some_iff.1 hsemicolon
        omega
      · omega

theorem charRef_bounds (h : charRef refs s = some (n, v)) :
    0 < n ∧ n ≤ (s.takeWhile isRefChar).length ∧ Value v := by
  unfold charRef at h
  dsimp only at h
  split at h
  · split at h <;> exact numeric_bounds h
  · exact longest_bounds h

/-- A reference ends within the text, in which only its own characters have been looked at. -/
theorem charRef_take (h : charRef refs s = some (n, v)) :
    n ≤ s.length ∧ ∀ b ∈ s.take n, isRefChar b = true := by
  obtain ⟨-, hle, -⟩ := charRef_bounds h
  have hrun := List.takeWhile_prefix (l := s) isRefChar
  refine ⟨hle.trans hrun.length_le, fun b hb => ?_⟩
  have hpre : s.take n <+: s.takeWhile isRefChar :=
    List.prefix_of_prefix_length_le (List.take_prefix n s) hrun (by rw [List.length_take]; omega)
  exact List.mem_takeWhile_imp (hpre.subset hb)

theorem charRef_congr (h : s.takeWhile isRefChar = t.takeWhile isRefChar) : charRef refs s = charRef refs t := by
  unfold charRef
  rw [h]

/-- No name goes on behind a semicolon. -/
theorem longest_semicolon {name : Bytes} (hname : refs.named (name ++ [59]) = some v) (s : Bytes) :
    longest refs (name ++ 59 :: s) (name.length + 1 + s.length) = some (name.length + 1, v) := by
  suffices h : ∀ j ≤ s.length,
      longest refs (name ++ 59 :: s) (name.length + 1 + j) = some (name.length + 1, v) from h _ (Nat.le_refl _)
  intro j hj
  induction j with
  | zero =>
    have htake : (name ++ 59 :: s).take (name.length + 1) = name ++ [59] := by
      rw [List.append_cons, List.take_left' (by simp)]
    show longest refs _ (name.length + 1) = _
    unfold longest
    rw [htake, hname]
  | succ j ih =>
    have htake : (name ++ 59 :: s).take (name.length + 1 + j + 1) = name ++ 59 :: s.take (j + 1) := by
      rw [List.take_append, List.take_of_length_le (by omega),
        show name.length + 1 + j + 1 - name.length = (j + 1) + 1 by omega, List.take_succ_cons]
    have hlong : (59 : UInt8) ∈ (name ++ 59 :: s.take (j + 1)).dropLast := by
      have hne : s.take (j + 1) ≠ [] := List.ne_nil_of_length_pos (by rw [List.length_take]; omega)
      rw [List.dropLast_append_of_ne_nil (List.cons_ne_nil _ _), List.dropLast_cons_of_ne_nil hne]
      simp
    have hnone : refs.named (name ++ 59 :: s.take (j + 1)) = none := by
      cases hnamed : refs.named (name ++ 59 :: s.take (j + 1)) with
      | none => rfl
      | some w => exact absurd hlong (refs.semicolon _ _ hnamed)
    show longest refs _ (name.length + 1 + j + 1) = _
    unfold longest
    rw [htake, hnone]
    exact ih (by omega)

/-- An escaped character is read as itself, whatever follows. -/
theorem charRef_semicolon {name : Bytes} (hname : refs.named (name ++ [59]) = some v)
    (hchars : name.all isRefChar = true) (hhash : name.head? ≠ some 35) (s : Bytes) :
    charRef refs (name ++ 59 :: s) = some (name.length + 1, v) := by
  have hrun : (name ++ 59 :: s).takeWhile isRefChar = name ++ 59 :: s.takeWhile isRefChar := by
    rw [List.takeWhile_append_of_pos (List.all_eq_true.1 hchars), List.takeWhile_cons_of_pos (by decide)]
  have hhead : (name ++ 59 :: s.takeWhile isRefChar).head? ≠ some 35 := by
    cases name with
    | nil => simp
    | cons b name => simpa using hhash
  unfold charRef
  rw [hrun, if_neg hhead]
  have hlength : (name ++ 59 :: s.takeWhile isRefChar).length =
      name.length + 1 + (s.takeWhile isRefChar).length := by
    simp only [List.length_append, List.length_cons]
    omega
  rw [hlength]
  exact longest_semicolon hname _

/-! ### Reading on -/

theorem readText_nil : readText refs markup [] = ([], []) := by rw [readText]

/-- A character that is one. -/
theorem readText_cons {b : UInt8} (hmarkup : ¬ (b = 60 ∧ markup = true ∧ opensMarkup s = true))
    (href : b = 38 → charRef refs s = none) : readText refs markup (b :: s) =
      (if b = 13 then if s.head? = some 10 then (readText refs markup s).1 else 10 :: (readText refs markup s).1
        else b :: (readText refs markup s).1, (readText refs markup s).2) := by
  have hnone : (if b = 38 then charRef refs s else none) = none := by
    split
    exacts [href ‹_›, rfl]
  rw [readText, if_neg hmarkup, hnone]

theorem readText_ref (h : charRef refs s = some (n, v)) : readText refs markup (38 :: s) =
    (v ++ (readText refs markup (s.drop n)).1, (readText refs markup (s.drop n)).2) := by
  rw [readText, if_neg (by simp), if_pos rfl, h]

theorem readText_markup (h : opensMarkup s = true) : readText refs true (60 :: s) = ([], 60 :: s) := by
  rw [readText, if_pos ⟨rfl, rfl, h⟩]

variable (refs markup) in
/-- The way a text is read: it ends, markup begins, or a character or a reference is read. -/
theorem readText_induction {motive : Bytes → Prop} (nil : motive [])
    (opens : ∀ s, markup = true → opensMarkup s = true → motive (60 :: s))
    (char : ∀ b s, ¬ (b = 60 ∧ markup = true ∧ opensMarkup s = true) → (b = 38 → charRef refs s = none) →
      motive s → motive (b :: s))
    (ref : ∀ s n v, charRef refs s = some (n, v) → motive (s.drop n) → motive (38 :: s)) (s : Bytes) :
    motive s := by
  induction hlen : s.length using Nat.strong_induction_on generalizing s with
  | _ k ih =>
    rcases s with _ | ⟨b, s⟩
    · exact nil
    rw [List.length_cons] at hlen
    by_cases hmarkup : b = 60 ∧ markup = true ∧ opensMarkup s = true
    · obtain ⟨rfl, hmarkup, hopens⟩ := hmarkup
      exact opens s hmarkup hopens
    by_cases href : b = 38 → charRef refs s = none
    · exact char b s hmarkup href (ih s.length (by omega) s rfl)
    · rw [Classical.not_imp] at href
      obtain ⟨rfl, href⟩ := href
      obtain ⟨⟨n, v⟩, href⟩ := Option.ne_none_iff_exists'.1 href
      have hless : (s.drop n).length < k := by
        rw [List.length_drop]
        omega
      exact ref s n v href (ih _ hless (s.drop n) rfl)

/-! ### When a text is read as itself -/

variable (refs) in
/-- The characters that are shown. -/
def shown (markup : Bool) (s : Bytes) : Bytes := (readText refs markup s).1.filter (· ≠ 0)

theorem shown_ref (h : charRef refs s = some (n, v)) :
    shown refs markup (38 :: s) = v ++ shown refs markup (s.drop n) := by
  have hv : v.filter (· ≠ 0) = v := by
    refine List.filter_eq_self.2 fun b hb => ?_
    have hne : b ≠ 0 := fun h0 => (charRef_bounds h).2.2.nul (h0 ▸ hb)
    simpa using hne
  rw [shown, readText_ref h, List.filter_append, hv]
  rfl

theorem shown_cons {b : UInt8} (hmarkup : ¬ (b = 60 ∧ markup = true ∧ opensMarkup s = true))
    (href : b = 38 → charRef refs s = none) : shown refs markup (b :: s) =
      if b = 0 ∨ b = 13 ∧ s.head? = some 10 then shown refs markup s
      else (if b = 13 then 10 else b) :: shown refs markup s := by
  rw [shown, readText_cons hmarkup href]
  by_cases hcr : b = 13
  · subst hcr
    by_cases hlf : s.head? = some 10 <;> simp [hlf, shown]
  · by_cases hnul : b = 0 <;> simp [hcr, hnul, shown]

/-- Nothing is gained by reading: a text is never shown with something before it. -/
theorem shown_ne_append (hu : u ≠ []) : shown refs markup s ≠ u ++ s := by
  induction s using readText_induction refs markup generalizing u with
  | nil =>
    rw [shown, readText_nil, List.append_nil]
    exact hu.symm
  | opens s hmarkup hopens =>
    subst hmarkup
    rw [shown, readText_markup hopens]
    simp
  | char b s hmarkup href ih =>
    intro heq
    rw [shown_cons hmarkup href] at heq
    split at heq
    · exact ih (u := u ++ [b]) (by simp) (by simpa using heq)
    · -- the character shown is the first of `u`
      rcases u with _ | ⟨a, u⟩
      · exact hu rfl
      · rw [List.cons_append, List.cons.injEq] at heq
        exact ih (u := u ++ [b]) (by simp) (by simpa using heq.2)
  | ref s n v href ih =>
    intro heq
    obtain ⟨-, -, hv⟩ := charRef_bounds href
    rw [shown_ref href] at heq
    have hrest : (38 : UInt8) :: s = (38 :: s.take n) ++ s.drop n := by
      rw [List.cons_append, List.take_append_drop]
    rw [hrest, ← List.append_assoc] at heq
    rcases Nat.lt_or_ge u.length v.length with hlt | hge
    · -- the `&` would lie in what the reference stands for, behind `u`
      have hwhole : u ++ [38] <+: v ++ shown refs markup (s.drop n) := by
        rw [heq]
        exact ⟨s.take n ++ s.drop n, by simp⟩
      have hpre : u ++ [38] <+: v := List.prefix_of_prefix_length_le hwhole (List.prefix_append _ _)
        (by rw [List.length_append]; exact hlt)
      have hamp := hv.amp (hpre.subset (by simp))
      have hlen := hpre.length_le
      have hupos := List.length_pos_iff.2 hu
      rw [hamp] at hlen
      simp only [List.length_append, List.length_cons, List.length_nil] at hlen
      omega
    · have hwhole : u <+: v ++ shown refs markup (s.drop n) := ⟨_, by rw [heq, List.append_assoc]⟩
      have hpre : v <+: u := List.prefix_of_prefix_length_le (List.prefix_append _ _) hwhole hge
      obtain ⟨w, rfl⟩ := hpre
      rw [List.append_assoc, List.append_assoc, List.append_cancel_left_eq, ← List.append_assoc] at heq
      exact ih (by simp) heq

theorem shown_eq_iff (markup : Bool) (s : Bytes) :
    (shown refs markup s = s ∧ (readText refs markup s).2 = []) ↔ Clean refs markup s := by
  induction s using readText_induction refs markup with
  | nil => simp [shown, readText_nil, Clean]
  | opens s hmarkup hopens =>
    subst hmarkup
    simp [shown, readText_markup hopens, Clean, hopens]
  | char b s hmarkup href ih =>
    have hopens : markup = true → b = 60 → opensMarkup s = false := fun hm hb =>
      Bool.eq_false_iff.2 fun ho => hmarkup ⟨hb, hm, ho⟩
    have hrest : (readText refs markup (b :: s)).2 = (readText refs markup s).2 := by
      rw [readText_cons hmarkup href]
    rw [shown_cons hmarkup href, hrest, Clean, ← ih]
    by_cases hdropped : b = 0 ∨ b = 13 ∧ s.head? = some 10
    · rw [if_pos hdropped]
      refine iff_of_false (fun h => shown_ne_append (List.cons_ne_nil b []) h.1) fun h => ?_
      rcases hdropped with h0 | ⟨hcr, -⟩
      exacts [h.1.2.1 h0, h.1.1 hcr]
    · rw [if_neg hdropped]
      rw [not_or] at hdropped
      by_cases hcr : b = 13
      · subst hcr
        simp
      · rw [if_neg hcr, List.cons.injEq]
        simp only [true_and, ne_eq, hcr, not_false_eq_true, hdropped.1]
        exact ⟨fun h => ⟨⟨href, hopens⟩, h⟩, fun h => h.2⟩
  | ref s n v href ih =>
    obtain ⟨hpos, -, hv⟩ := charRef_bounds href
    have hnone : ¬ charRef refs s = none := by simp [href]
    refine iff_of_false (fun h => ?_) fun h => hnone (h.1.2.2.1 rfl)
    rw [shown_ref href] at h
    have htake : s.take n ≠ [] := by
      refine List.ne_nil_of_length_pos ?_
      have hle := (charRef_take href).1
      rw [List.length_take]
      omega
    rcases v with _ | ⟨a, v⟩
    · exact hv.ne_nil rfl
    · rw [List.cons_append, List.cons.injEq] at h
      obtain ⟨⟨rfl, h⟩, -⟩ := h
      have hnil := hv.amp (.head _)
      rw [List.cons.injEq] at hnil
      rw [hnil.2, List.nil_append] at h
      exact shown_ne_append htake (h.trans (List.take_append_drop n s).symm)

/-! ### A text in a document -/

/-- What a reference or a `<` before it does not reach into. -/
structure Boundary (t : Bytes) : Prop where
  refChars : t.takeWhile isRefChar = []
  markup : opensMarkup t = false

theorem boundary_nil : Boundary [] := ⟨rfl, rfl⟩

theorem boundary_cons {b : UInt8} (h : isRefChar b = false ∧ opensMarkup [b] = false) (t : Bytes) :
    Boundary (b :: t) := ⟨List.takeWhile_cons_of_neg (by simp [h.1]), h.2⟩

theorem Boundary.append (hs : Boundary s) (ht : Boundary t) : Boundary (s ++ t) := by
  rcases s with _ | ⟨b, s⟩
  · exact ht
  · refine ⟨?_, hs.markup⟩
    have hb := hs.refChars
    rw [List.takeWhile_eq_nil_iff] at hb ⊢
    exact fun _ => hb (Nat.succ_pos _)

theorem boundary_flatMap {α : Type*} {f : α → Bytes} (h : ∀ a, Boundary (f a)) (l : List α) :
    Boundary (l.flatMap f) := by
  induction l with
  | nil => exact boundary_nil
  | cons a l ih => exact (h a).append ih

theorem takeWhile_append_boundary (h : Boundary t) (s : Bytes) :
    (s ++ t).takeWhile isRefChar = s.takeWhile isRefChar := by
  rw [List.takeWhile_append, h.refChars]
  split
  · rename_i hall
    rw [List.append_nil, (List.takeWhile_prefix isRefChar).eq_of_length hall]
  · rfl

theorem opensMarkup_append (h : Boundary t) (s : Bytes) : opensMarkup (s ++ t) = opensMarkup s := by
  cases s with
  | nil => exact h.markup
  | cons b s => rfl

/-- What follows the text of an element. -/
structure EndTag (t : Bytes) : Prop where
  lt : t.head? = some 60
  markup : opensMarkup t.tail = true

theorem EndTag.eq (h : EndTag t) : t = 60 :: t.tail := by
  obtain ⟨hlt, -⟩ := h
  cases t with
  | nil => cases hlt
  | cons b t => simpa using hlt

theorem EndTag.boundary (h : EndTag t) : Boundary t := by
  rw [h.eq]
  exact boundary_cons (by decide) _

theorem EndTag.readText (h : EndTag t) : readText refs true t = ([], t) := by
  rw [h.eq]
  exact readText_markup h.markup

theorem head_append_end (h : EndTag t) (s : Bytes) : (s ++ t).head? = some 10 ↔ s.head? = some 10 := by
  cases s with
  | nil => simp [h.lt]
  | cons b s => simp

/-- The text before a tag is read as it is read alone. -/
theorem readText_append (h : EndTag t) (s : Bytes) : readText refs true (s ++ t) =
    ((readText refs true s).1, (readText refs true s).2 ++ t) := by
  have hcongr : ∀ s, charRef refs (s ++ t) = charRef refs s := fun s =>
    charRef_congr (takeWhile_append_boundary h.boundary s)
  induction s using readText_induction refs true with
  | nil => rw [List.nil_append, h.readText, readText_nil, List.nil_append]
  | opens s _ hopens =>
    rw [List.cons_append, readText_markup hopens,
      readText_markup ((opensMarkup_append h.boundary s).trans hopens), List.cons_append]
  | char b s hmarkup href ih =>
    rw [List.cons_append, readText_cons hmarkup href,
      readText_cons ((opensMarkup_append h.boundary s) ▸ hmarkup) (hcongr s ▸ href), ih]
    simp only [head_append_end h]
  | ref s n v href ih =>
    rw [List.cons_append, readText_ref href, readText_ref ((hcongr s).trans href),
      List.drop_append_of_le_length (charRef_take href).1, ih]

/-! ### Escaping -/

/-- `<` and `>` as references. -/
def escape (s : Bytes) : Bytes :=
  s.flatMap fun b => if b = 60 then lit "&lt;" else if b = 62 then lit "&gt;" else [b]

theorem escape_append (s t : Bytes) : escape (s ++ t) = escape s ++ escape t := List.flatMap_append

theorem escape_cons_of_ne {b : UInt8} (h : b ≠ 60 ∧ b ≠ 62) (s : Bytes) : escape (b :: s) = b :: escape s := by
  simp [escape, h.1, h.2]

theorem escape_of_refChars (h : ∀ b ∈ s, isRefChar b = true) : escape s = s := by
  induction s with
  | nil => rfl
  | cons b s ih =>
    have hb : b ≠ 60 ∧ b ≠ 62 := by
      have hchar := h b (.head _)
      constructor <;> rintro rfl <;> exact absurd hchar (by decide)
    rw [escape_cons_of_ne hb, ih fun c hc => h c (.tail _ hc)]

theorem takeWhile_escape (s : Bytes) : (escape s).takeWhile isRefChar = s.takeWhile isRefChar := by
  induction s with
  | nil => rfl
  | cons b s ih =>
    by_cases hlt : b = 60
    · subst hlt
      rfl
    by_cases hgt : b = 62
    · subst hgt
      rfl
    rw [escape_cons_of_ne ⟨hlt, hgt⟩]
    simp only [List.takeWhile_cons, ih]

theorem head_escape (s : Bytes) : (escape s).head? = some 10 ↔ s.head? = some 10 := by
  cases s with
  | nil => rfl
  | cons b s =>
    by_cases hlt : b = 60
    · subst hlt
      simp [escape, lit]
    by_cases hgt : b = 62
    · subst hgt
      simp [escape, lit]
    rw [escape_cons_of_ne ⟨hlt, hgt⟩]
    rfl

/-- An escaped character is the reference that stands for it. -/
theorem readText_escaped {b : UInt8} (name : Bytes) (hname : refs.named (name ++ [59]) = some [b])
    (hchars : name.all isRefChar = true) (hhash : name.head? ≠ some 35) (s : Bytes) :
    readText refs true (38 :: (name ++ 59 :: s)) = (b :: (readText refs true s).1, (readText refs true s).2) := by
  have hdrop : (name ++ 59 :: s).drop (name.length + 1) = s := by
    rw [List.append_cons, List.drop_left' (by simp)]
  rw [readText_ref (charRef_semicolon hname hchars hhash s), hdrop]
  rfl

/-- Escaped, a text is read as if there were no markup. -/
theorem readText_escape (s : Bytes) : readText refs true (escape s) = readText refs false s := by
  have hcongr : ∀ s, charRef refs (escape s) = charRef refs s := fun s => charRef_congr (takeWhile_escape s)
  induction s using readText_induction refs false with
  | nil => rw [show escape [] = [] from rfl, readText_nil, readText_nil]
  | opens s hmarkup hopens => cases hmarkup
  | char b s hmarkup href ih =>
    by_cases hlt : b = 60
    · subst hlt
      have hescaped : readText refs true (escape (60 :: s)) = _ :=
        readText_escaped (lit "lt") refs.lt (by decide) (by decide) (escape s)
      rw [hescaped, ih, readText_cons hmarkup href]
      rfl
    by_cases hgt : b = 62
    · subst hgt
      have hescaped : readText refs true (escape (62 :: s)) = _ :=
        readText_escaped (lit "gt") refs.gt (by decide) (by decide) (escape s)
      rw [hescaped, ih, readText_cons hmarkup href]
      rfl
    rw [escape_cons_of_ne ⟨hlt, hgt⟩, readText_cons hmarkup href,
      readText_cons (fun h => hlt h.1) (hcongr s ▸ href), ih]
    simp only [head_escape]
  | ref s n v href ih =>
    obtain ⟨hn, hchars⟩ := charRef_take href
    have hdrop : (escape s).drop n = escape (s.drop n) := by
      nth_rewrite 1 [← List.take_append_drop n s]
      rw [escape_append, escape_of_refChars hchars, List.drop_left' (by simp [hn])]
    rw [escape_cons_of_ne (by decide), readText_ref href, readText_ref ((hcongr s).trans href), hdrop, ih]

/-- Of `x`, which is read as `s` is, the element shows `s` just when `s` is clean and does not begin with
a line break. -/
theorem preText_eq_iff {x : Bytes} (h : EndTag t) (hx : readText refs true x = readText refs markup s) :
    preText refs (x ++ t) = (s, t) ↔ Clean refs markup s ∧ s.head? ≠ some 10 := by
  rw [preText, readText_append h, hx, Prod.mk.injEq, List.append_left_eq_self, ← shown_eq_iff]
  dsimp only
  by_cases hbreak : (readText refs markup s).1.head? = some 10
  · rw [if_pos hbreak]
    have hshown : shown refs markup s = 10 :: (readText refs markup s).1.tail.filter (· ≠ 0) := by
      obtain ⟨r, hr⟩ := List.head?_eq_some_iff.1 hbreak
      rw [shown, hr]
      simp
    refine iff_of_false (fun hs => ?_) fun hs => ?_
    · rw [hs.1] at hshown
      exact shown_ne_append (List.cons_ne_nil 10 []) hshown
    · rw [hs.1.1] at hshown
      exact hs.2 (by rw [hshown]; rfl)
  · rw [if_neg hbreak]
    have hhead : shown refs markup s = s → s.head? ≠ some 10 := by
      intro _ hs
      obtain ⟨s', rfl⟩ := List.head?_eq_some_iff.1 hs
      rw [readText_cons (fun hc => absurd hc.1 (by decide)) (fun hc => absurd hc (by decide))] at hbreak
      exact hbreak rfl
    exact ⟨fun hs => ⟨hs, hhead hs.1⟩, fun hs => hs.1⟩

/-! ### Clean texts put together -/

theorem clean_append (h : Boundary t) (s : Bytes) :
    Clean refs markup (s ++ t) ↔ Clean refs markup s ∧ Clean refs markup t := by
  induction s with
  | nil => simp [Clean]
  | cons b s ih =>
    rw [List.cons_append, Clean, Clean, ih, charRef_congr (takeWhile_append_boundary h s),
      opensMarkup_append h]
    exact and_assoc.symm

theorem clean_flatMap {α : Type*} {f : α → Bytes} (h : ∀ a, Boundary (f a)) (l : List α) :
    Clean refs markup (l.flatMap f) ↔ ∀ a ∈ l, Clean refs markup (f a) := by
  induction l with
  | nil => simp [Clean]
  | cons a l ih => rw [List.flatMap_cons, clean_append (boundary_flatMap h l), ih, List.forall_mem_cons]

/-- A character that neither reader knows. -/
def isPlain (b : UInt8) : Bool := b != 13 && b != 0 && b != 38 && b != 60

theorem clean_append_of_plain (h : s.all isPlain = true) (t : Bytes) :
    Clean refs markup (s ++ t) ↔ Clean refs markup t := by
  induction s with
  | nil => rfl
  | cons b s ih =>
    simp only [List.all_cons, isPlain, Bool.and_eq_true, bne_iff_ne] at h
    obtain ⟨⟨⟨⟨h13, h0⟩, h38⟩, h60⟩, htail⟩ := h
    rw [List.cons_append, Clean, ih htail]
    simp [h13, h0, h38, h60]

theorem clean_of_plain (h : s.all isPlain = true) : Clean refs markup s := by
  have hs : Clean refs markup (s ++ []) := (clean_append_of_plain h []).2 trivial
  rwa [List.append_nil] at hs

/-! ### A table of references -/

/-- The references of the characters that are markup; of the numeric ones those to ASCII. -/
def References.basic : References where
  named n :=
    if n = lit "lt;" then some (lit "<") else if n = lit "gt;" then some (lit ">")
    else if n = lit "amp;" then some (lit "&") else none
  numeric n := if 0 < n ∧ n < 128 then [n.toUInt8] else [0xef, 0xbf, 0xbd]
  named_value n v h := by
    have hv : v = lit "<" ∨ v = lit ">" ∨ v = lit "&" := by
      split_ifs at h <;> simp_all
    rcases hv with rfl | rfl | rfl <;> exact ⟨by decide, by decide, by decide⟩
  numeric_value n := by
    split
    · rename_i hn
      refine ⟨List.cons_ne_nil _ _, fun h => ?_, fun h => ?_⟩
      · rw [List.mem_singleton.1 h]
      · have h0 := congrArg UInt8.toNat (List.mem_singleton.1 h)
        simp only [UInt8.toNat_zero, Nat.toUInt8_eq, UInt8.toNat_ofNat'] at h0
        omega
    · exact ⟨by decide, by decide, by decide⟩
  semicolon n v h := by
    have hn : n = lit "lt;" ∨ n = lit "gt;" ∨ n = lit "amp;" := by
      split_ifs at h <;> simp_all
    rcases hn with rfl | rfl | rfl <;> decide
  lt := rfl
  gt := by decide

end Html
end NplBrowser
