import Mathlib.Algebra.GroupWithZero.Nat
import Mathlib.Data.List.Forall2

/-!
# UTF-8

A text is well-formed if it is a row of characters, each a lead byte and the bytes that the lead byte
asks for, none of them overlong, a surrogate or beyond the last plane. `accepts` reads a text byte by
byte, what is left of a character being its state, and accepts the well-formed texts (`accepts_iff`).
The encoding of a scalar value is well-formed (`wellFormed_encode`), and a well-formed text is that of the
scalar values that `decode` finds in it (`flatMap_encode`, `isSome_decode`), so that it has a text in
UTF-16 (`SameText`).
-/

namespace Utf8

/-- From the first byte to the second. -/
abbrev Range := UInt8 × UInt8

def InRange (b : UInt8) (r : Range) : Prop := r.1 ≤ b ∧ b ≤ r.2

instance (b : UInt8) (r : Range) : Decidable (InRange b r) := inferInstanceAs (Decidable (_ ∧ _))

def tail : Range := (0x80, 0xbf)

/-- The bytes that follow a lead byte, if it is one. -/
def follow (b : UInt8) : Option (List Range) :=
  if b ≤ 0x7f then some []
  else if b < 0xc2 then none
  else if b ≤ 0xdf then some [tail]
  else if b = 0xe0 then some [(0xa0, 0xbf), tail]
  else if b = 0xed then some [(0x80, 0x9f), tail]
  else if b ≤ 0xef then some [tail, tail]
  else if b = 0xf0 then some [(0x90, 0xbf), tail, tail]
  else if b ≤ 0xf3 then some [tail, tail, tail]
  else if b = 0xf4 then some [(0x80, 0x8f), tail, tail]
  else none

inductive WellFormed : List UInt8 → Prop
  | nil : WellFormed []
  | cons {b : UInt8} {rs : List Range} {bs l : List UInt8} (hb : follow b = some rs)
    (hbs : List.Forall₂ InRange bs rs) (hl : WellFormed l) : WellFormed (b :: (bs ++ l))

theorem wellFormed_char {b : UInt8} {rs : List Range} {bs : List UInt8} (hb : follow b = some rs)
    (hbs : List.Forall₂ InRange bs rs) : WellFormed (b :: bs) := by
  have := WellFormed.cons hb hbs .nil
  rwa [List.append_nil] at this

theorem WellFormed.append {l l' : List UInt8} (h : WellFormed l) (h' : WellFormed l') : WellFormed (l ++ l') := by
  induction h with
  | nil => exact h'
  | cons hb hbs _ ih =>
    rw [List.cons_append, List.append_assoc]
    exact .cons hb hbs ih

/-! ### Byte by byte -/

def accepts : List Range → List UInt8 → Bool
  | [], [] => true
  | [], b :: l => match follow b with
    | some rs => accepts rs l
    | none => false
  | _ :: _, [] => false
  | r :: rs, b :: l => decide (InRange b r) && accepts rs l

theorem accepts_append {rs : List Range} {bs l : List UInt8} (h : List.Forall₂ InRange bs rs) :
    accepts rs (bs ++ l) = accepts [] l := by
  induction h with
  | nil => rfl
  | cons hb _ ih => rw [List.cons_append, accepts, decide_eq_true hb, Bool.true_and, ih]

theorem split_of_accepts {l : List UInt8} : ∀ {rs : List Range}, accepts rs l = true →
    ∃ bs l', l = bs ++ l' ∧ List.Forall₂ InRange bs rs ∧ WellFormed l' := by
  induction l with
  | nil =>
    intro rs h
    cases rs with
    | nil => exact ⟨[], [], rfl, .nil, .nil⟩
    | cons r rs => cases h
  | cons b l ih =>
    intro rs h
    cases rs with
    | nil =>
      rw [accepts] at h
      split at h
      · rename_i rs hb
        obtain ⟨bs, l', rfl, hbs, hl'⟩ := ih h
        exact ⟨[], _, rfl, .nil, .cons hb hbs hl'⟩
      · cases h
    | cons r rs =>
      rw [accepts, Bool.and_eq_true, decide_eq_true_iff] at h
      obtain ⟨bs, l', rfl, hbs, hl'⟩ := ih h.2
      exact ⟨b :: bs, l', rfl, .cons h.1 hbs, hl'⟩

theorem accepts_iff {l : List UInt8} : accepts [] l = true ↔ WellFormed l := by
  constructor
  · intro h
    obtain ⟨bs, l', rfl, hbs, hl'⟩ := split_of_accepts h
    cases hbs
    exact hl'
  · intro h
    induction h with
    | nil => rfl
    | cons hb hbs _ ih =>
      rw [accepts, hb]
      exact (accepts_append hbs).trans ih

/-! ### Scalar values -/

def encode (c : Nat) : List UInt8 :=
  if c < 0x80 then [c.toUInt8]
  else if c ≤ 0x7ff then [(0xc0 ||| (c >>> 6)).toUInt8, (0x80 ||| (c &&& 0x3f)).toUInt8]
  else if c ≤ 0xffff then
    [(0xe0 ||| (c >>> 12)).toUInt8, (0x80 ||| ((c >>> 6) &&& 0x3f)).toUInt8, (0x80 ||| (c &&& 0x3f)).toUInt8]
  else
    [(0xf0 ||| (c >>> 18)).toUInt8, (0x80 ||| ((c >>> 12) &&& 0x3f)).toUInt8, (0x80 ||| ((c >>> 6) &&& 0x3f)).toUInt8,
      (0x80 ||| (c &&& 0x3f)).toUInt8]

/-- Not one half of a surrogate pair. -/
def IsScalar (c : Nat) : Prop := c < 0xd800 ∨ 0xe000 ≤ c ∧ c ≤ 0x10ffff

theorem inRange_tail (c : Nat) : InRange (0x80 ||| (c &&& 0x3f)).toUInt8 tail := by
  have h : ∀ n, n < 64 → InRange (0x80 ||| n).toUInt8 tail := by decide +kernel
  have hc : c &&& 0x3f = c % 64 := Nat.and_two_pow_sub_one_eq_mod c 6
  rw [hc]
  exact h _ (Nat.mod_lt _ (by omega))

theorem wellFormed_encode {c : Nat} (hc : IsScalar c) : WellFormed (encode c) := by
  have htail := inRange_tail
  unfold encode
  split_ifs with h₁ h₂
  · have h : ∀ n, n < 0x80 → follow n.toUInt8 = some [] := by decide +kernel
    exact wellFormed_char (h c h₁) .nil
  · have h : ∀ n, n < 32 → 2 ≤ n → follow (0xc0 ||| n).toUInt8 = some [tail] := by decide +kernel
    rw [Nat.shiftRight_eq_div_pow]
    exact wellFormed_char (h (c / 2 ^ 6) (by omega) (by omega)) (.cons (htail c) .nil)
  · have hlead : ∀ n, n < 16 → follow (0xe0 ||| n).toUInt8 =
        some [if n = 0 then (0xa0, 0xbf) else if n = 13 then (0x80, 0x9f) else tail, tail] := by decide +kernel
    have hsecond : ∀ n, n < 64 → InRange (0x80 ||| n).toUInt8 tail ∧
        (32 ≤ n → InRange (0x80 ||| n).toUInt8 (0xa0, 0xbf)) ∧
        (n < 32 → InRange (0x80 ||| n).toUInt8 (0x80, 0x9f)) := by decide +kernel
    have hmid : (c >>> 6) &&& 0x3f = c / 2 ^ 6 % 64 := by
      rw [Nat.shiftRight_eq_div_pow]
      exact Nat.and_two_pow_sub_one_eq_mod _ 6
    obtain ⟨hany, hlow, hhigh⟩ := hsecond (c / 2 ^ 6 % 64) (Nat.mod_lt _ (by omega))
    rw [hmid, Nat.shiftRight_eq_div_pow c 12]
    refine wellFormed_char (hlead (c / 2 ^ 12) (by omega)) (.cons ?_ (.cons (htail c) .nil))
    split_ifs with hz hd
    · exact hlow (by omega)
    · refine hhigh ?_
      rcases hc with hc | hc <;> omega
    · exact hany
  · have hlast : c ≤ 0x10ffff := by
      rcases hc with hc | hc <;> omega
    have hlead : ∀ n, n < 5 → follow (0xf0 ||| n).toUInt8 =
        some [if n = 0 then (0x90, 0xbf) else if n = 4 then (0x80, 0x8f) else tail, tail, tail] := by decide +kernel
    have hsecond : ∀ n, n < 64 → InRange (0x80 ||| n).toUInt8 tail ∧
        (16 ≤ n → InRange (0x80 ||| n).toUInt8 (0x90, 0xbf)) ∧
        (n < 16 → InRange (0x80 ||| n).toUInt8 (0x80, 0x8f)) := by decide +kernel
    have hmid : (c >>> 12) &&& 0x3f = c / 2 ^ 12 % 64 := by
      rw [Nat.shiftRight_eq_div_pow]
      exact Nat.and_two_pow_sub_one_eq_mod _ 6
    obtain ⟨hany, hlow, hhigh⟩ := hsecond (c / 2 ^ 12 % 64) (Nat.mod_lt _ (by omega))
    rw [hmid, Nat.shiftRight_eq_div_pow c 18]
    refine wellFormed_char (hlead (c / 2 ^ 18) (by omega)) (.cons ?_ (.cons (htail _) (.cons (htail c) .nil)))
    split_ifs with hz hd
    · exact hlow (by omega)
    · exact hhigh (by omega)
    · exact hany

/-! ### Decoding -/

/-- The bits of a character: those of the lead byte, and six of each byte behind it. -/
def charValue (b : UInt8) (bs : List UInt8) : Nat :=
  bs.foldl (fun c x => c * 64 + x.toNat % 64) (if bs = [] then b.toNat else b.toNat % 2 ^ (6 - bs.length))

/-- At most `fuel` characters. -/
def decodeLoop : Nat → List UInt8 → Option (List Nat)
  | _, [] => some []
  | 0, _ :: _ => none
  | fuel + 1, b :: l =>
    (follow b).bind fun rs =>
      if List.Forall₂ InRange (l.take rs.length) rs then
        (decodeLoop fuel (l.drop rs.length)).map (charValue b (l.take rs.length) :: ·)
      else none

def decode (l : List UInt8) : Option (List Nat) := decodeLoop l.length l

theorem encode_two {h t : Nat} (hlow : 2 ≤ h) (hhigh : h < 32) (ht : t < 64) :
    encode (h * 64 + t) = [(0xc0 ||| h).toUInt8, (0x80 ||| t).toUInt8] := by
  have hlead : (h * 64 + t) >>> 6 = h := by
    rw [Nat.shiftRight_eq_div_pow]
    omega
  have hlast : (h * 64 + t) &&& 0x3f = t := (Nat.and_two_pow_sub_one_eq_mod _ 6).trans (by omega)
  rw [encode, if_neg (by omega), if_pos (by omega), hlead, hlast]

theorem encode_three {h m t : Nat} (hlow : 32 ≤ h * 64 + m) (hhigh : h < 16) (hm : m < 64) (ht : t < 64) :
    encode ((h * 64 + m) * 64 + t) = [(0xe0 ||| h).toUInt8, (0x80 ||| m).toUInt8, (0x80 ||| t).toUInt8] := by
  have hlead : ((h * 64 + m) * 64 + t) >>> 12 = h := by
    rw [Nat.shiftRight_eq_div_pow]
    omega
  have hmid : ((h * 64 + m) * 64 + t) >>> 6 &&& 0x3f = m := by
    rw [Nat.shiftRight_eq_div_pow]
    exact (Nat.and_two_pow_sub_one_eq_mod _ 6).trans (by omega)
  have hlast : ((h * 64 + m) * 64 + t) &&& 0x3f = t := (Nat.and_two_pow_sub_one_eq_mod _ 6).trans (by omega)
  rw [encode, if_neg (by omega), if_neg (by omega), if_pos (by omega), hlead, hmid, hlast]

theorem encode_four {h m n t : Nat} (hlow : 16 ≤ h * 64 + m) (hm : m < 64) (hn : n < 64) (ht : t < 64) :
    encode (((h * 64 + m) * 64 + n) * 64 + t) =
      [(0xf0 ||| h).toUInt8, (0x80 ||| m).toUInt8, (0x80 ||| n).toUInt8, (0x80 ||| t).toUInt8] := by
  have hlead : (((h * 64 + m) * 64 + n) * 64 + t) >>> 18 = h := by
    rw [Nat.shiftRight_eq_div_pow]
    omega
  have hmid : (((h * 64 + m) * 64 + n) * 64 + t) >>> 12 &&& 0x3f = m := by
    rw [Nat.shiftRight_eq_div_pow]
    exact (Nat.and_two_pow_sub_one_eq_mod _ 6).trans (by omega)
  have hthird : (((h * 64 + m) * 64 + n) * 64 + t) >>> 6 &&& 0x3f = n := by
    rw [Nat.shiftRight_eq_div_pow]
    exact (Nat.and_two_pow_sub_one_eq_mod _ 6).trans (by omega)
  have hlast : (((h * 64 + m) * 64 + n) * 64 + t) &&& 0x3f = t :=
    (Nat.and_two_pow_sub_one_eq_mod _ 6).trans (by omega)
  rw [encode, if_neg (by omega), if_neg (by omega), if_neg (by omega), hlead, hmid, hthird, hlast]

/-- The bytes between two bounds, as numbers. -/
theorem toNat_of_inRange {x lo hi : UInt8} (h : InRange x (lo, hi)) : lo.toNat ≤ x.toNat ∧ x.toNat ≤ hi.toNat :=
  ⟨UInt8.le_iff_toNat_le.1 h.1, UInt8.le_iff_toNat_le.1 h.2⟩

theorem tail_eq {x : UInt8} (hlow : 0x80 ≤ x.toNat) (hhigh : x.toNat ≤ 0xbf) : (0x80 ||| x.toNat % 64).toUInt8 = x := by
  have h : ∀ n, n < 256 → 0x80 ≤ n → n ≤ 0xbf → (0x80 ||| n % 64).toUInt8 = n.toUInt8 := by decide +kernel
  simpa using h x.toNat x.toNat_lt hlow hhigh

theorem lead_eq {x : UInt8} : (0xc0 ≤ x.toNat → x.toNat ≤ 0xdf → (0xc0 ||| x.toNat % 32).toUInt8 = x) ∧
    (0xe0 ≤ x.toNat → x.toNat ≤ 0xef → (0xe0 ||| x.toNat % 16).toUInt8 = x) ∧
    (0xf0 ≤ x.toNat → x.toNat ≤ 0xf7 → (0xf0 ||| x.toNat % 8).toUInt8 = x) := by
  have h : ∀ n, n < 256 → (0xc0 ≤ n → n ≤ 0xdf → (0xc0 ||| n % 32).toUInt8 = n.toUInt8) ∧
      (0xe0 ≤ n → n ≤ 0xef → (0xe0 ||| n % 16).toUInt8 = n.toUInt8) ∧
      (0xf0 ≤ n → n ≤ 0xf7 → (0xf0 ||| n % 8).toUInt8 = n.toUInt8) := by decide +kernel
  simpa using h x.toNat x.toNat_lt

set_option synthInstance.maxSize 1000 in
/-- Three and four bytes are asked for by lead bytes from 0xe0 and from 0xf0 on, the second one of which is
bounded where the encoding would be overlong, a surrogate or too large. -/
theorem follow_cases {b : UInt8} {rs : List Range} (h : follow b = some rs) :
    rs = [] ∧ b.toNat < 0x80 ∨ rs = [tail] ∧ 0xc2 ≤ b.toNat ∧ b.toNat ≤ 0xdf ∨
    (∃ r ∈ rs, rs = [r, tail] ∧ 0xe0 ≤ b.toNat ∧ b.toNat ≤ 0xef ∧ 0x80 ≤ r.1.toNat ∧ r.2.toNat ≤ 0xbf ∧
      (b.toNat = 0xe0 → 0xa0 ≤ r.1.toNat) ∧ (b.toNat = 0xed → r.2.toNat ≤ 0x9f)) ∨
    ∃ r ∈ rs, rs = [r, tail, tail] ∧ 0xf0 ≤ b.toNat ∧ b.toNat ≤ 0xf4 ∧ 0x80 ≤ r.1.toNat ∧ r.2.toNat ≤ 0xbf ∧
      (b.toNat = 0xf0 → 0x90 ≤ r.1.toNat) ∧ (b.toNat = 0xf4 → r.2.toNat ≤ 0x8f) := by
  have hall : ∀ n, n < 256 → ∀ rs ∈ (follow n.toUInt8).toList,
      rs = [] ∧ n < 0x80 ∨ rs = [tail] ∧ 0xc2 ≤ n ∧ n ≤ 0xdf ∨
      (∃ r ∈ rs, rs = [r, tail] ∧ 0xe0 ≤ n ∧ n ≤ 0xef ∧ 0x80 ≤ r.1.toNat ∧ r.2.toNat ≤ 0xbf ∧
        (n = 0xe0 → 0xa0 ≤ r.1.toNat) ∧ (n = 0xed → r.2.toNat ≤ 0x9f)) ∨
      ∃ r ∈ rs, rs = [r, tail, tail] ∧ 0xf0 ≤ n ∧ n ≤ 0xf4 ∧ 0x80 ≤ r.1.toNat ∧ r.2.toNat ≤ 0xbf ∧
        (n = 0xf0 → 0x90 ≤ r.1.toNat) ∧ (n = 0xf4 → r.2.toNat ≤ 0x8f) := by decide +kernel
  exact hall b.toNat b.toNat_lt rs (by simp [h])

/-- A character is the encoding of its bits. -/
theorem encode_charValue {b : UInt8} {rs : List Range} {bs : List UInt8} (hb : follow b = some rs)
    (hbs : List.Forall₂ InRange bs rs) : IsScalar (charValue b bs) ∧ encode (charValue b bs) = b :: bs := by
  obtain ⟨htwo, hthree, hfour⟩ := lead_eq (x := b)
  rcases follow_cases hb with ⟨rfl, hlt⟩ | ⟨rfl, hlow, hhigh⟩ | ⟨r, -, rfl, hlow, hhigh, hr1, hr2, hfirst, hlast⟩ |
    ⟨r, -, rfl, hlow, hhigh, hr1, hr2, hfirst, hlast⟩
  · cases hbs
    refine ⟨.inl (Nat.lt_trans hlt (by decide)), ?_⟩
    show encode b.toNat = [b]
    rw [encode, if_pos hlt]
    simp
  · obtain _ | ⟨hx, _ | _⟩ := hbs
    rename_i x
    obtain ⟨hx1, hx2⟩ := toNat_of_inRange hx
    have hvalue : charValue b [x] = b.toNat % 32 * 64 + x.toNat % 64 := rfl
    rw [hvalue, encode_two (by omega) (by omega) (by omega), htwo (by omega) hhigh, tail_eq hx1 hx2]
    exact ⟨.inl (by omega), rfl⟩
  · obtain _ | ⟨hx, _ | ⟨hy, _ | _⟩⟩ := hbs
    rename_i x y
    obtain ⟨hx1, hx2⟩ := toNat_of_inRange hx
    obtain ⟨hy1, hy2⟩ := toNat_of_inRange hy
    have hvalue : charValue b [x, y] = (b.toNat % 16 * 64 + x.toNat % 64) * 64 + y.toNat % 64 := rfl
    rw [hvalue, encode_three (by omega) (by omega) (by omega) (by omega), hthree hlow hhigh,
      tail_eq (by omega) (by omega), tail_eq hy1 hy2]
    refine ⟨?_, rfl⟩
    unfold IsScalar
    omega
  · obtain _ | ⟨hx, _ | ⟨hy, _ | ⟨hz, _ | _⟩⟩⟩ := hbs
    rename_i x y z
    obtain ⟨hx1, hx2⟩ := toNat_of_inRange hx
    obtain ⟨hy1, hy2⟩ := toNat_of_inRange hy
    obtain ⟨hz1, hz2⟩ := toNat_of_inRange hz
    have hvalue : charValue b [x, y, z] =
        ((b.toNat % 8 * 64 + x.toNat % 64) * 64 + y.toNat % 64) * 64 + z.toNat % 64 := rfl
    rw [hvalue, encode_four (by omega) (by omega) (by omega) (by omega), hfour hlow (by omega),
      tail_eq (by omega) (by omega), tail_eq hy1 hy2, tail_eq hz1 hz2]
    refine ⟨?_, rfl⟩
    unfold IsScalar
    omega

theorem decodeLoop_sound {fuel : Nat} : ∀ {l : List UInt8} {cs : List Nat}, decodeLoop fuel l = some cs →
    (∀ c ∈ cs, IsScalar c) ∧ l = cs.flatMap encode := by
  induction fuel with
  | zero =>
    rintro (_ | ⟨b, l⟩) cs h
    · cases h
      simp
    · cases h
  | succ fuel ih =>
    rintro (_ | ⟨b, l⟩) cs h
    · cases h
      simp
    · obtain ⟨rs, hb, h⟩ := Option.bind_eq_some_iff.1 h
      split_ifs at h with hbs
      obtain ⟨cs, hcs, rfl⟩ := Option.map_eq_some_iff.1 h
      obtain ⟨hscalar, hl⟩ := ih hcs
      obtain ⟨hvalue, hencode⟩ := encode_charValue hb hbs
      refine ⟨List.forall_mem_cons.2 ⟨hvalue, hscalar⟩, ?_⟩
      rw [List.flatMap_cons, hencode, ← hl, List.cons_append, List.take_append_drop]

/-- The text is that of the scalar values. -/
theorem flatMap_encode {l : List UInt8} {cs : List Nat} (h : decode l = some cs) :
    (∀ c ∈ cs, IsScalar c) ∧ l = cs.flatMap encode := decodeLoop_sound h

theorem decodeLoop_complete {l : List UInt8} (h : WellFormed l) : ∀ {fuel : Nat}, l.length ≤ fuel →
    (decodeLoop fuel l).isSome = true := by
  induction h with
  | nil => exact fun _ => by simp [decodeLoop]
  | @cons b rs bs l hb hbs _ ih =>
    intro fuel hfuel
    cases fuel with
    | zero => simp at hfuel
    | succ fuel =>
      have hlength := hbs.length_eq
      have htake : (bs ++ l).take rs.length = bs := by rw [← hlength, List.take_left]
      have hdrop : (bs ++ l).drop rs.length = l := by rw [← hlength, List.drop_left]
      rw [decodeLoop, hb, Option.bind_some, htake, hdrop, if_pos hbs, Option.isSome_map]
      exact ih (by simp at hfuel; omega)

theorem isSome_decode {l : List UInt8} (h : WellFormed l) : (decode l).isSome = true :=
  decodeLoop_complete h (Nat.le_refl _)

/-! ### The same text in UTF-16 -/

def encode16 (c : Nat) : List UInt16 :=
  if c ≤ 0xffff then [c.toUInt16] else [(0xd7c0 + (c >>> 10)).toUInt16, (0xdc00 + (c &&& 0x3ff)).toUInt16]

def toUtf16 (l : List UInt8) : Option (List UInt16) := (decode l).map (·.flatMap encode16)

/-- Both are the text of the same scalar values. -/
def SameText (l : List UInt8) (units : List UInt16) : Prop :=
  ∃ cs : List Nat, (∀ c ∈ cs, IsScalar c) ∧ l = cs.flatMap encode ∧ units = cs.flatMap encode16

theorem sameText_of_toUtf16 {l : List UInt8} {units : List UInt16} (h : toUtf16 l = some units) : SameText l units := by
  obtain ⟨cs, hcs, rfl⟩ := Option.map_eq_some_iff.1 h
  obtain ⟨hscalar, hl⟩ := flatMap_encode hcs
  exact ⟨cs, hscalar, hl, rfl⟩

theorem isSome_toUtf16 {l : List UInt8} (h : WellFormed l) : (toUtf16 l).isSome = true := by
  rw [toUtf16, Option.isSome_map]
  exact isSome_decode h

theorem SameText.wellFormed {l : List UInt8} {units : List UInt16} (h : SameText l units) : WellFormed l := by
  obtain ⟨cs, hscalar, rfl, -⟩ := h
  induction cs with
  | nil => exact .nil
  | cons c cs ih =>
    rw [List.forall_mem_cons] at hscalar
    exact (wellFormed_encode hscalar.1).append (ih hscalar.2)

end Utf8
