import NplBrowser.Json

/-!
# The compact dump (`basic_json::dump()`)

The text of a value, or nothing where `dump` throws at a string that is not valid UTF-8
(`Json.isSome_dump`). How a finite `double` is printed is a parameter. A dump holds no NUL byte
(`Json.zero_notMem_dump`): in a string the bytes below 0x20 are escaped, and the rest is punctuation and
digits. Bytes from 0x80 on belong to longer characters and are copied, so that escaping goes byte by
byte.

`parsed` is what the parser makes of the dump: the value itself, except that a number that is not
negative comes back as unsigned and a `double` that is not finite, dumped as `null`, as null.
-/

namespace NplBrowser

def escape (b : UInt8) : Bytes :=
  if b = 0x08 then lit "\\b"
  else if b = 0x09 then lit "\\t"
  else if b = 0x0a then lit "\\n"
  else if b = 0x0c then lit "\\f"
  else if b = 0x0d then lit "\\r"
  else if b = 0x22 then lit "\\\""
  else if b = 0x5c then lit "\\\\"
  else if b ≤ 0x1f then lit "\\u" ++ hex4 b.toNat
  else [b]

def dumpString (s : Bytes) : Option Bytes :=
  if utf8 s then some (lit "\"" ++ s.flatMap escape ++ lit "\"") else none

def escapedLength (s : Bytes) : Nat := (s.map fun b => (escape b).length).sum

def dumpInt (i : Int) : Bytes := if i < 0 then lit "-" ++ decimal i.natAbs else decimal i.natAbs

/-- One piece after the other, unless one of them throws. -/
def cat : List (Option Bytes) → Option Bytes
  | [] => some []
  | o :: l => do return (← o) ++ (← cat l)

namespace Json

section
variable (dumpFloat : Double → Bytes)

mutual

def dump : Json → Option Bytes
  | null => some (lit "null")
  | boolean b => some (lit (if b then "true" else "false"))
  | integer i => some (dumpInt i.toInt)
  | unsigned n => some (decimal n.toNat)
  | float x => some (if x.isFinite then dumpFloat x else lit "null")
  | string s => dumpString s
  | array l => cat [some (lit "["), dumpElems l, some (lit "]")]
  | object fs => cat [some (lit "\x7b"), dumpMembers fs, some (lit "\x7d")]

def dumpElems : List Json → Option Bytes
  | [] => some []
  | [j] => dump j
  | j :: l => cat [dump j, some (lit ","), dumpElems l]

def dumpMembers : List (Bytes × Json) → Option Bytes
  | [] => some []
  | [(k, j)] => cat [dumpString k, some (lit ":"), dump j]
  | (k, j) :: fs => cat [dumpString k, some (lit ":"), dump j, some (lit ","), dumpMembers fs]

end

/-! The length of the text. -/

mutual

def dumpLength : Json → Nat
  | null => 4
  | boolean b => if b then 4 else 5
  | integer i => (dumpInt i.toInt).length
  | unsigned n => (decimal n.toNat).length
  | float x => if x.isFinite then (dumpFloat x).length else 4
  | string s => escapedLength s + 2
  | array l => elemsLength l + 2
  | object fs => membersLength fs + 2

def elemsLength : List Json → Nat
  | [] => 0
  | [j] => dumpLength j
  | j :: l => dumpLength j + 1 + elemsLength l

def membersLength : List (Bytes × Json) → Nat
  | [] => 0
  | [(k, j)] => escapedLength k + 3 + dumpLength j
  | (k, j) :: fs => escapedLength k + 4 + dumpLength j + membersLength fs

end

end

mutual

def parsed : Json → Json
  | integer i => if i < 0 then integer i else unsigned i.toUInt64
  | float x => if x.isFinite then float x else null
  | array l => array (parsedElems l)
  | object fs => object (parsedMembers fs)
  | j => j

def parsedElems : List Json → List Json
  | [] => []
  | j :: l => j.parsed :: parsedElems l

def parsedMembers : List (Bytes × Json) → List (Bytes × Json)
  | [] => []
  | (k, j) :: fs => (k, j.parsed) :: parsedMembers fs

end

end Json

/-! ### No NUL in a dump -/

theorem zero_notMem_escape (b : UInt8) : (0 : UInt8) ∉ escape b := by
  unfold escape
  by_cases hb : b ≤ 0x1f
  · have : ∀ n : Nat, n ≤ 0x1f → (0 : UInt8) ∉ lit "\\u" ++ hex4 n := by decide
    have hn : b.toNat ≤ 0x1f := UInt8.le_iff_toNat_le.1 hb
    split_ifs <;> first | decide | exact this _ hn
  · have h0 : (0 : UInt8) ≠ b := by rintro rfl; exact hb (by decide)
    split_ifs <;> first | decide | simpa using h0

theorem zero_notMem_dumpString {s t : Bytes} (h : dumpString s = some t) : (0 : UInt8) ∉ t := by
  unfold dumpString at h
  split at h
  · cases h
    simp only [List.mem_append, List.mem_flatMap, not_or, not_exists, not_and]
    exact ⟨⟨by decide, fun b _ => zero_notMem_escape b⟩, by decide⟩
  · cases h

theorem zero_notMem_decimal (n : Nat) : (0 : UInt8) ∉ decimal n := by
  intro h
  obtain ⟨c, hc, h0⟩ := List.mem_map.1 h
  have hd := Char.isDigit_iff_toNat.1 (Nat.isDigit_of_mem_toDigits (by decide) (by decide) hc)
  have hlo : 48 ≤ c.toNat := hd.1
  have hhi : c.toNat ≤ 57 := hd.2
  have hz : c.toNat % 256 = 0 := congrArg UInt8.toNat h0
  omega

theorem zero_notMem_dumpInt (i : Int) : (0 : UInt8) ∉ dumpInt i := by
  unfold dumpInt
  split
  · rw [List.mem_append, not_or]
    exact ⟨by decide, zero_notMem_decimal _⟩
  · exact zero_notMem_decimal _

theorem cat_cons_eq_some_iff {o : Option Bytes} {l : List (Option Bytes)} {t : Bytes} :
    cat (o :: l) = some t ↔ ∃ u, o = some u ∧ ∃ v, cat l = some v ∧ u ++ v = t := by
  cases o with
  | none => simp [cat]
  | some u => cases h : cat l <;> simp [cat, h]

theorem zero_notMem_cat {l : List (Option Bytes)} {t : Bytes} (ht : cat l = some t)
    (h : ∀ o ∈ l, ∀ u, o = some u → (0 : UInt8) ∉ u) : (0 : UInt8) ∉ t := by
  induction l generalizing t with
  | nil => cases ht; simp
  | cons o l ih =>
    obtain ⟨u, hu, v, hv, rfl⟩ := cat_cons_eq_some_iff.1 ht
    rw [List.mem_append, not_or]
    exact ⟨h o (by simp) u hu, ih hv fun o' ho' => h o' (by simp [ho'])⟩

theorem length_cat {l : List (Option Bytes)} {ns : List Nat} {t : Bytes} (ht : cat l = some t)
    (h : List.Forall₂ (fun o n => ∀ u, o = some u → u.length = n) l ns) : t.length = ns.sum := by
  induction h generalizing t with
  | nil => cases ht; rfl
  | cons ho _ ih =>
    obtain ⟨u, hu, v, hv, rfl⟩ := cat_cons_eq_some_iff.1 ht
    rw [List.length_append, List.sum_cons, ho u hu, ih hv]

theorem length_lit (s : String) : ∀ u, some (lit s) = some u → u.length = s.toList.length := by
  rintro u ⟨⟩
  exact List.length_map _

theorem isSome_cat {l : List (Option Bytes)} : (cat l).isSome = l.all (·.isSome) := by
  induction l with
  | nil => rfl
  | cons o l ih =>
    rw [List.all_cons, ← ih]
    cases o with
    | none => rfl
    | some u => cases h : cat l <;> simp [cat, h]

theorem isSome_dumpString (s : Bytes) : (dumpString s).isSome = utf8 s := by
  unfold dumpString
  split <;> simp_all

namespace Json

section
variable {dumpFloat : Double → Bytes}

mutual

theorem zero_notMem_dump (hf : ∀ x, (0 : UInt8) ∉ dumpFloat x) :
    ∀ (j : Json) (t : Bytes), j.dump dumpFloat = some t → (0 : UInt8) ∉ t
  | null, t, h => by cases h; decide
  | boolean b, t, h => by cases h; cases b <;> decide
  | integer i, t, h => by cases h; exact zero_notMem_dumpInt _
  | unsigned n, t, h => by cases h; exact zero_notMem_decimal _
  | float x, t, h => by
    cases h
    split
    exacts [hf x, by decide]
  | string s, t, h => zero_notMem_dumpString h
  | array l, t, h => by
    refine zero_notMem_cat h ?_
    simp only [List.forall_mem_cons]
    exact ⟨by decide, zero_notMem_dumpElems hf l, by decide, nofun⟩
  | object fs, t, h => by
    refine zero_notMem_cat h ?_
    simp only [List.forall_mem_cons]
    exact ⟨by decide, zero_notMem_dumpMembers hf fs, by decide, nofun⟩

theorem zero_notMem_dumpElems (hf : ∀ x, (0 : UInt8) ∉ dumpFloat x) :
    ∀ (l : List Json) (t : Bytes), dumpElems dumpFloat l = some t → (0 : UInt8) ∉ t
  | [], t, h => by cases h; decide
  | [j], t, h => zero_notMem_dump hf j t h
  | j :: j' :: l, t, h => by
    refine zero_notMem_cat h ?_
    simp only [List.forall_mem_cons]
    exact ⟨zero_notMem_dump hf j, by decide, zero_notMem_dumpElems hf (j' :: l), nofun⟩

theorem zero_notMem_dumpMembers (hf : ∀ x, (0 : UInt8) ∉ dumpFloat x) :
    ∀ (fs : List (Bytes × Json)) (t : Bytes), dumpMembers dumpFloat fs = some t → (0 : UInt8) ∉ t
  | [], t, h => by cases h; decide
  | [(k, j)], t, h => by
    refine zero_notMem_cat h ?_
    simp only [List.forall_mem_cons]
    exact ⟨fun _ => zero_notMem_dumpString, by decide, zero_notMem_dump hf j, nofun⟩
  | (k, j) :: e :: fs, t, h => by
    refine zero_notMem_cat h ?_
    simp only [List.forall_mem_cons]
    exact ⟨fun _ => zero_notMem_dumpString, by decide, zero_notMem_dump hf j, by decide,
      zero_notMem_dumpMembers hf (e :: fs), nofun⟩

end

/-! ### How long it is -/

theorem length_dumpString {s t : Bytes} (h : dumpString s = some t) :
    t.length = escapedLength s + 2 := by
  unfold dumpString at h
  split at h
  · cases h
    simp [escapedLength, List.length_flatMap, lit]
  · cases h

mutual

theorem length_dump : ∀ (j : Json) (t : Bytes), j.dump dumpFloat = some t →
    t.length = j.dumpLength dumpFloat
  | null, t, h => by cases h; rfl
  | boolean b, t, h => by cases h; cases b <;> rfl
  | integer i, t, h => by cases h; rfl
  | unsigned n, t, h => by cases h; rfl
  | float x, t, h => by
    cases h
    rw [dumpLength]
    split <;> rfl
  | string s, t, h => length_dumpString h
  | array l, t, h => by
    have hl := length_cat h
      (.cons (length_lit _) (.cons (length_dumpElems l) (.cons (length_lit _) .nil)))
    simp only [List.sum_cons, List.sum_nil] at hl
    rw [hl, dumpLength]
    simp +arith
  | object fs, t, h => by
    have hl := length_cat h
      (.cons (length_lit _) (.cons (length_dumpMembers fs) (.cons (length_lit _) .nil)))
    simp only [List.sum_cons, List.sum_nil] at hl
    rw [hl, dumpLength]
    simp +arith

theorem length_dumpElems : ∀ (l : List Json) (t : Bytes), dumpElems dumpFloat l = some t →
    t.length = elemsLength dumpFloat l
  | [], t, h => by cases h; rfl
  | [j], t, h => length_dump j t h
  | j :: j' :: l, t, h => by
    have hl := length_cat h
      (.cons (length_dump j) (.cons (length_lit _) (.cons (length_dumpElems (j' :: l)) .nil)))
    simp only [List.sum_cons, List.sum_nil] at hl
    rw [hl]
    show _ = dumpLength dumpFloat j + 1 + elemsLength dumpFloat (j' :: l)
    simp +arith only [String.reduceToList, List.length_cons, List.length_nil]

theorem length_dumpMembers : ∀ (fs : List (Bytes × Json)) (t : Bytes),
    dumpMembers dumpFloat fs = some t → t.length = membersLength dumpFloat fs
  | [], t, h => by cases h; rfl
  | [(k, j)], t, h => by
    have hl := length_cat h
      (.cons (fun _ => length_dumpString) (.cons (length_lit _) (.cons (length_dump j) .nil)))
    simp only [List.sum_cons, List.sum_nil] at hl
    rw [hl, membersLength]
    simp +arith
  | (k, j) :: e :: fs, t, h => by
    have hl := length_cat h
      (.cons (fun _ => length_dumpString) (.cons (length_lit _) (.cons (length_dump j)
        (.cons (length_lit _) (.cons (length_dumpMembers (e :: fs)) .nil)))))
    simp only [List.sum_cons, List.sum_nil] at hl
    rw [hl]
    show _ = escapedLength k + 4 + dumpLength dumpFloat j + membersLength dumpFloat (e :: fs)
    simp +arith only [String.reduceToList, List.length_cons, List.length_nil]

end

/-- Every member has its separator, the last one the closing brace. -/
theorem dumpLength_object {fs : List (Bytes × Json)} (h : fs ≠ []) :
    (object fs).dumpLength dumpFloat =
      1 + (fs.map fun e => escapedLength e.1 + 4 + e.2.dumpLength dumpFloat).sum := by
  rw [dumpLength]
  induction fs with
  | nil => exact absurd rfl h
  | cons e fs ih =>
    obtain ⟨k, j⟩ := e
    rw [List.map_cons, List.sum_cons]
    dsimp only
    cases fs with
    | nil => rw [membersLength, List.map_nil, List.sum_nil]; omega
    | cons e fs =>
      have hl : membersLength dumpFloat ((k, j) :: e :: fs) =
          escapedLength k + 4 + dumpLength dumpFloat j + membersLength dumpFloat (e :: fs) := rfl
      have := ih (by simp)
      rw [hl]
      omega

/-! ### Where a dump throws -/

mutual

theorem isSome_dump : ∀ j : Json, (j.dump dumpFloat).isSome = j.dumps
  | null | boolean _ | integer _ | unsigned _ | float _ => rfl
  | string s => by
    rw [dump, dumps, isSome_dumpString]
  | array l => by
    rw [dump, dumps, isSome_cat]
    simp [isSome_dumpElems l]
  | object fs => by
    rw [dump, dumps, isSome_cat]
    simp [isSome_dumpMembers fs]

theorem isSome_dumpElems : ∀ l : List Json, (dumpElems dumpFloat l).isSome = dumpsList l
  | [] => rfl
  | [j] => by simp [dumpElems, dumpsList, isSome_dump j]
  | j :: j' :: l => by
    rw [dumpElems, dumpsList, isSome_cat]
    · simp [isSome_dump j, isSome_dumpElems (j' :: l)]
    · nofun

theorem isSome_dumpMembers : ∀ fs : List (Bytes × Json),
    (dumpMembers dumpFloat fs).isSome = dumpsFields fs
  | [] => rfl
  | [(k, j)] => by
    simp [dumpMembers, dumpsFields, isSome_cat, isSome_dump j, isSome_dumpString]
  | (k, j) :: e :: fs => by
    rw [dumpMembers, dumpsFields, isSome_cat]
    · simp [isSome_dump j, isSome_dumpString, isSome_dumpMembers (e :: fs), Bool.and_assoc]
    · nofun

end

end

end Json

end NplBrowser
