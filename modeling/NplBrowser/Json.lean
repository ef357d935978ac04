import NplBrowser.Lib.Assoc
import NplBrowser.Bytes
import NplBrowser.Double

/-!
# JSON values (`json.hpp`)

The value type of the library and the operations the program uses on it. `operator[]` turns null
into an object and inserts null for a missing key, on anything else but an object it throws 305;
`erase` throws 307 on anything but an object; a conversion throws 302 on a value of another type. A
reference into a value is its key: `set` writes back through it.
-/

namespace NplBrowser

inductive Json
  | null
  | boolean (b : Bool)
  | integer (i : Int64)
  | unsigned (n : UInt64)
  | float (x : Double)
  | string (s : Bytes)
  | array (l : List Json)
  | object (fs : List (Bytes × Json))

/-- The library's exceptions, by their id. -/
inductive JsonError
  | typeError (id : Nat)
deriving DecidableEq, Repr

namespace Json

def isNull : Json → Bool
  | null => true
  | _ => false

def isObject : Json → Bool
  | object _ => true
  | _ => false

/-- `find(key) != end()`, and the element found: nothing on what is not an object. -/
def find (j : Json) (k : Bytes) : Option Json :=
  match j with
  | object fs => Assoc.find? k fs
  | _ => none

/-- `operator[](key)`: the value afterwards and the element referred to. -/
def index (j : Json) (k : Bytes) : Except JsonError (Json × Json) :=
  match j with
  | null => .ok (object [(k, null)], null)
  | object fs =>
    match Assoc.find? k fs with
    | some v => .ok (object fs, v)
    | none => .ok (object (Assoc.insert k null fs), null)
  | _ => .error (.typeError 305)

/-- `j[key] = v`. -/
def set (j : Json) (k : Bytes) (v : Json) : Except JsonError Json :=
  match j with
  | null => .ok (object [(k, v)])
  | object fs => .ok (object (Assoc.insert k v fs))
  | _ => .error (.typeError 305)

def erase (j : Json) (k : Bytes) : Except JsonError Json :=
  match j with
  | object fs => .ok (object (Assoc.erase k fs))
  | _ => .error (.typeError 307)

def empty : Json → Bool
  | null => true
  | array l => l.isEmpty
  | object fs => fs.isEmpty
  | _ => false

/-- `clear()` keeps the type. -/
def clear : Json → Json
  | null => null
  | boolean _ => boolean false
  | integer _ => integer 0
  | unsigned _ => unsigned 0
  | float _ => float .zero
  | string _ => string []
  | array _ => array []
  | object _ => object []

/-! ### Conversions (`from_json`) -/

def getString : Json → Except JsonError Bytes
  | string s => .ok s
  | _ => .error (.typeError 302)

def getBool : Json → Except JsonError Bool
  | boolean b => .ok b
  | _ => .error (.typeError 302)

/-- To `int`: the overload for other arithmetic types, which also takes a boolean. -/
def getInt : Json → Except JsonError Int32
  | unsigned n => .ok (Int32.ofInt n.toNat)
  | integer i => .ok (Int32.ofInt i.toInt)
  | float x => .ok x.toInt32
  | boolean b => .ok (if b then 1 else 0)
  | _ => .error (.typeError 302)

/-- To `double`: the overload for the library's own number types. -/
def getDouble : Json → Except JsonError Double
  | unsigned n => .ok (Double.ofInt n.toNat)
  | integer i => .ok (Double.ofInt i.toInt)
  | float x => .ok x
  | _ => .error (.typeError 302)

/-- `input[key]` on a local copy of which only the element is read. -/
def at' (j : Json) (k : Bytes) : Except JsonError Json := (·.2) <$> j.index k

/-! ### What can be indexed by a key -/

/-- Null or an object. -/
def isMap (j : Json) : Bool := j.isNull || j.isObject

/-- The entries of an object. -/
def fields : Json → List (Bytes × Json)
  | object fs => fs
  | _ => []

theorem find_eq (j : Json) (k : Bytes) : j.find k = Assoc.find? k j.fields := by
  cases j <;> rfl

theorem eq_of_isMap {j : Json} (h : j.isMap = true) :
    (j = null ∧ j.fields = []) ∨ j = object j.fields := by
  cases j <;> first | exact .inl ⟨rfl, rfl⟩ | exact .inr rfl | cases h

theorem set_eq {j : Json} (h : j.isMap = true) (k : Bytes) (v : Json) :
    j.set k v = .ok (object (Assoc.insert k v j.fields)) := by
  rcases eq_of_isMap h with ⟨rfl, -⟩ | h
  · rfl
  · rw [h]; rfl

theorem index_eq {j v : Json} {k : Bytes} (h : Assoc.find? k j.fields = some v) :
    j.index k = .ok (j, v) := by
  cases j with
  | object fs => simp only [fields] at h; simp [index, h]
  | _ => cases h

theorem index_eq_null {j : Json} (hj : j.isMap = true) {k : Bytes}
    (h : Assoc.find? k j.fields = none) :
    j.index k = .ok (object (Assoc.insert k null j.fields), null) := by
  rcases eq_of_isMap hj with ⟨rfl, -⟩ | hj
  · rfl
  · rw [hj] at h ⊢
    simp only [fields] at h
    simp [index, h, fields]

/-! ### Dumping

`dump` throws 316 at the first string, key or value, that is not valid UTF-8. -/

mutual

/-- The dump succeeds. -/
def dumps : Json → Bool
  | string s => utf8 s
  | array l => dumpsList l
  | object fs => dumpsFields fs
  | _ => true

def dumpsList : List Json → Bool
  | [] => true
  | j :: l => j.dumps && dumpsList l

def dumpsFields : List (Bytes × Json) → Bool
  | [] => true
  | (k, j) :: fs => utf8 k && j.dumps && dumpsFields fs

end

mutual

/-- What a parser has built when the text breaks off where the dump threw: complete elements before
that place, null for a key whose value had not been completed. -/
def dumped : Json → Option Json
  | string s => if utf8 s then some (string s) else none
  | array l => some (array (dumpedList l))
  | object fs => some (object (dumpedFields fs))
  | j => some j

def dumpedList : List Json → List Json
  | [] => []
  | j :: l => if j.dumps then j :: dumpedList l else j.dumped.toList

def dumpedFields : List (Bytes × Json) → List (Bytes × Json)
  | [] => []
  | (k, j) :: fs =>
    if !utf8 k then [] else
    if j.dumps then (k, j) :: dumpedFields fs else [(k, j.dumped.getD null)]

end

theorem dumpsFields_iff {fs : List (Bytes × Json)} :
    dumpsFields fs = true ↔ ∀ e ∈ fs, utf8 e.1 = true ∧ e.2.dumps = true := by
  induction fs with
  | nil => simp [dumpsFields]
  | cons e fs ih => obtain ⟨k, j⟩ := e; simp [dumpsFields, ih]

theorem dumps_object {fs : List (Bytes × Json)} :
    (object fs).dumps = true ↔ ∀ e ∈ fs, utf8 e.1 = true ∧ e.2.dumps = true := by
  rw [dumps, dumpsFields_iff]

theorem dumps_insert {k : Bytes} {v : Json} {fs : List (Bytes × Json)} (hk : utf8 k = true)
    (hv : v.dumps = true) (h : (object fs).dumps = true) :
    (object (Assoc.insert k v fs)).dumps = true := by
  rw [dumps_object] at h ⊢
  intro e he
  rcases Assoc.mem_insert he with rfl | he
  exacts [⟨hk, hv⟩, h e he]

theorem dumps_erase {k : Bytes} {fs : List (Bytes × Json)} (h : (object fs).dumps = true) :
    (object (Assoc.erase k fs)).dumps = true := by
  rw [dumps_object] at h ⊢
  exact fun e he => h e (Assoc.mem_erase he)

/-! A broken text holds nothing but strings that were dumped. -/

mutual

theorem dumps_of_dumped : ∀ {j p : Json}, j.dumped = some p → p.dumps = true
  | string s, p, h => by
    rw [dumped] at h
    split at h
    · cases h; rwa [dumps]
    · cases h
  | array l, p, h => by
    rw [dumped] at h
    cases h
    exact dumpsList_dumpedList l
  | object fs, p, h => by
    rw [dumped] at h
    cases h
    exact dumpsFields_dumpedFields fs
  | null, p, h | boolean _, p, h | integer _, p, h | unsigned _, p, h | float _, p, h => by
    cases h; rfl

theorem dumpsList_dumpedList : ∀ l : List Json, dumpsList (dumpedList l) = true
  | [] => rfl
  | j :: l => by
    rw [dumpedList]
    split
    · rename_i h; rw [dumpsList, h, dumpsList_dumpedList l]; rfl
    · cases h : j.dumped with
      | none => rfl
      | some p => simp [dumpsList, dumps_of_dumped h]

theorem dumpsFields_dumpedFields : ∀ fs : List (Bytes × Json), dumpsFields (dumpedFields fs) = true
  | [] => rfl
  | (k, j) :: fs => by
    rw [dumpedFields]
    split
    · rfl
    · rename_i hk
      split
      · rename_i h
        rw [dumpsFields, h, dumpsFields_dumpedFields fs]; simpa using hk
      · cases h : j.dumped with
        | none => simpa [dumpsFields, dumps] using hk
        | some p => simpa [dumpsFields, dumps_of_dumped h] using hk

end

@[simp] theorem dumps_clear (j : Json) : j.clear.dumps = true := by
  cases j <;> rfl

end Json
end NplBrowser
