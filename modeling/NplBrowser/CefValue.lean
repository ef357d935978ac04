import NplBrowser.Double
import NplBrowser.Lib.Assoc
import NplBrowser.Bytes

/-!
# `CefValue`

The typed values the browser hands to its client: parsed JSON, events of the renderer. A getter
asked for another type than the one stored returns that type's default, a null reference for a
dictionary or a list.
-/

namespace NplBrowser

/-- `cef_value_type_t`. -/
inductive VType
  | invalid
  | null
  | bool
  | int
  | double
  | string
  | binary
  | dictionary
  | list
  deriving DecidableEq

inductive CefValue
  | null
  | bool (b : Bool)
  | int (n : Int)
  | double (x : Double)
  | string (s : Bytes)
  | binary (data : Bytes)
  | dictionary (d : List (Bytes × CefValue))
  | list (l : List CefValue)

abbrev CefDictionaryValue := List (Bytes × CefValue)

abbrev CefListValue := List CefValue

namespace CefValue

def getType : CefValue → VType
  | null => .null
  | bool _ => .bool
  | int _ => .int
  | double _ => .double
  | string _ => .string
  | binary _ => .binary
  | dictionary _ => .dictionary
  | list _ => .list

def getBool : CefValue → Bool
  | bool b => b
  | _ => false

def getInt : CefValue → Int
  | int n => n
  | _ => 0

def getString : CefValue → Bytes
  | string s => s
  | _ => []

def getDictionary : CefValue → Option CefDictionaryValue
  | dictionary d => some d
  | _ => none

def getList : CefValue → Option CefListValue
  | list l => some l
  | _ => none

mutual

/-- `IsEqual`. -/
def isEqual : CefValue → CefValue → Bool
  | null, null => true
  | bool b, bool c => b == c
  | int n, int m => n == m
  | double x, double y => x.equal y
  | string s, string t => s == t
  | binary s, binary t => s == t
  | dictionary d, dictionary e => isEqualDictionary d e
  | list l, list m => isEqualList l m
  | _, _ => false

def isEqualDictionary : List (Bytes × CefValue) → List (Bytes × CefValue) → Bool
  | [], [] => true
  | (k, v) :: d, (l, w) :: e => k == l && isEqual v w && isEqualDictionary d e
  | _, _ => false

def isEqualList : List CefValue → List CefValue → Bool
  | [], [] => true
  | v :: l, w :: m => isEqual v w && isEqualList l m
  | _, _ => false

end

end CefValue

namespace CefDictionaryValue

def hasKey (d : CefDictionaryValue) (k : Bytes) : Bool := (Assoc.find? k d).isSome

def getType (d : CefDictionaryValue) (k : Bytes) : VType :=
  ((Assoc.find? k d).map CefValue.getType).getD .invalid

/-- The value under a key, null when there is none: every getter reads it alike. -/
def get (d : CefDictionaryValue) (k : Bytes) : CefValue := (Assoc.find? k d).getD .null

end CefDictionaryValue

end NplBrowser
