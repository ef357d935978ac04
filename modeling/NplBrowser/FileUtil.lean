import NplBrowser.Bytes

/-!
# Reading a file into a string (`file_util.cc`)

`ReadFileToString` reads piece after piece and appends each before it looks whether the limit is
exceeded. What is left up to the limit is an unsigned difference; that it does not wrap around is
carried through the loop.
-/

namespace NplBrowser
namespace FileUtil

def kBufferSize : Nat := 1 <<< 16

/-- An open file as `fread` gives it: pieces that fill the buffer at most, up to the end or to an
error. -/
structure FileStream where
  content : Bytes
  pieces : List Bytes
  /-- `ferror`, once `fread` has returned 0. -/
  error : Bool
  sized : ∀ piece ∈ pieces, piece ≠ [] ∧ piece.length ≤ kBufferSize
  read : pieces.flatten <+: content
  complete : error = false → pieces.flatten = content

/-- `a - b`; `none`: it wraps around. -/
def checkedSub (a b : UInt64) : Option UInt64 := if b ≤ a then some (a - b) else none

/-- The loop, and what is returned after it. `contents` is `none` where the pointer is null. -/
def readLoop (file : FileStream) (maxSize : UInt64) :
    List Bytes → UInt64 → Option Bytes → Option (Bool × Option Bytes)
  | [], _, contents => some (!file.error, contents)
  | piece :: pieces, size, contents =>
    let len : UInt64 := .ofNat piece.length
    (checkedSub maxSize size).bind fun room =>
      let contents := contents.map (· ++ piece.take (if room < len then room else len).toNat)
      if room < len then some (false, contents) else readLoop file maxSize pieces (size + len) contents

/-- `file` is what `fopen` opens, `allowFile` what `AllowFileIO` returns. `none`: `max_size - size` wraps
around. -/
def readFileToString (allowFile : Bool) (file : Option FileStream) (contents : Option Bytes)
    (maxSize : UInt64) : Option (Bool × Option Bytes) :=
  if allowFile then
    let contents := contents.map fun _ => []
    match file with
    | some file => readLoop file maxSize file.pieces 0 contents
    | none => some (false, contents)
  else some (false, contents)

variable {file : FileStream} {maxSize size : UInt64} {contents : Option Bytes}

theorem checkedSub_of_le (h : size ≤ maxSize) : ∃ room, checkedSub maxSize size = some room ∧
    room.toNat = maxSize.toNat - size.toNat :=
  ⟨_, if_pos h, UInt64.toNat_sub_of_le _ _ h⟩

theorem toNat_length {piece : Bytes} (h : piece.length ≤ kBufferSize) :
    (UInt64.ofNat piece.length).toNat = piece.length := by
  have hsize : kBufferSize < UInt64.size := by decide
  exact UInt64.toNat_ofNat_of_lt' (Nat.lt_of_le_of_lt h hsize)

/-- By induction on the pieces; that no more than the limit has been read is what keeps the difference
from wrapping around. -/
theorem readLoop_eq {pieces : List Bytes} (hpieces : ∀ piece ∈ pieces, piece.length ≤ kBufferSize)
    (hsize : size ≤ maxSize) : readLoop file maxSize pieces size contents =
      some (decide (file.error = false ∧ size.toNat + pieces.flatten.length ≤ maxSize.toNat),
        contents.map (· ++ pieces.flatten.take (maxSize.toNat - size.toNat))) := by
  induction pieces generalizing size contents with
  | nil =>
    have hle := UInt64.le_iff_toNat_le.1 hsize
    simp [readLoop, hle]
  | cons piece pieces ih =>
    have hlen := toNat_length (hpieces piece (.head _))
    obtain ⟨room, hroom, hroomNat⟩ := checkedSub_of_le hsize
    have hle := UInt64.le_iff_toNat_le.1 hsize
    rw [readLoop, hroom, Option.bind_some, List.flatten_cons, List.length_append, List.take_append]
    dsimp only
    split <;> rename_i hexceeds <;> rw [UInt64.lt_iff_toNat_lt, hlen, hroomNat] at hexceeds
    · -- the limit is within this piece, or at its start
      have hno : ¬ (file.error = false ∧
          size.toNat + (piece.length + pieces.flatten.length) ≤ maxSize.toNat) := by omega
      rw [decide_eq_false hno, hroomNat, Nat.sub_eq_zero_of_le (Nat.le_of_lt hexceeds), List.take_zero,
        List.append_nil]
    · have hadd : (size + .ofNat piece.length).toNat = size.toNat + piece.length := by
        have := maxSize.toNat_lt
        rw [UInt64.toNat_add, hlen, Nat.mod_eq_of_lt (by omega)]
      have hpiece : piece.take (maxSize.toNat - size.toNat) = piece := List.take_of_length_le (by omega)
      rw [ih (fun p hp => hpieces p (.tail _ hp)) (UInt64.le_iff_toNat_le.2 (by omega)), hadd, hlen,
        Nat.add_assoc, List.take_length, hpiece, Option.map_map, Nat.sub_add_eq]
      simp [Function.comp_def]

/-- Where file I/O is allowed and the file could be opened, the result and the contents are those of the
file, whatever the pieces, and no difference wraps around. -/
theorem readFileToString_eq (file : FileStream) (contents : Option Bytes) (maxSize : UInt64) :
    readFileToString true (some file) contents maxSize =
      some (decide (file.error = false ∧ file.content.length ≤ maxSize.toNat),
        contents.map fun _ => file.content.take (min file.pieces.flatten.length maxSize.toNat)) := by
  have hsized : ∀ piece ∈ file.pieces, piece.length ≤ kBufferSize := fun piece hp => (file.sized piece hp).2
  show readLoop file maxSize file.pieces 0 (contents.map fun _ => []) = _
  rw [readLoop_eq hsized (UInt64.le_iff_toNat_le.2 (Nat.zero_le _)), Option.map_map]
  have hstatus : (file.error = false ∧ (0 : UInt64).toNat + file.pieces.flatten.length ≤ maxSize.toNat) ↔
      (file.error = false ∧ file.content.length ≤ maxSize.toNat) := by
    refine and_congr_right fun herror => ?_
    rw [file.complete herror, UInt64.toNat_zero, Nat.zero_add]
  have htake : file.pieces.flatten.take maxSize.toNat =
      file.content.take (min file.pieces.flatten.length maxSize.toNat) := by
    rw [Nat.min_comm, ← List.take_take, ← List.prefix_iff_eq_take.1 file.read]
  rw [decide_eq_decide.2 hstatus, UInt64.toNat_zero, Nat.sub_zero, htake]
  rfl

/-- A file that comes in two pieces, and breaks off behind them. -/
def brokenFile : FileStream where
  content := lit "one, two, three"
  pieces := [lit "one, ", lit "two"]
  error := true
  sized := by decide
  read := by decide
  complete h := by cases h

/-- The limit is within the second piece. -/
theorem readFileToString_eq_broken :
    readFileToString true (some brokenFile) (some (lit "old")) 7 = some (false, some (lit "one, tw")) :=
  (readFileToString_eq brokenFile (some (lit "old")) 7).trans rfl

end FileUtil
end NplBrowser
