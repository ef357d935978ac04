import Mathlib.Tactic.Ring
import NplBrowser.Bytes
import NplBrowser.Lib.Run

/-!
# The in-memory write handler

`BytesWriteHandler` collects what is written through a `CefStreamWriter`. It keeps the size of its
block (`datasize_`) and the position (`offset_`), but not how much has been written: `Seek` goes by
the size of the block, and `GetDataSize` is the position. So it is a file only as long as nobody
writes behind the furthest byte, counts from the end, or asks for the data elsewhere than at the
furthest byte (`Fits`).

The 64-bit sums and products wrap around. Whether `malloc` and `realloc` succeed is part of the
input, and so is what they leave in the block.
-/

namespace NplBrowser

/-- A call, with the bytes at `ptr`, and whether a `realloc` that it makes succeeds. -/
inductive StreamCall
  | write (ptr : Nat → UInt8) (size n : UInt64) (realloc : Bool)
  | seek (offset : Int64) (whence : Int32)
  | tell
  /-- `GetData` and `GetDataSize`. -/
  | getData

inductive StreamResult
  | count (n : UInt64)
  | status (rv : Int32)
  | position (offset : Int64)
  | data (bytes : Bytes)
deriving DecidableEq

def seekSet : Int32 := 0
def seekCur : Int32 := 1
def seekEnd : Int32 := 2

/-- `memcpy` of `m` bytes to `offset`. -/
def memcpy (memory ptr : Nat → UInt8) (offset m : Nat) : Nat → UInt8 := fun i =>
  if offset ≤ i ∧ i < offset + m then ptr (i - offset) else memory i

def bytesOf (memory : Nat → UInt8) (size : Nat) : Bytes := (List.range size).map memory

/-! ## A file -/

/-- What has been written, up to the furthest byte, and the position. -/
structure ByteFile where
  size : Nat := 0
  byte : Nat → UInt8 := fun _ => 0
  pos : Nat := 0

namespace ByteFile

/-- Bytes between the old end and the new ones are zero. -/
def write (f : ByteFile) (ptr : Nat → UInt8) (m : Nat) : ByteFile where
  size := if m = 0 then f.size else max f.size (f.pos + m)
  byte := memcpy f.byte ptr f.pos m
  pos := f.pos + m

/-- Where a seek leads to. -/
def target (f : ByteFile) (offset : Int) (whence : Int32) : Option Int :=
  if whence = seekSet then some offset
  else if whence = seekCur then some (f.pos + offset)
  else if whence = seekEnd then some (f.size + offset)
  else none

/-- A call of a file, which may run out of space. A seek behind the end may be refused. A failed call
changes nothing. -/
inductive Call (f : ByteFile) : StreamCall → StreamResult → ByteFile → Prop
  | write (ptr : Nat → UInt8) (size n : UInt64) (realloc : Bool) :
      Call f (.write ptr size n realloc) (.count n) (f.write ptr (size.toNat * n.toNat))
  | full (ptr : Nat → UInt8) (size n : UInt64) : Call f (.write ptr size n false) (.count 0) f
  | seek {offset : Int64} {whence : Int32} {t : Nat} (ht : f.target offset.toInt whence = some (t : Int)) :
      Call f (.seek offset whence) (.status 0) { f with pos := t }
  | seekFailed {offset : Int64} {whence : Int32}
      (h : ∀ t : Nat, f.target offset.toInt whence = some (t : Int) → f.size < t) :
      Call f (.seek offset whence) (.status (-1)) f
  | tell {offset : Int64} (h : offset.toInt = f.pos) : Call f .tell (.position offset) f
  | getData : Call f .getData (.data (bytesOf f.byte f.size)) f

/-- The calls of a new file with their results. -/
inductive Calls : List StreamCall → List StreamResult → ByteFile → Prop
  | nil : Calls [] [] {}
  | snoc {cs : List StreamCall} {rs : List StreamResult} {f f' : ByteFile} {c : StreamCall} {r : StreamResult}
      (h : Calls cs rs f) (hc : f.Call c r f') : Calls (cs ++ [c]) (rs ++ [r]) f'

theorem Calls.eq_start {cs : List StreamCall} {rs : List StreamResult} {f : ByteFile} (h : Calls cs rs f)
    (hcs : cs = []) : f = {} := by
  cases h with
  | nil => rfl
  | snoc h hc => exact absurd hcs (List.append_ne_nil_of_right_ne_nil _ (List.cons_ne_nil _ _))

/-- A new file is at its end. -/
theorem Calls.seekEnd_zero {cs : List StreamCall} {rs : List StreamResult} {f : ByteFile} (h : Calls cs rs f)
    (hcs : cs = [.seek 0 seekEnd]) : f.pos = 0 := by
  cases h with
  | nil => rfl
  | snoc h hc =>
    have hsplit : _ ++ [_] = [] ++ [StreamCall.seek 0 seekEnd] := hcs
    obtain ⟨hnil, hsingle⟩ := List.append_inj' hsplit rfl
    have hstart := h.eq_start hnil
    cases List.singleton_inj.1 hsingle
    subst hstart
    cases hc with
    | seek ht => exact (Int.natCast_inj.1 (Option.some.inj ht)).symm
    | seekFailed h => rfl

end ByteFile

/-! ## The handler -/

structure BytesWriteHandler where
  grow : UInt64
  dataSize : Int64
  offset : Int64
  memory : Nat → UInt8
  /-- The size of the block, zero if there is none. -/
  allocated : Nat
  /-- The furthest byte written. -/
  written : Nat := 0
  /-- A `memcpy` has gone beyond the block. -/
  overrun : Bool := false
  results : List StreamResult := []

namespace BytesWriteHandler

/-- The constructor. -/
def start (grow : UInt64) (malloc : Bool) (memory : Nat → UInt8) : BytesWriteHandler where
  grow
  dataSize := grow.toInt64
  offset := 0
  memory
  allocated := if malloc then grow.toNat else 0

/-- `Grow`, with what it returns as a boolean. -/
def growBy (s : BytesWriteHandler) (size : UInt64) (realloc : Bool) : BytesWriteHandler × Bool :=
  let more := if size > s.grow then size else s.grow
  if realloc then
    ({ s with
        dataSize := s.dataSize + more.toInt64
        allocated := (s.dataSize.toUInt64 + more).toNat },
      s.dataSize + more.toInt64 ≠ 0)
  else (s, false)

/-- The test for more memory. -/
def needsGrow (s : BytesWriteHandler) (size : UInt64) : Bool := s.offset + size.toInt64 ≥ s.dataSize

def copy (s : BytesWriteHandler) (ptr : Nat → UInt8) (size : UInt64) : BytesWriteHandler :=
  { s with
    memory := memcpy s.memory ptr s.offset.toInt.toNat size.toNat
    offset := s.offset + size.toInt64
    written := if size = 0 then s.written else max s.written (s.offset.toInt.toNat + size.toNat)
    overrun := s.overrun ||
      decide (size ≠ 0 ∧ (s.offset.toInt < 0 ∨ s.allocated < s.offset.toInt + size.toNat)) }

def write (s : BytesWriteHandler) (ptr : Nat → UInt8) (size n : UInt64) (realloc : Bool) :
    BytesWriteHandler × UInt64 :=
  if s.needsGrow (size * n) then
    let (s, grown) := s.growBy (size * n) realloc
    if grown then (s.copy ptr (size * n), n) else (s, 0)
  else (s.copy ptr (size * n), n)

/-- `std::abs`. -/
def abs (i : Int64) : Int64 := if i < 0 then -i else i

def seek (s : BytesWriteHandler) (offset : Int64) (whence : Int32) : BytesWriteHandler × Int32 :=
  if whence = seekCur then
    if s.offset + offset > s.dataSize ∨ s.offset + offset < 0 then (s, -1)
    else ({ s with offset := s.offset + offset }, 0)
  else if whence = seekEnd then
    if abs offset > s.dataSize then (s, -1) else ({ s with offset := s.dataSize - abs offset }, 0)
  else if whence = seekSet then
    if offset > s.dataSize ∨ offset < 0 then (s, -1) else ({ s with offset }, 0)
  else (s, -1)

def call (s : BytesWriteHandler) : StreamCall → BytesWriteHandler × StreamResult
  | .write ptr size n realloc =>
    let (s, rv) := s.write ptr size n realloc
    (s, .count rv)
  | .seek offset whence =>
    let (s, rv) := s.seek offset whence
    (s, .status rv)
  | .tell => (s, .position s.offset)
  | .getData => (s, .data (bytesOf s.memory s.offset.toInt.toNat))

def step (s : BytesWriteHandler) (c : StreamCall) : Option BytesWriteHandler :=
  let (s', r) := s.call c
  some { s' with results := s.results ++ [r] }

/-! ## When it is a file -/

/-- A write that needs no memory it cannot have stays below 2^63, also in the size of the block, has a
block, and begins within what has been written. A seek from the end leads out of the block, or to where
the block's end and the file's agree. The data is read at the furthest byte. -/
def Fits (s : BytesWriteHandler) : StreamCall → Prop
  | .write _ size n realloc =>
    (s.needsGrow (size * n) = true ∧ realloc = false) ∨
      ((s.offset.toInt ≤ s.written ∨ size.toNat * n.toNat = 0) ∧
        s.offset.toInt + size.toNat * n.toNat < 2 ^ 63 ∧
        if s.needsGrow (size * n) then s.dataSize.toInt + max (size.toNat * n.toNat) s.grow.toNat < 2 ^ 63
        else s.allocated = 0 → size.toNat * n.toNat = 0)
  | .seek offset whence =>
    whence = seekEnd → -2 ^ 63 < offset.toInt ∧
      (s.dataSize.toInt < |offset.toInt| ∨ s.written + offset.toInt = s.dataSize.toInt - |offset.toInt|)
  | .tell => True
  | .getData => s.offset.toInt = s.written

instance (s : BytesWriteHandler) (c : StreamCall) : Decidable (s.Fits c) :=
  match c with
  | .write _ size n _ =>
    inferInstanceAs (Decidable (_ ∨ ((_ ∨ size.toNat * n.toNat = 0) ∧ _ ∧ if s.needsGrow (size * n) then
      s.dataSize.toInt + max (size.toNat * n.toNat) s.grow.toNat < 2 ^ 63
      else s.allocated = 0 → size.toNat * n.toNat = 0)))
  | .seek offset whence =>
    inferInstanceAs (Decidable (whence = seekEnd → -2 ^ 63 < offset.toInt ∧
      (s.dataSize.toInt < |offset.toInt| ∨ s.written + offset.toInt = s.dataSize.toInt - |offset.toInt|)))
  | .tell => isTrue trivial
  | .getData => inferInstanceAs (Decidable (s.offset.toInt = s.written))

/-- The handler's state for a file. -/
structure Agrees (s : BytesWriteHandler) (f : ByteFile) : Prop where
  offset : s.offset.toInt = f.pos
  inside : s.offset.toInt ≤ s.dataSize.toInt
  size : f.size = s.written
  bound : (s.written : Int) ≤ s.dataSize.toInt
  byte : ∀ i < f.size, s.memory i = f.byte i
  block : (s.allocated : Int) = s.dataSize.toInt ∨ (s.allocated = 0 ∧ s.written = 0)
  grow : 0 < s.grow.toNat ∧ s.grow.toNat < 2 ^ 63
  overrun : s.overrun = false

/-! ## Arithmetic -/

section
variable {a b : Int64} {size n : UInt64}

theorem toInt_add (ha : 0 ≤ a.toInt) :
    ((a + b).toInt = a.toInt + b.toInt ∧ a.toInt + b.toInt < 2 ^ 63) ∨
      (2 ^ 63 ≤ a.toInt + b.toInt ∧ (a + b).toInt < 0) := by
  have ha' := a.toInt_lt
  have hb := b.toInt_lt
  have hb' := b.le_toInt
  rw [Int64.toInt_add, Int.bmod]
  split <;> omega

theorem toInt_add_of_lt (ha : 0 ≤ a.toInt) (h : a.toInt + b.toInt < 2 ^ 63) :
    (a + b).toInt = a.toInt + b.toInt := by
  rcases toInt_add (b := b) ha with ⟨heq, -⟩ | ⟨hle, -⟩ <;> omega

theorem toInt_toInt64 (h : size.toNat < 2 ^ 63) : size.toInt64.toInt = size.toNat := by
  rw [← UInt64.ofNat_toNat (x := size), UInt64.toInt64_ofNat', Int64.toInt_ofNat_of_lt (by simpa using h)]
  simp

theorem toInt_abs (h : -2 ^ 63 < a.toInt) : (abs a).toInt = |a.toInt| := by
  have ha := a.toInt_lt
  have hzero : (0 : Int64).toInt = 0 := rfl
  unfold abs
  split <;> rename_i hneg <;> rw [Int64.lt_iff_toInt_lt, hzero] at hneg
  · rw [abs_of_neg hneg, Int64.toInt_neg, Int.bmod]
    split <;> omega
  · rw [abs_of_nonneg (by omega)]

theorem toNat_toUInt64 (h : 0 ≤ a.toInt) : (a.toUInt64.toNat : Int) = a.toInt := by
  rw [Int64.toNat_toUInt64_of_le (Int64.le_iff_toInt_le.2 h)]
  exact Int.toNat_of_nonneg h

theorem toNat_mul (h : size.toNat * n.toNat < 2 ^ 63) : (size * n).toNat = size.toNat * n.toNat := by
  rw [UInt64.toNat_mul, Nat.mod_eq_of_lt (by omega)]

end

/-! ## The calls -/

section
variable {s : BytesWriteHandler} {f : ByteFile} {ptr : Nat → UInt8} {size n : UInt64}

theorem Agrees.init {grow : UInt64} (hpos : 0 < grow) (hlt : grow.toNat < 2 ^ 63) (malloc : Bool)
    (memory : Nat → UInt8) : (start grow malloc memory).Agrees {} where
  offset := rfl
  inside := by
    show (0 : Int) ≤ grow.toInt64.toInt
    rw [toInt_toInt64 hlt]
    omega
  size := rfl
  bound := by
    show (0 : Int) ≤ grow.toInt64.toInt
    rw [toInt_toInt64 hlt]
    omega
  byte := by
    intro i hi
    cases hi
  block := by
    rw [start, toInt_toInt64 hlt]
    cases malloc
    exacts [.inr ⟨rfl, rfl⟩, .inl rfl]
  grow := ⟨UInt64.lt_iff_toNat_lt.1 hpos, hlt⟩
  overrun := rfl

/-- A copy within the block. -/
theorem Agrees.copy (h : s.Agrees f) (hgap : s.offset.toInt ≤ s.written ∨ size = 0)
    (hin : s.offset.toInt + size.toNat ≤ s.dataSize.toInt)
    (hblock : (s.allocated : Int) = s.dataSize.toInt ∨ size = 0) :
    (s.copy ptr size).Agrees (f.write ptr size.toNat) := by
  have hlt := s.dataSize.toInt_lt
  have hoffset := h.offset
  have hpos : s.offset.toInt.toNat = f.pos := by omega
  have hsize : size.toInt64.toInt = size.toNat := toInt_toInt64 (by omega)
  have hnext : (s.offset + size.toInt64).toInt = s.offset.toInt + size.toNat := by
    rw [toInt_add_of_lt (by omega) (by omega), hsize]
  have hzero : size.toNat = 0 ↔ size = 0 := by rw [← UInt64.toNat_inj, UInt64.toNat_zero]
  have hwritten : (s.copy ptr size).written = (f.write ptr size.toNat).size := by
    simp only [BytesWriteHandler.copy, ByteFile.write, hzero, h.size, hpos]
  exact {
    offset := by
      show (s.offset + size.toInt64).toInt = ((f.pos + size.toNat : Nat) : Int)
      omega
    inside := by
      show (s.offset + size.toInt64).toInt ≤ s.dataSize.toInt
      omega
    size := hwritten.symm
    bound := by
      rw [hwritten]
      have := h.bound
      have := h.size
      show ((if size.toNat = 0 then f.size else max f.size (f.pos + size.toNat) : Nat) : Int) ≤ s.dataSize.toInt
      split <;> omega
    byte := by
      intro i hi
      have hsame := h.byte i
      have := h.size
      simp only [ByteFile.write] at hi
      simp only [BytesWriteHandler.copy, ByteFile.write, memcpy, hpos]
      by_cases hc : f.pos ≤ i ∧ i < f.pos + size.toNat
      · rw [if_pos hc, if_pos hc]
      · rw [if_neg hc, if_neg hc]
        apply hsame
        split at hi
        · exact hi
        · rcases hgap with hgap | hgap
          · omega
          · exact absurd (hzero.2 hgap) ‹_›
    block := by
      rcases h.block with hall | ⟨hall, hnone⟩
      · exact .inl hall
      · rcases hblock with hblock | rfl
        · exact .inl hblock
        · exact .inr ⟨hall, hnone⟩
    grow := h.grow
    overrun := by
      have hor := h.overrun
      simp only [BytesWriteHandler.copy, hor, Bool.false_or, decide_eq_false_iff_not]
      rintro ⟨hne, hout⟩
      have hall := hblock.resolve_right hne
      omega }

/-- More memory. -/
theorem Agrees.growBy (h : s.Agrees f) (hlt : s.dataSize.toInt + max size.toNat s.grow.toNat < 2 ^ 63) :
    (s.growBy size true).1.Agrees f ∧ (s.growBy size true).2 = true ∧
      (s.growBy size true).1.dataSize.toInt = s.dataSize.toInt + max size.toNat s.grow.toNat ∧
      ((s.growBy size true).1.allocated : Int) = (s.growBy size true).1.dataSize.toInt := by
  have hoffset := h.offset
  have hinside := h.inside
  have hgrow := h.grow
  have hmore : (if size > s.grow then size else s.grow).toNat = max size.toNat s.grow.toNat := by
    simp only [gt_iff_lt, UInt64.lt_iff_toNat_lt]
    split <;> omega
  have hcast : (if size > s.grow then size else s.grow).toInt64.toInt = max size.toNat s.grow.toNat := by
    rw [toInt_toInt64 (by omega), hmore]
  have hdata : (s.growBy size true).1.dataSize.toInt = s.dataSize.toInt + max size.toNat s.grow.toNat := by
    show (s.dataSize + (if size > s.grow then size else s.grow).toInt64).toInt = _
    rw [toInt_add_of_lt (by omega) (by omega), hcast]
  have hall : ((s.growBy size true).1.allocated : Int) = (s.growBy size true).1.dataSize.toInt :=
    toNat_toUInt64 (a := (s.growBy size true).1.dataSize) (by omega)
  refine ⟨⟨hoffset, ?_, h.size, ?_, h.byte, .inl hall, hgrow, h.overrun⟩, ?_, hdata, hall⟩
  · show s.offset.toInt ≤ _
    omega
  · have hbound : (s.written : Int) ≤ s.dataSize.toInt := h.bound
    show (s.written : Int) ≤ _
    omega
  · refine decide_eq_true fun hzero => ?_
    have hz : (s.growBy size true).1.dataSize.toInt = 0 := congrArg Int64.toInt hzero
    omega

theorem Agrees.write {realloc : Bool} (h : s.Agrees f) (hfits : s.Fits (.write ptr size n realloc)) :
    ∃ f', f.Call (.write ptr size n realloc) (.count (s.write ptr size n realloc).2) f' ∧
      (s.write ptr size n realloc).1.Agrees f' := by
  unfold BytesWriteHandler.write
  rcases hfits with ⟨hneeds, rfl⟩ | ⟨hgap, hlt, hspace⟩
  · rw [if_pos hneeds]
    exact ⟨f, .full ptr size n, h⟩
  have hoffset := h.offset
  have hinside := h.inside
  have hmul : (size * n).toNat = size.toNat * n.toNat := toNat_mul (by omega)
  have hgap' : s.offset.toInt ≤ s.written ∨ size * n = 0 :=
    hgap.imp_right fun hz => UInt64.toNat_inj.1 (by rw [hmul, hz, UInt64.toNat_zero])
  rw [← hmul] at hspace
  rw [← Int.natCast_mul, ← hmul] at hlt
  split
  · rename_i hneeds
    rw [if_pos hneeds] at hspace
    cases realloc with
    | false => exact ⟨f, .full ptr size n, h⟩
    | true =>
      obtain ⟨hgrown, htrue, hdata, hall⟩ := h.growBy hspace
      refine ⟨f.write ptr (size.toNat * n.toNat), ?_, ?_⟩
      · simp only [htrue, if_true]
        exact .write ptr size n true
      · simp only [htrue, if_true]
        rw [← hmul]
        refine hgrown.copy hgap' ?_ (.inl hall)
        show s.offset.toInt + _ ≤ _
        omega
  · rename_i hneeds
    rw [if_neg hneeds] at hspace
    refine ⟨f.write ptr (size.toNat * n.toNat), .write ptr size n realloc, ?_⟩
    rw [← hmul]
    refine h.copy hgap' ?_ ?_
    · simp only [needsGrow, ge_iff_le, decide_eq_true_eq, Int64.not_le, Int64.lt_iff_toInt_lt] at hneeds
      rw [toInt_add_of_lt (by omega) (by rw [toInt_toInt64 (by omega)]; omega), toInt_toInt64 (by omega)] at hneeds
      omega
    · rcases h.block with hall | ⟨hnone, -⟩
      · exact .inl hall
      · exact .inr (UInt64.toNat_inj.1 (hspace hnone))

/-- A seek to `target`, which is refused when `Out`. -/
theorem Agrees.seekTo {offset position : Int64} {whence : Int32} {target : Int} {Out : Prop} [Decidable Out]
    (h : s.Agrees f) (htarget : f.target offset.toInt whence = some target)
    (hout : Out → target < 0 ∨ f.size < target)
    (hin : ¬ Out → position.toInt = target ∧ 0 ≤ target ∧ target ≤ s.dataSize.toInt) :
    ∃ f', f.Call (.seek offset whence) (.status (if Out then (s, -1) else ({ s with offset := position }, 0)).2) f' ∧
      (if Out then (s, (-1 : Int32)) else ({ s with offset := position }, 0)).1.Agrees f' := by
  split <;> rename_i hc
  · refine ⟨f, .seekFailed fun t ht => ?_, h⟩
    rw [htarget, Option.some.injEq] at ht
    have := hout hc
    omega
  · obtain ⟨hposition, hnonneg, hle⟩ := hin hc
    obtain ⟨t, rfl⟩ := Int.eq_ofNat_of_zero_le hnonneg
    exact ⟨{ f with pos := t }, .seek htarget, { h with offset := hposition, inside := hposition ▸ hle }⟩

theorem Agrees.seek {offset : Int64} {whence : Int32} (h : s.Agrees f) (hfits : s.Fits (.seek offset whence)) :
    ∃ f', f.Call (.seek offset whence) (.status (s.seek offset whence).2) f' ∧
      (s.seek offset whence).1.Agrees f' := by
  have hpos := h.offset
  have hinside := h.inside
  have hsize := h.size
  have hbound := h.bound
  have hlt := s.dataSize.toInt_lt
  have hzero : (0 : Int64).toInt = 0 := rfl
  unfold BytesWriteHandler.seek
  split
  · rename_i hcur
    subst hcur
    have hsum := toInt_add (b := offset) (a := s.offset) (by omega)
    have hiff : s.offset + offset > s.dataSize ∨ s.offset + offset < 0 ↔
        s.dataSize.toInt < (s.offset + offset).toInt ∨ (s.offset + offset).toInt < 0 := by
      simp only [gt_iff_lt, Int64.lt_iff_toInt_lt, hzero]
    refine h.seekTo (show f.target offset.toInt seekCur = some (f.pos + offset.toInt) from rfl) (fun hout => ?_) fun hin => ?_
    · have := hiff.1 hout
      omega
    · have := mt hiff.2 hin
      omega
  rename_i hcur
  split
  · rename_i hend
    obtain ⟨hmin, hfits⟩ := hfits hend
    subst hend
    have habs := toInt_abs hmin
    have hnonneg := abs_nonneg offset.toInt
    have hiff : abs offset > s.dataSize ↔ s.dataSize.toInt < |offset.toInt| := by
      rw [gt_iff_lt, Int64.lt_iff_toInt_lt, habs]
    refine h.seekTo (show f.target offset.toInt seekEnd = some (f.size + offset.toInt) from rfl) (fun hout => ?_) fun hin => ?_
    · have hover := hiff.1 hout
      rcases le_or_gt 0 offset.toInt with hsign | hsign
      · rw [abs_of_nonneg hsign] at hover
        omega
      · rw [abs_of_neg hsign] at hover
        omega
    · have hwithin := mt hiff.2 hin
      have hsub : (s.dataSize - abs offset).toInt = s.dataSize.toInt - |offset.toInt| := by
        rw [Int64.toInt_sub, habs, Int.bmod]
        split <;> omega
      omega
  rename_i hend
  split
  · rename_i hset
    subst hset
    have hiff : offset > s.dataSize ∨ offset < 0 ↔ s.dataSize.toInt < offset.toInt ∨ offset.toInt < 0 := by
      simp only [gt_iff_lt, Int64.lt_iff_toInt_lt, hzero]
    refine h.seekTo (show f.target offset.toInt seekSet = some offset.toInt from rfl) (fun hout => ?_) fun hin => ?_
    · have := hiff.1 hout
      omega
    · have := mt hiff.2 hin
      omega
  · rename_i hset
    refine ⟨f, .seekFailed fun t ht => ?_, h⟩
    rw [ByteFile.target, if_neg hset, if_neg hcur, if_neg hend] at ht
    cases ht

/-- What one call does. -/
theorem Agrees.call {c : StreamCall} (h : s.Agrees f) (hfits : s.Fits c) :
    ∃ f', f.Call c (s.call c).2 f' ∧ (s.call c).1.Agrees f' := by
  cases c with
  | write ptr size n realloc => exact h.write hfits
  | seek offset whence => exact h.seek hfits
  | tell => exact ⟨f, .tell h.offset, h⟩
  | getData =>
    refine ⟨f, ?_, h⟩
    have hend : s.offset.toInt = s.written := hfits
    have hread : bytesOf s.memory s.offset.toInt.toNat = bytesOf f.byte f.size := by
      rw [hend, Int.toNat_natCast, ← h.size]
      exact List.map_congr_left fun i hi => h.byte i (List.mem_range.1 hi)
    show f.Call .getData (.data (bytesOf s.memory s.offset.toInt.toNat)) f
    rw [hread]
    exact .getData

end

/-- The results of calls that fit are those of a file, with the position inside of the block and every
copy too. -/
theorem calls_run {grow : UInt64} (hpos : 0 < grow) (hlt : grow.toNat < 2 ^ 63) (malloc : Bool)
    (memory : Nat → UInt8) (cs : List StreamCall) (s : BytesWriteHandler)
    (h : Lts.Run step Fits (start grow malloc memory) cs s) :
    ∃ f, ByteFile.Calls cs s.results f ∧ s.Agrees f ∧ s.offset.toInt = f.pos ∧ f.size = s.written ∧
      0 ≤ s.offset ∧ s.offset ≤ s.dataSize ∧ s.overrun = false := by
  obtain ⟨f, hcalls, hagrees⟩ : ∃ f, ByteFile.Calls cs s.results f ∧ s.Agrees f := by
    refine h.hist (I := fun cs s => ∃ f, ByteFile.Calls cs s.results f ∧ s.Agrees f) (p := []) ?_
      ⟨{}, .nil, .init hpos hlt malloc memory⟩
    rintro cs s c s' ⟨f, hcalls, hagrees⟩ hfits hs
    cases hs
    obtain ⟨f', hcall, hagrees'⟩ := hagrees.call hfits
    exact ⟨f', hcalls.snoc hcall, { hagrees' with }⟩
  have hoffset := hagrees.offset
  refine ⟨f, hcalls, hagrees, hoffset, hagrees.size, ?_, ?_, hagrees.overrun⟩
  · rw [Int64.le_iff_toInt_le, hoffset]
    exact Int.natCast_nonneg _
  · exact Int64.le_iff_toInt_le.2 hagrees.inside

/-- A write over the end of an earlier one, which needs more memory. -/
theorem calls_run_overwrite :
    ∃ s, Lts.Run step Fits (start 4 true fun _ => 0)
        [.write (fun i => i.toUInt8) 3 1 true, .seek 1 seekSet, .write (fun _ => 7) 1 3 true, .getData] s ∧
      s.results = [.count 1, .status 0, .count 3, .data [0, 7, 7, 7]] ∧
      ∃ f, ByteFile.Calls [.write (fun i => i.toUInt8) 3 1 true, .seek 1 seekSet, .write (fun _ => 7) 1 3 true,
        .getData] s.results f := by
  obtain ⟨s, hs, hresults⟩ : ∃ s, Lts.exec (Lts.checked step Fits) (start 4 true fun _ => 0)
      [.write (fun i => i.toUInt8) 3 1 true, .seek 1 seekSet, .write (fun _ => 7) 1 3 true, .getData] = some s ∧
      s.results = [.count 1, .status 0, .count 3, .data [0, 7, 7, 7]] := ⟨_, rfl, by decide⟩
  have hrun := Lts.run_of_checked hs
  obtain ⟨f, hcalls, -⟩ := calls_run (by decide) (by decide) true _ _ s hrun
  exact ⟨s, hrun, hresults, f, hcalls⟩

/-- The end of a new handler is the end of its block, that of a new file its beginning. -/
theorem not_calls_run_seekEnd :
    ¬ ∀ (grow : UInt64) (malloc : Bool) (memory : Nat → UInt8) (cs : List StreamCall) (s : BytesWriteHandler),
      0 < grow → Lts.Run step Lts.Any (start grow malloc memory) cs s →
        ∃ f, ByteFile.Calls cs s.results f ∧ s.offset.toInt = f.pos ∧ f.size = s.written ∧
          0 ≤ s.offset ∧ s.offset ≤ s.dataSize ∧ s.overrun = false := by
  intro h
  obtain ⟨s, hs, hresults, hoffset⟩ : ∃ s, Lts.exec step (start 4 true fun _ => 0) [.seek 0 seekEnd] = some s ∧
      s.results = [.status 0] ∧ s.offset.toInt = 4 := ⟨_, rfl, rfl, rfl⟩
  obtain ⟨f, hcalls, hpos, -⟩ := h 4 true _ _ s (by decide) (Lts.run_of_exec hs)
  have hzero := hcalls.seekEnd_zero rfl
  omega

end BytesWriteHandler
end NplBrowser
