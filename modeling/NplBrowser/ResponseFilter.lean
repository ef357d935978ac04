import NplBrowser.Bytes
import NplBrowser.Lib.Replace

/-!
# Find and replace in a response (`response_filter_test.cc`, `cef_response_filter.h`)

`FindReplaceResponseFilter` gets a response in chunks, each with an output buffer of some size. The
match that is under way, the number of replacements and what did not fit into the output buffer are
carried from one call to the next. `Response` is the caller: one call for each chunk, then calls
without input for as long as the filter fills its buffer and has output pending.

`replace_overflow_size_` only says how much memory to reserve, and is left out.
-/

namespace NplBrowser

def kFindString : Bytes := lit "REPLACE_THIS_STRING"

def kReplaceString : Bytes := lit "This is the replaced string!"

/-- What the `n`-th occurrence is replaced by. -/
def replaceStr (n : Nat) : Bytes := decimal n ++ lit ". " ++ kReplaceString

inductive FilterStatus
  | needMoreData
  | done
  | error
  deriving DecidableEq

structure FindReplaceResponseFilter where
  findMatchOffset : Nat := 0
  overflow : Bytes := []
  replaceCount : Nat := 0

namespace FindReplaceResponseFilter

/-- A call of `Filter` under way: `data_out` is what has been written to the output buffer. -/
structure Call where
  filter : FindReplaceResponseFilter
  dataOut : Bytes := []

structure Result where
  filter : FindReplaceResponseFilter
  dataInRead : Nat
  dataOut : Bytes
  status : FilterStatus

def Call.write (dataOutSize : Nat) (c : Call) (str : Bytes) : Call :=
  let remainingSpace := dataOutSize - c.dataOut.length
  let maxWrite := min str.length remainingSpace
  { filter := { c.filter with overflow := c.filter.overflow ++ str.drop maxWrite }
    dataOut := c.dataOut ++ str.take maxWrite }

def Call.setOffset (c : Call) (findMatchOffset : Nat) : Call :=
  { c with filter := { c.filter with findMatchOffset } }

def Call.setCount (c : Call) (replaceCount : Nat) : Call :=
  { c with filter := { c.filter with replaceCount } }

/-- One character of the input buffer. -/
def Call.evaluate (dataOutSize : Nat) (c : Call) (b : UInt8) : Call :=
  if kFindString[c.filter.findMatchOffset]? = some b then
    let c := c.setOffset (c.filter.findMatchOffset + 1)
    if c.filter.findMatchOffset = kFindString.length then
      let c := c.setCount (c.filter.replaceCount + 1)
      (c.write dataOutSize (replaceStr c.filter.replaceCount)).setOffset 0
    else c
  else
    -- the portion that has matched so far; `b` itself is not looked at again
    let c := if 0 < c.filter.findMatchOffset then
        (c.write dataOutSize (kFindString.take c.filter.findMatchOffset)).setOffset 0
      else c
    c.write dataOutSize [b]

/-- `Filter`. -/
def filter (f : FindReplaceResponseFilter) (dataIn : Bytes) (dataOutSize : Nat) : Result :=
  let oldOverflow := f.overflow
  let c : Call := { filter := { f with overflow := [] } }
  let c := if oldOverflow = [] then c else c.write dataOutSize oldOverflow
  let c := dataIn.foldl (Call.evaluate dataOutSize) c
  { filter := c.filter
    dataInRead := dataIn.length
    dataOut := c.dataOut
    status := if 0 < c.filter.findMatchOffset then .needMoreData else .done }

/-! ### One call -/

open Replace

variable {size : Nat} {c : Call} {f : FindReplaceResponseFilter} {s t x : Bytes}

/-- The state of the matcher. -/
def state (f : FindReplaceResponseFilter) : Replace.State := (f.findMatchOffset, f.replaceCount)

/-- Of the output `s` the buffer has the front and the overflow the rest. -/
structure Call.Written (size : Nat) (c : Call) (s : Bytes) : Prop where
  dataOut : c.dataOut = s.take size
  overflow : c.filter.overflow = s.drop size

/-- What is left of the buffer takes the front of `x`. -/
theorem Call.Written.write (h : Written size c s) (x : Bytes) : Written size (c.write size x) (s ++ x) := by
  have hspace : size - c.dataOut.length = size - s.length := by
    rw [h.dataOut, List.length_take]
    omega
  unfold Call.write
  dsimp only
  rw [hspace]
  rcases Nat.le_total x.length (size - s.length) with hle | hle
  · rw [Nat.min_eq_left hle, List.take_length, List.drop_length, List.append_nil]
    refine ⟨?_, ?_⟩
    · show c.dataOut ++ x = _
      rw [h.dataOut, List.take_append, List.take_of_length_le hle]
    · show c.filter.overflow = _
      rw [h.overflow, List.drop_append, List.drop_of_length_le hle, List.append_nil]
  · rw [Nat.min_eq_right hle]
    refine ⟨?_, ?_⟩
    · show c.dataOut ++ _ = _
      rw [h.dataOut, List.take_append]
    · show c.filter.overflow ++ _ = _
      rw [h.overflow, List.drop_append]

theorem Call.Written.setOffset (h : Written size c s) (k : Nat) : Written size (c.setOffset k) s :=
  ⟨h.dataOut, h.overflow⟩

theorem Call.Written.setCount (h : Written size c s) (n : Nat) : Written size (c.setCount n) s :=
  ⟨h.dataOut, h.overflow⟩

/-- A character is one step of the matcher, and writes what that gives out. -/
theorem Call.Written.evaluate (h : Written size c s) (b : UInt8) :
    Written size (c.evaluate size b) (s ++ (next kFindString replaceStr c.filter.state b).2) ∧
      (c.evaluate size b).filter.state = (next kFindString replaceStr c.filter.state b).1 := by
  unfold Call.evaluate
  split
  · rename_i hb
    dsimp only
    split
    · rename_i hlen
      rw [next_found (q := c.filter.state) hb hlen]
      exact ⟨(((h.setOffset _).setCount _).write _).setOffset _, rfl⟩
    · rename_i hlen
      rw [next_matched (q := c.filter.state) hb hlen, List.append_nil]
      exact ⟨h.setOffset _, rfl⟩
  · rename_i hb
    rw [next_other (q := c.filter.state) hb]
    dsimp only
    split
    · rw [← List.append_assoc]
      exact ⟨((h.write _).setOffset _).write _, rfl⟩
    · rename_i h0
      have h0 : c.filter.findMatchOffset = 0 := by omega
      rw [show c.filter.state.1 = 0 from h0, List.take_zero, List.nil_append]
      exact ⟨h.write _, Prod.ext h0 rfl⟩

theorem Call.Written.foldl (h : Written size c s) (x : Bytes) :
    Written size (x.foldl (Call.evaluate size) c) (s ++ (scan kFindString replaceStr c.filter.state x).2) ∧
      (x.foldl (Call.evaluate size) c).filter.state = (scan kFindString replaceStr c.filter.state x).1 := by
  induction x generalizing c s with
  | nil => exact ⟨(List.append_nil s).symm ▸ h, rfl⟩
  | cons b x ih =>
    obtain ⟨hw, hs⟩ := h.evaluate b
    have hx := ih hw
    rw [hs, List.append_assoc] at hx
    exact hx

/-- What a call gives out, in its buffer and to the next call. -/
def due (f : FindReplaceResponseFilter) (x : Bytes) : Bytes :=
  f.overflow ++ (scan kFindString replaceStr f.state x).2

theorem filter_spec (f : FindReplaceResponseFilter) (x : Bytes) (size : Nat) :
    (f.filter x size).dataOut = (f.due x).take size ∧
      (f.filter x size).filter.overflow = (f.due x).drop size ∧
        (f.filter x size).filter.state = (scan kFindString replaceStr f.state x).1 := by
  have hstart : Call.Written size { filter := { f with overflow := [] } } [] :=
    ⟨List.take_nil.symm, List.drop_nil.symm⟩
  have hold : ∃ c : Call, c = (if f.overflow = [] then ({ filter := { f with overflow := [] } } : Call)
      else Call.write size { filter := { f with overflow := [] } } f.overflow) ∧
        Call.Written size c f.overflow ∧ c.filter.state = f.state := by
    refine ⟨_, rfl, ?_⟩
    split
    · rename_i hnil
      exact ⟨hnil.symm ▸ hstart, rfl⟩
    · exact ⟨hstart.write f.overflow, rfl⟩
  obtain ⟨c, hc, hw, hs⟩ := hold
  obtain ⟨hx, hsx⟩ := hw.foldl x
  rw [hs, hc] at hx hsx
  exact ⟨hx.dataOut, hx.overflow, hsx⟩

theorem status_filter (f : FindReplaceResponseFilter) (x : Bytes) (size : Nat) :
    (f.filter x size).status = .needMoreData ↔ 0 < (f.filter x size).filter.findMatchOffset := by
  have hst : (f.filter x size).status =
      if 0 < (f.filter x size).filter.findMatchOffset then .needMoreData else .done := rfl
  rw [hst]
  by_cases h : 0 < (f.filter x size).filter.findMatchOffset
  · rw [if_pos h]
    exact iff_of_true rfl h
  · rw [if_neg h]
    exact iff_of_false (fun hc => by cases hc) h

end FindReplaceResponseFilter

end NplBrowser
