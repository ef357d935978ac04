import Mathlib.Tactic.Ring
import NplBrowser.Bytes
import NplBrowser.Lib.MachineInt

/-!
# The handler of `client://` requests (`scheme_test.cc`)

`ClientSchemeHandler` has the whole response in `data_`, and `ReadResponse` hands over what has not
been read of it, as much as the caller's buffer takes. How much is left is a `size_t` that is narrowed
to an `int` before the minimum is taken, so from 2 GiB on it may be negative or too small; what is left
then never gets below 2 GiB.
-/

namespace NplBrowser

structure ClientSchemeHandler where
  data : Bytes
  mimeType : Bytes := []
  offset : Nat := 0

namespace ClientSchemeHandler

/-- What `GetResponseHeaders` sets. -/
structure ResponseHeaders where
  mimeType : Bytes
  status : Int32
  responseLength : Int64

def getResponseHeaders (h : ClientSchemeHandler) : ResponseHeaders where
  mimeType := h.mimeType
  status := 200
  responseLength := .ofNat h.data.length

/-- `memcpy` of `size` bytes at `offset` of `data_`, into a buffer of `room` bytes. `none`: the size is
negative, or not within both buffers. -/
def copyOut (data : Bytes) (offset : Nat) (room size : Int32) : Option Bytes :=
  if 0 ≤ size ∧ size ≤ room ∧ offset + size.toNatClampNeg ≤ data.length then
    some ((data.drop offset).take size.toNatClampNeg)
  else none

/-- What a call of `ReadResponse` returns, sets and leaves in `data_out`. -/
structure Reply where
  hasData : Bool
  bytesRead : Int32
  dataOut : Bytes
deriving DecidableEq

/-- `static_cast<int>(data_.length() - offset_)`. -/
def remaining (h : ClientSchemeHandler) : Int32 := .ofNat (h.data.length - h.offset)

/-- `std::min(bytes_to_read, remaining)`. -/
def transferSize (h : ClientSchemeHandler) (bytesToRead : Int32) : Int32 :=
  if h.remaining < bytesToRead then h.remaining else bytesToRead

/-- `none`: `memcpy` is called out of bounds. -/
def readResponse (h : ClientSchemeHandler) (bytesToRead : Int32) : Option (ClientSchemeHandler × Reply) :=
  if h.offset < h.data.length then
    let transferSize := h.transferSize bytesToRead
    (copyOut h.data h.offset bytesToRead transferSize).map fun dataOut =>
      ({ h with offset := h.offset + transferSize.toNatClampNeg },
        { hasData := true, bytesRead := transferSize, dataOut })
  else some (h, { hasData := false, bytesRead := 0, dataOut := [] })

/-- `bytes_to_read`, the size of the caller's buffer. -/
abbrev BufferSize := { n : Int32 // 0 < n }

/-- The calls up to the one that returns false, which is the `i`th at the earliest. `none`: it is not
among the next `n`, or a call is not well defined. -/
def readAll (sizes : Nat → BufferSize) : Nat → ClientSchemeHandler → Nat → Option (List Reply)
  | 0, _, _ => none
  | n + 1, h, i => (h.readResponse (sizes i)).bind fun (h, reply) =>
    if reply.hasData then (readAll sizes n h (i + 1)).map (reply :: ·) else some [reply]

/-- The calls end, with all of the data read, in order, and as much as was announced. -/
def Delivered (h : ClientSchemeHandler) (sizes : Nat → BufferSize) : Prop :=
  ∃ n replies, readAll sizes n h 0 = some replies ∧ (replies.map Reply.dataOut).flatten = h.data ∧
    (replies.map fun r => r.bytesRead.toInt).sum = h.getResponseHeaders.responseLength.toInt

variable {h : ClientSchemeHandler} {sizes : Nat → BufferSize}

/-! ## Less than 2 GiB are left -/

theorem toInt_remaining (hlt : h.data.length - h.offset < 2 ^ 31) :
    h.remaining.toInt = (h.data.length - h.offset : Nat) := Int32.toInt_ofNat_of_lt hlt

/-- The size of a transfer, and what it is bounded by. -/
theorem transferSize_bounds (hlt : h.data.length - h.offset < 2 ^ 31) (b : BufferSize) :
    0 ≤ h.transferSize b ∧ h.transferSize b ≤ b ∧
      h.offset + (h.transferSize b).toNatClampNeg ≤ max h.offset h.data.length ∧
      (h.offset < h.data.length → 0 < (h.transferSize b).toNatClampNeg) := by
  have hr := toInt_remaining hlt
  obtain ⟨b, hb⟩ := b
  have hb' := Int32.lt_iff_toInt_lt.1 hb
  have hclamp := Int32.toNat_toInt (h.transferSize b)
  have hzero : (0 : Int32).toInt = 0 := rfl
  rw [Int32.le_iff_toInt_le, Int32.le_iff_toInt_le]
  unfold transferSize at hclamp ⊢
  dsimp only
  split at hclamp <;> rename_i hmin <;> rw [Int32.lt_iff_toInt_lt] at hmin
  · rw [if_pos (Int32.lt_iff_toInt_lt.2 hmin)]
    omega
  · rw [if_neg (Int32.lt_iff_toInt_lt.not.2 hmin)]
    omega

/-- A call hands over what comes next, at least one byte of it. -/
theorem readResponse_of_lt (hlt : h.data.length - h.offset < 2 ^ 31) (hoffset : h.offset < h.data.length)
    (b : BufferSize) : ∃ k size, 0 < k ∧ h.offset + k ≤ h.data.length ∧ Int32.toInt size = k ∧
      h.readResponse b = some ({ h with offset := h.offset + k },
        { hasData := true, bytesRead := size, dataOut := (h.data.drop h.offset).take k }) := by
  obtain ⟨hnonneg, hroom, hend, hpos⟩ := transferSize_bounds hlt b
  rw [max_eq_right (Nat.le_of_lt hoffset)] at hend
  refine ⟨(h.transferSize b).toNatClampNeg, h.transferSize b, hpos hoffset, hend, ?_, ?_⟩
  · have hclamp := Int32.toNat_toInt (h.transferSize b)
    have hnonneg' := Int32.le_iff_toInt_le.1 hnonneg
    have hzero : (0 : Int32).toInt = 0 := rfl
    omega
  · unfold readResponse copyOut
    rw [if_pos hoffset]
    dsimp only
    rw [if_pos ⟨hnonneg, hroom, hend⟩, Option.map_some]

theorem readResponse_of_le (hend : h.data.length ≤ h.offset) (b : Int32) :
    h.readResponse b = some (h, { hasData := false, bytesRead := 0, dataOut := [] }) :=
  if_neg (Nat.not_lt.2 hend)

theorem readAll_of_le (hend : h.data.length ≤ h.offset) (n i : Nat) :
    readAll sizes (n + 1) h i = some [{ hasData := false, bytesRead := 0, dataOut := [] }] := by
  rw [readAll, readResponse_of_le hend]
  rfl

/-- By induction on what is left. -/
theorem readAll_of_lt {n i : Nat} (hlt : h.data.length - h.offset < 2 ^ 31)
    (hn : h.data.length - h.offset ≤ n) : ∃ replies, readAll sizes (n + 1) h i = some replies ∧
      (replies.map Reply.dataOut).flatten = h.data.drop h.offset ∧
      (replies.map fun r => r.bytesRead.toInt).sum = (h.data.length - h.offset : Nat) := by
  induction n generalizing h i with
  | zero =>
    have hend : h.data.length ≤ h.offset := by omega
    refine ⟨_, readAll_of_le hend 0 i, ?_, ?_⟩
    · simp [List.drop_of_length_le hend]
    · simp [Nat.sub_eq_zero_of_le hend]
  | succ n ih =>
    rcases Nat.lt_or_ge h.offset h.data.length with hoffset | hend
    · obtain ⟨k, size, hk, hle, hsize, hread⟩ := readResponse_of_lt hlt hoffset (sizes i)
      obtain ⟨replies, hrest, hdata, hsum⟩ := ih (h := { h with offset := h.offset + k }) (i := i + 1)
        (by dsimp only; omega) (by dsimp only; omega)
      refine ⟨{ hasData := true, bytesRead := size, dataOut := (h.data.drop h.offset).take k } :: replies,
        ?_, ?_, ?_⟩
      · rw [readAll, hread, Option.bind_some]
        dsimp only
        rw [if_pos rfl, hrest, Option.map_some]
      · rw [List.map_cons, List.flatten_cons, hdata, ← List.drop_drop, List.take_append_drop]
      · rw [List.map_cons, List.sum_cons, hsum]
        dsimp only
        omega
    · refine ⟨_, readAll_of_le hend _ i, ?_, ?_⟩
      · simp [List.drop_of_length_le hend]
      · simp [Nat.sub_eq_zero_of_le hend]

/-! ## 2 GiB or more are left -/

/-- The transfer takes away less than what is above a multiple of 4 GiB. -/
theorem transferSize_of_le (hle : 2 ^ 31 ≤ h.data.length - h.offset) (b : BufferSize)
    (hnonneg : 0 ≤ h.transferSize b) :
    2 ^ 31 ≤ h.data.length - (h.offset + (h.transferSize b).toNatClampNeg) := by
  have hr : h.remaining.toInt = ((h.data.length - h.offset : Nat) : Int).bmod (2 ^ 32) :=
    MachineInt.toInt_ofNat _
  have hclamp := Int32.toNat_toInt (h.transferSize b)
  have hle' : (h.transferSize b).toInt ≤ h.remaining.toInt := by
    unfold transferSize
    split <;> rename_i hmin
    · exact Int.le_refl _
    · rwa [Int32.lt_iff_toInt_lt, Int.not_lt] at hmin
  have hnonneg' := Int32.le_iff_toInt_le.1 hnonneg
  have hzero : (0 : Int32).toInt = 0 := rfl
  rw [Int.bmod_def] at hr
  split at hr <;> omega

theorem readResponse_of_ge (hle : 2 ^ 31 ≤ h.data.length - h.offset) {b : BufferSize} {h' : ClientSchemeHandler}
    {reply : Reply} (hread : h.readResponse b = some (h', reply)) :
    reply.hasData = true ∧ 2 ^ 31 ≤ h'.data.length - h'.offset := by
  unfold readResponse copyOut at hread
  rw [if_pos (by omega)] at hread
  dsimp only at hread
  split at hread <;> rename_i hcopy
  · cases hread
    exact ⟨rfl, transferSize_of_le hle b hcopy.1⟩
  · cases hread

/-- The calls never end well. -/
theorem readAll_of_ge {n i : Nat} (hle : 2 ^ 31 ≤ h.data.length - h.offset) : readAll sizes n h i = none := by
  induction n generalizing h i with
  | zero => rfl
  | succ n ih =>
    rw [readAll, Option.bind_eq_none_iff]
    rintro ⟨h', reply⟩ hread
    obtain ⟨hdata, hle'⟩ := readResponse_of_ge hle hread
    dsimp only
    rw [if_pos hdata, ih hle', Option.map_none]

theorem not_delivered_of_le (hle : 2 ^ 31 ≤ h.data.length - h.offset) : ¬ h.Delivered sizes := by
  rintro ⟨n, replies, hread, -⟩
  rw [readAll_of_ge hle] at hread
  cases hread

theorem not_delivered_of_length {data : Bytes} (hle : 2 ^ 31 ≤ data.length) (mimeType : Bytes) :
    ¬ Delivered { data, mimeType } sizes :=
  not_delivered_of_le (h := { data, mimeType }) hle

/-- Whatever the sizes of the buffers, the calls deliver the data just when it is shorter than 2 GiB. -/
theorem delivered_iff (data mimeType : Bytes) (sizes : Nat → BufferSize) :
    Delivered { data, mimeType } sizes ↔ data.length < 2 ^ 31 := by
  constructor
  · intro hd
    by_contra hge
    exact not_delivered_of_length (Nat.not_lt.1 hge) mimeType hd
  · intro hlt
    obtain ⟨replies, hread, hdata, hsum⟩ := @readAll_of_lt { data, mimeType } sizes data.length 0 hlt
      (Nat.sub_le _ _)
    refine ⟨data.length + 1, replies, hread, hdata, ?_⟩
    rw [hsum]
    exact (Int64.toInt_ofNat_of_lt (Nat.lt_trans hlt (by decide))).symm

/-- 2 GiB of zeros: the first call copies a negative number of bytes. -/
theorem not_delivered_2GiB :
    ¬ Delivered { data := List.replicate (2 ^ 31) 0 } (fun _ => ⟨65536, by decide⟩) :=
  not_delivered_of_length (Nat.le_of_eq List.length_replicate.symm) []

end ClientSchemeHandler
end NplBrowser
