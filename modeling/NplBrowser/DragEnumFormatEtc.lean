import Mathlib.Data.List.Induction
import Mathlib.Tactic.Ring
import NplBrowser.Lib.Cursor
import NplBrowser.Lib.Objects

/-!
# The enumerator of clipboard formats (`osr_dragdrop_win.cc`)

`DragEnumFormatEtc` is a cursor on its own copy of the formats, as `IEnumFORMATETC` wants one. `Skip`
adds its count to the index as it is: behind the end the index stays there and is only compared, and
a sum that does not fit into 32 bits puts it back into the list.

Allocations succeed, and references are not counted here.
-/

namespace NplBrowser

/-- `DVTARGETDEVICE`, of which `sizeof` counts one byte of data. -/
structure TargetDevice where
  tdSize : UInt32
  tdDriverNameOffset : UInt16
  tdDeviceNameOffset : UInt16
  tdPortNameOffset : UInt16
  tdExtDevmodeOffset : UInt16
  tdData : UInt8
deriving DecidableEq

/-- `FORMATETC`, with what `ptd` points to. -/
structure FormatEtc where
  cfFormat : UInt16
  ptd : Option TargetDevice := none
  dwAspect : UInt32 := 1
  lindex : Int32 := -1
  tymed : UInt32 := 1
deriving DecidableEq

inductive HResult
  | sOk
  | sFalse
  | eInvalidArg
deriving DecidableEq

/-- `m_nNumFormats` is the length of the list, which the constructor is given as an `int`. -/
structure DragEnumFormatEtc where
  index : UInt32 := 0
  formats : List FormatEtc
  length_lt : formats.length < 2 ^ 31
deriving DecidableEq

namespace DragEnumFormatEtc

def numFormats (e : DragEnumFormatEtc) : UInt32 := UInt32.ofNat e.formats.length

def deepCopyFormatEtc (source : FormatEtc) : FormatEtc :=
  match source.ptd with
  | some ptd => { source with ptd := some ptd }
  | none => source

@[simp] theorem deepCopyFormatEtc_eq (source : FormatEtc) : deepCopyFormatEtc source = source := by
  unfold deepCopyFormatEtc
  rcases source with ⟨_, _ | _, _, _, _⟩ <;> rfl

@[simp] theorem map_deepCopyFormatEtc (formats : List FormatEtc) : formats.map deepCopyFormatEtc = formats := by
  induction formats with
  | nil => rfl
  | cons f formats ih => rw [List.map_cons, ih, deepCopyFormatEtc_eq]

/-- The constructor. -/
def make (formats : List FormatEtc) (h : formats.length < 2 ^ 31) : DragEnumFormatEtc where
  formats := formats.map deepCopyFormatEtc
  length_lt := by rwa [List.length_map]

def createEnumFormatEtc (formats : List FormatEtc) (h : formats.length < 2 ^ 31) :
    HResult × Option DragEnumFormatEtc :=
  if formats = [] then (.eInvalidArg, none) else (.sOk, some (make formats h))

/-! ### Calls -/

inductive Call
  | next (celt : UInt32)
  | skip (celt : UInt32)
  | reset
  | clone
deriving DecidableEq

/-- What a call writes to the caller's buffer and to `*pceltFetched`, and what it returns. -/
structure Answer where
  formats : List FormatEtc := []
  fetched : UInt32 := 0
  result : HResult
deriving DecidableEq

/-- The loop of `Next`, with `n` formats still wanted. -/
def copyFormats (e : DragEnumFormatEtc) : Nat → DragEnumFormatEtc × List FormatEtc
  | 0 => (e, [])
  | n + 1 =>
    match if e.index < e.numFormats then e.formats[e.index.toNat]? else none with
    | some format =>
      let (e', out) := copyFormats { e with index := e.index + 1 } n
      (e', deepCopyFormatEtc format :: out)
    | none => (e, [])

def next (e : DragEnumFormatEtc) (celt : UInt32) : DragEnumFormatEtc × Answer :=
  let (e', out) := e.copyFormats celt.toNat
  let copied := UInt32.ofNat out.length
  (e', { formats := out, fetched := copied, result := if copied = celt then .sOk else .sFalse })

def skip (e : DragEnumFormatEtc) (celt : UInt32) : DragEnumFormatEtc × HResult :=
  let e := { e with index := e.index + celt }
  (e, if e.index ≤ e.numFormats then .sOk else .sFalse)

def reset (e : DragEnumFormatEtc) : DragEnumFormatEtc := { e with index := 0 }

def clone (e : DragEnumFormatEtc) : HResult × Option DragEnumFormatEtc :=
  let (result, new) := createEnumFormatEtc e.formats e.length_lt
  (result, new.map fun new => { new with index := e.index })

def perform (e : DragEnumFormatEtc) : Call → Objects.Outcome DragEnumFormatEtc Answer
  | .next celt => { self := (e.next celt).1, answer := (e.next celt).2 }
  | .skip celt => { self := (e.skip celt).1, answer := { result := (e.skip celt).2 } }
  | .reset => { self := e.reset, answer := { result := .sOk } }
  | .clone => { self := e, answer := { result := e.clone.1 }, new := e.clone.2 }

/-- A client and the enumerators it has pointers to, the first one and its clones. -/
abbrev Client := Objects.State DragEnumFormatEtc Call Answer

def start (formats : List FormatEtc) (h : formats.length < 2 ^ 31) : Client := { objects := [make formats h] }

/-! ### The cursor an enumerator stands for -/

/-- The answers of a cursor on the formats. -/
def cursorPerform (c : Cursor FormatEtc) : Call → Objects.Outcome (Cursor FormatEtc) Answer
  | .next celt =>
    { self := c.advance celt.toNat
      answer := {
        formats := c.upcoming celt.toNat
        fetched := UInt32.ofNat (c.upcoming celt.toNat).length
        result := if c.Available celt.toNat then .sOk else .sFalse } }
  | .skip celt =>
    { self := c.advance celt.toNat
      answer := { result := if c.Available celt.toNat then .sOk else .sFalse } }
  | .reset => { self := c.reset, answer := { result := .sOk } }
  | .clone => { self := c, answer := { result := .sOk }, new := some c }

/-- An index behind the end stands for the end. -/
structure At (e : DragEnumFormatEtc) (c : Cursor FormatEtc) : Prop where
  items : c.items = e.formats
  pos : c.pos = min e.index.toNat e.formats.length

/-- A skip behind the end does not come out at a format again, and one of nothing finds the index no
further than the end; there is something to clone. -/
def Fits (e : DragEnumFormatEtc) : Call → Prop
  | .skip celt =>
    (celt = 0 → e.index ≤ e.numFormats) ∧
      (e.formats.length < e.index.toNat + celt.toNat → e.numFormats < e.index + celt)
  | .clone => e.formats ≠ []
  | .next _ | .reset => True

instance (e : DragEnumFormatEtc) (call : Call) : Decidable (Fits e call) :=
  match call with
  | .skip celt => inferInstanceAs (Decidable ((celt = 0 → _) ∧ (_ → _)))
  | .clone => inferInstanceAs (Decidable (e.formats ≠ []))
  | .next _ | .reset => isTrue trivial

variable {e : DragEnumFormatEtc} {c : Cursor FormatEtc} {celt : UInt32}

@[simp] theorem toNat_numFormats (e : DragEnumFormatEtc) : e.numFormats.toNat = e.formats.length := by
  have := e.length_lt
  simp only [numFormats, UInt32.toNat_ofNat']
  omega

theorem index_lt_iff : e.index < e.numFormats ↔ e.index.toNat < e.formats.length := by
  rw [UInt32.lt_iff_toNat_lt, toNat_numFormats]

theorem index_le_iff : e.index ≤ e.numFormats ↔ e.index.toNat ≤ e.formats.length := by
  rw [UInt32.le_iff_toNat_le, toNat_numFormats]

theorem toNat_succ (h : e.index.toNat < e.formats.length) : (e.index + 1).toNat = e.index.toNat + 1 := by
  have := e.length_lt
  rw [UInt32.toNat_add, show (1 : UInt32).toNat = 1 from rfl]
  omega

/-- The loop delivers what a cursor does. -/
theorem At.copyFormats (h : At e c) (n : Nat) :
    At (e.copyFormats n).1 (c.advance n) ∧ (e.copyFormats n).2 = c.upcoming n := by
  induction n generalizing e c with
  | zero =>
    refine ⟨⟨h.items, ?_⟩, (List.take_zero ..).symm⟩
    rw [Cursor.pos_advance, Nat.add_zero, Nat.min_eq_left c.pos_le]
    exact h.pos
  | succ n ih =>
    obtain ⟨hitems, hpos⟩ := h
    unfold DragEnumFormatEtc.copyFormats
    by_cases hi : e.index.toNat < e.formats.length
    · have hc : c.pos = e.index.toNat := by omega
      have hnext : At { e with index := e.index + 1 } (c.advance 1) := by
        refine ⟨hitems, ?_⟩
        rw [Cursor.pos_advance, toNat_succ hi, hitems, hc]
      obtain ⟨hat, hout⟩ := ih hnext
      have hadvance : ((c.advance 1).advance n).pos = (c.advance (n + 1)).pos := by
        simp only [Cursor.pos_advance, Cursor.items_advance]
        omega
      simp only [if_pos (index_lt_iff.2 hi), List.getElem?_eq_getElem hi, deepCopyFormatEtc_eq]
      refine ⟨⟨hat.items, hadvance ▸ hat.pos⟩, ?_⟩
      rw [hout, Cursor.upcoming, Cursor.upcoming, Cursor.pos_advance, Cursor.items_advance, hitems, hc,
        Nat.min_eq_left hi, List.drop_eq_getElem_cons hi, List.take_succ_cons]
    · have hend : c.pos = c.items.length := by
        rw [hpos, hitems]
        omega
      simp only [if_neg (fun h => hi (index_lt_iff.1 h))]
      refine ⟨⟨hitems, ?_⟩, ?_⟩
      · rw [← hpos, Cursor.pos_advance]
        omega
      · rw [Cursor.upcoming, hend, List.drop_length, List.take_nil]

theorem At.next (h : At e c) (celt : UInt32) :
    At (e.next celt).1 (c.advance celt.toNat) ∧ (e.next celt).2 = (cursorPerform c (.next celt)).answer := by
  obtain ⟨hat, hout⟩ := h.copyFormats celt.toNat
  refine ⟨hat, ?_⟩
  have hlt : (c.upcoming celt.toNat).length < 2 ^ 32 := by
    have := celt.toNat_lt
    rw [Cursor.length_upcoming]
    omega
  have hall : UInt32.ofNat (c.upcoming celt.toNat).length = celt ↔ c.Available celt.toNat := by
    rw [← UInt32.toNat_inj, UInt32.toNat_ofNat_of_lt' hlt, Cursor.length_upcoming_eq_iff]
  simp only [DragEnumFormatEtc.next, cursorPerform, hout, hall]

/-- A skip is one of the cursor just when it fits. -/
theorem At.skip_iff (h : At e c) (celt : UInt32) :
    ((e.skip celt).2 = if c.Available celt.toNat then .sOk else .sFalse) ↔ Fits e (.skip celt) := by
  obtain ⟨hitems, hpos⟩ := h
  have hlen := e.length_lt
  have hindex := e.index.toNat_lt
  have hcelt := celt.toNat_lt
  have hzero : celt = 0 ↔ celt.toNat = 0 := by rw [← UInt32.toNat_inj, show (0 : UInt32).toNat = 0 from rfl]
  have hsame : ((e.skip celt).2 = if c.Available celt.toNat then HResult.sOk else .sFalse) ↔
      (e.index + celt ≤ e.numFormats ↔ c.Available celt.toNat) := by
    unfold DragEnumFormatEtc.skip
    dsimp only
    split <;> split <;> simp_all [numFormats]
  rw [hsame, Fits, index_le_iff, UInt32.le_iff_toNat_le, UInt32.lt_iff_toNat_lt, toNat_numFormats,
    Cursor.Available, hitems, hpos, hzero, UInt32.toNat_add]
  omega

theorem At.skip (h : At e c) {celt : UInt32} (hfits : Fits e (.skip celt)) :
    At (e.skip celt).1 (c.advance celt.toNat) := by
  obtain ⟨hitems, hpos⟩ := h
  refine ⟨hitems, ?_⟩
  have hlen := e.length_lt
  have hindex := e.index.toNat_lt
  have hcelt := celt.toNat_lt
  have hover := hfits.2
  rw [UInt32.lt_iff_toNat_lt, toNat_numFormats, UInt32.toNat_add] at hover
  rw [Cursor.pos_advance, hitems, hpos]
  show _ = min (e.index + celt).toNat e.formats.length
  rw [UInt32.toNat_add]
  omega

theorem clone_eq (hne : e.formats ≠ []) : e.clone = (.sOk, some e) := by
  unfold clone createEnumFormatEtc
  rw [if_neg hne]
  simp [make]

theorem related : Objects.Related perform cursorPerform Fits At where
  self e c call h hfits := by
    cases call with
    | next celt => exact (h.next celt).1
    | skip celt => exact h.skip hfits
    | reset => exact ⟨h.items, by simp [perform, cursorPerform, Cursor.reset, Cursor.start, reset]⟩
    | clone => exact h
  new e c call h hfits := by
    cases call with
    | clone =>
      simp only [perform, cursorPerform, clone_eq hfits, Option.toList_some]
      exact .cons h .nil
    | _ => exact .nil
  answer e c call h := by
    cases call with
    | next celt => exact iff_of_true (h.next celt).2 trivial
    | skip celt => simpa [perform, cursorPerform] using h.skip_iff celt
    | reset => exact iff_of_true rfl trivial
    | clone =>
      by_cases hne : e.formats = []
      · simp [perform, cursorPerform, Fits, hne, clone, createEnumFormatEtc]
      · simp [perform, cursorPerform, Fits, hne, clone_eq]
  more e c call := by
    cases call with
    | clone => cases h : e.clone.2 <;> simp [perform, cursorPerform, h]
    | _ => exact Nat.le_refl _

/-! ### What is delivered between two resets -/

/-- What the enumerator behind pointer `i` has delivered since it was reset last. -/
def sinceReset (i : Nat) (log : List (Nat × Call × Answer)) : List FormatEtc :=
  log.foldl (fun d entry =>
    if entry.1 = i then if entry.2.1 = .reset then [] else d ++ entry.2.2.formats else d) []

theorem sinceReset_append (i j : Nat) (log : List (Nat × Call × Answer)) (call : Call) (a : Answer) :
    sinceReset i (log ++ [(j, call, a)]) =
      if j = i then if call = .reset then [] else sinceReset i log ++ a.formats else sinceReset i log := by
  simp [sinceReset]

/-- Nothing has been delivered through a pointer nobody has called. -/
theorem sinceReset_eq_nil {i : Nat} {log : List (Nat × Call × Answer)} (h : ∀ entry ∈ log, entry.1 ≠ i) :
    sinceReset i log = [] := by
  induction log using List.reverseRecOn with
  | nil => rfl
  | append_singleton log entry ih =>
    have hne : entry.1 ≠ i := h entry (by simp)
    rw [show entry = (entry.1, entry.2.1, entry.2.2) from rfl, sinceReset_append, if_neg hne]
    exact ih fun e he => h e (by simp [he])

/-- The cursors stand on the same formats, behind all they have delivered. -/
structure Passed (formats : List FormatEtc) (t : Objects.State (Cursor FormatEtc) Call Answer) : Prop where
  cursor : ∀ i (c : Cursor FormatEtc), t.objects[i]? = some c → c.items = formats ∧ c.Passed (sinceReset i t.log)
  called : ∀ entry ∈ t.log, entry.1 < t.objects.length

theorem passed_start (formats : List FormatEtc) : Passed formats { objects := [Cursor.start formats] } where
  cursor i c h := by
    rcases i with _ | i <;> simp at h
    subst h
    exact ⟨rfl, .nil _⟩
  called entry h := by simp at h

theorem Passed.step {formats : List FormatEtc} {t t' : Objects.State (Cursor FormatEtc) Call Answer}
    {call : Nat × Call} (h : Passed formats t) (ht : Objects.step cursorPerform t call = some t') :
    Passed formats t' := by
  obtain ⟨c, hc, rfl⟩ := Objects.step_eq_some_iff.1 ht
  obtain ⟨hi, -⟩ := List.getElem?_eq_some_iff.1 hc
  obtain ⟨hitems, hpassed⟩ := h.cursor _ _ hc
  have hself : (cursorPerform c call.2).self.items = formats ∧ (cursorPerform c call.2).self.Passed
      (sinceReset call.1 (t.log ++ [(call.1, call.2, (cursorPerform c call.2).answer)])) := by
    rw [sinceReset_append, if_pos rfl]
    rcases call with ⟨i, celt | celt | _ | _⟩
    · exact ⟨hitems, hpassed.next celt.toNat⟩
    · simp only [cursorPerform, reduceCtorEq, if_false, List.append_nil]
      exact ⟨hitems, hpassed.skip celt.toNat⟩
    · exact ⟨hitems, .nil _⟩
    · simp only [cursorPerform, reduceCtorEq, if_false, List.append_nil]
      exact ⟨hitems, hpassed⟩
  constructor
  · intro i d hd
    by_cases hlt : i < t.objects.length
    · rw [List.getElem?_append_left (by rwa [List.length_set])] at hd
      by_cases hci : call.1 = i
      · subst hci
        rw [List.getElem?_set_self hi, Option.some.injEq] at hd
        rwa [← hd]
      · rw [List.getElem?_set_ne hci] at hd
        rw [sinceReset_append, if_neg hci]
        exact h.cursor i d hd
    · -- a clone, whose pointer is new
      rw [List.getElem?_append_right (by rw [List.length_set]; omega)] at hd
      have hnew : (cursorPerform c call.2).new = some d := by
        have hmem := List.mem_of_getElem? hd
        rwa [Option.mem_toList] at hmem
      have hclone : d.items = formats := by
        rcases call with ⟨i, celt | celt | _ | _⟩ <;> simp [cursorPerform] at hnew
        rwa [← hnew]
      refine ⟨hclone, ?_⟩
      rw [sinceReset_append, if_neg (by omega), sinceReset_eq_nil]
      · exact .nil d
      · intro entry he hcalled
        have := h.called entry he
        omega
  · intro entry he
    simp only [List.mem_append, List.mem_singleton] at he
    simp only [List.length_append, List.length_set]
    rcases he with he | rfl
    · have := h.called entry he
      omega
    · dsimp only
      omega

/-- Whatever is called through an enumerator and its clones, the answers are those of cursors just when
every call fits; no format is delivered twice then without a reset. -/
theorem enum_cursor_iff (formats : List FormatEtc) (h : formats.length < 2 ^ 31) (calls : List (Nat × Call))
    (s : Client) (hs : Lts.exec (Objects.step perform) (start formats h) calls = some s) :
    ∃ t, Lts.exec (Objects.step cursorPerform) { objects := [Cursor.start formats] } calls = some t ∧
      (s.log = t.log ↔
        Lts.Meets (Objects.step perform) (Objects.Fits Fits) (start formats h) calls) ∧
      (s.log = t.log → List.Forall₂ At s.objects t.objects ∧
        ∀ i, i < s.objects.length → (sinceReset i s.log).Sublist formats) := by
  have hstart : List.Forall₂ At (start formats h).objects [Cursor.start formats] := by
    refine .cons ⟨?_, ?_⟩ .nil <;> simp [make, Cursor.start]
  obtain ⟨t, ht⟩ := related.exec (t := { objects := [Cursor.start formats] }) (Nat.le_refl _) hs
  obtain ⟨hiff, hobjects⟩ := related.log_eq_iff hstart rfl hs ht
  have hpassed : Passed formats t :=
    (Lts.run_of_exec ht).inv (fun _ _ _ hp _ hstep => hp.step hstep) (passed_start formats)
  refine ⟨t, ht, hiff, fun hlog => ⟨hobjects hlog, fun i hi => ?_⟩⟩
  rw [(hobjects hlog).length_eq] at hi
  obtain ⟨hitems, hdelivered⟩ := hpassed.cursor i _ (List.getElem?_eq_getElem hi)
  rw [hlog, ← hitems]
  exact hdelivered.sublist

/-- Two formats, the second of them skipped, and a clone that goes on from there. -/
def cloned : List (Nat × Call) :=
  [(0, .next 1), (0, .clone), (1, .next 5), (0, .skip 1), (0, .next 1), (0, .reset), (0, .next 2)]

theorem enum_cursor_iff_clone : ∃ s : Client,
    Lts.exec (Objects.step perform) (start [{ cfFormat := 1 }, { cfFormat := 13 }] (by decide)) cloned = some s ∧
    (∀ i, i < s.objects.length → (sinceReset i s.log).Sublist [{ cfFormat := 1 }, { cfFormat := 13 }]) := by
  have hsome : (Lts.exec (Objects.step perform) (start [{ cfFormat := 1 }, { cfFormat := 13 }] (by decide))
      cloned).isSome = true := by decide +kernel
  obtain ⟨s, hs⟩ := Option.isSome_iff_exists.1 hsome
  obtain ⟨t, ht, -, hthen⟩ := enum_cursor_iff _ _ _ s hs
  have hlog : (Lts.exec (Objects.step perform) (start [{ cfFormat := 1 }, { cfFormat := 13 }] (by decide))
        cloned).map Objects.State.log =
      (Lts.exec (Objects.step cursorPerform) { objects := [Cursor.start [{ cfFormat := 1 }, { cfFormat := 13 }]] }
        cloned).map Objects.State.log := by decide +kernel
  rw [hs, ht] at hlog
  exact ⟨s, hs, (hthen (Option.some.inj hlog)).2⟩

/-- A skip that wraps around leads back to the first format. -/
theorem not_enum_cursor_wrap :
    ¬ ∀ (formats : List FormatEtc) (h : formats.length < 2 ^ 31) (calls : List (Nat × Call)) (s : Client),
      Lts.exec (Objects.step perform) (start formats h) calls = some s →
        ∃ t, Lts.exec (Objects.step cursorPerform) { objects := [Cursor.start formats] } calls = some t ∧
          s.log = t.log := by
  intro hall
  have hsome : (Lts.exec (Objects.step perform) (start [{ cfFormat := 1 }] (by decide))
      [(0, .next 1), (0, .skip 0xffffffff), (0, .next 1)]).isSome = true := by decide +kernel
  obtain ⟨s, hs⟩ := Option.isSome_iff_exists.1 hsome
  obtain ⟨t, ht, hlog⟩ := hall _ _ _ s hs
  have hdiffer : (Lts.exec (Objects.step perform) (start [{ cfFormat := 1 }] (by decide))
        [(0, .next 1), (0, .skip 0xffffffff), (0, .next 1)]).map Objects.State.log ≠
      (Lts.exec (Objects.step cursorPerform) { objects := [Cursor.start [{ cfFormat := 1 }]] }
        [(0, .next 1), (0, .skip 0xffffffff), (0, .next 1)]).map Objects.State.log := by decide +kernel
  rw [hs, ht] at hdiffer
  exact hdiffer (congrArg some hlog)

end DragEnumFormatEtc
end NplBrowser
