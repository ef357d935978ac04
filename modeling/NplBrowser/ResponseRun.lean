import NplBrowser.Lib.Queue
import NplBrowser.ResponseFilter

/-!
# When the filter replaces every occurrence

Whatever the chunks and the buffers are, the output and the overflow together are what the matcher
gives out for the input. So the output of a response is right if and only if nothing is left of the
input at its end, no occurrence is missed, and the overflow is empty after the last chunk: with no
match under way the filter says that it is done, and is not called again.
-/

namespace NplBrowser

open Replace FindReplaceResponseFilter

/-- Every leftmost non-overlapping occurrence replaced. -/
def replaceAll (s : Bytes) : Bytes := replaceFrom kFindString replaceStr 0 s

/-- The caller of `Filter`, with the output of all calls so far. -/
structure Response where
  filter : FindReplaceResponseFilter := {}
  calls : Nat := 0
  out : Bytes := []
  /-- The last call filled its output buffer and returned `RESPONSE_FILTER_NEED_MORE_DATA`. -/
  pending : Bool := false

namespace Response

variable {size : Nat → Nat} {d : Response} {s x : Bytes} {chunks : List Bytes}

def call (size : Nat → Nat) (d : Response) (dataIn : Bytes) : Response :=
  let r := d.filter.filter dataIn (size d.calls)
  { filter := r.filter
    calls := d.calls + 1
    out := d.out ++ r.dataOut
    pending := r.status == .needMoreData && r.dataOut.length == size d.calls && !r.dataOut.isEmpty }

theorem out_call (size : Nat → Nat) (d : Response) (x : Bytes) :
    (d.call size x).out = d.out ++ (d.filter.due x).take (size d.calls) :=
  congrArg (d.out ++ ·) (d.filter.filter_spec x (size d.calls)).1

theorem overflow_call (size : Nat → Nat) (d : Response) (x : Bytes) :
    (d.call size x).filter.overflow = (d.filter.due x).drop (size d.calls) :=
  (d.filter.filter_spec x (size d.calls)).2.1

theorem state_call (size : Nat → Nat) (d : Response) (x : Bytes) :
    (d.call size x).filter.state = (scan kFindString replaceStr d.filter.state x).1 :=
  (d.filter.filter_spec x (size d.calls)).2.2

theorem pending_call (size : Nat → Nat) (d : Response) (x : Bytes) :
    (d.call size x).pending = true ↔ 0 < (d.call size x).filter.findMatchOffset ∧
      ((d.filter.due x).take (size d.calls)).length = size d.calls ∧ (d.filter.due x).take (size d.calls) ≠ [] := by
  rw [← (d.filter.filter_spec x (size d.calls)).1]
  show (_ && _ && _) = true ↔ _
  rw [Bool.and_eq_true, Bool.and_eq_true, beq_iff_eq, beq_iff_eq, Bool.not_eq_true', List.isEmpty_eq_false_iff,
    and_assoc]
  exact and_congr_left fun _ => status_filter d.filter x (size d.calls)

theorem due_nil (f : FindReplaceResponseFilter) : f.due [] = f.overflow := List.append_nil _

/-- The calls without input. -/
def drain (size : Nat → Nat) (d : Response) : Response :=
  if d.pending then drain size (d.call size []) else d
termination_by if d.pending then d.filter.overflow.length + 1 else 0
decreasing_by
  rename_i hd
  rw [if_pos hd]
  split
  · rename_i hp
    obtain ⟨-, hlen, hne⟩ := (pending_call size d []).1 hp
    have hpos := List.length_pos_iff.2 hne
    rw [overflow_call, due_nil, List.length_drop]
    rw [due_nil, List.length_take] at hlen hpos
    omega
  · omega

/-- The whole output: a call for each of the `chunks` and those that are pending then. -/
def filtered (size : Nat → Nat) (chunks : List Bytes) : Bytes :=
  ((chunks.foldl (call size) {}).drain size).out

/-! ### What has been put out -/

/-- What the matcher gives out for the input `s`. -/
def emitted (s : Bytes) : Bytes := (scan kFindString replaceStr (0, 0) s).2

/-- `s` has been read. -/
structure Inv (d : Response) (s : Bytes) : Prop where
  state : d.filter.state = (scan kFindString replaceStr (0, 0) s).1
  out : d.out ++ d.filter.overflow = emitted s
  pending : d.pending = true → 0 < d.filter.findMatchOffset
  rest : d.pending = false → d.filter.findMatchOffset = 0 ∨ d.filter.overflow = []

theorem inv_start : Inv {} [] := ⟨rfl, rfl, fun h => (by cases h), fun _ => .inl rfl⟩

theorem Inv.emitted_append (h : Inv d s) (x : Bytes) :
    emitted (s ++ x) = emitted s ++ (scan kFindString replaceStr d.filter.state x).2 := by
  unfold emitted
  rw [scan_append, h.state]

theorem Inv.call (h : Inv d s) (hpos : 0 < size d.calls) (x : Bytes) : Inv (d.call size x) (s ++ x) := by
  refine ⟨?_, ?_, fun hp => ((pending_call size d x).1 hp).1, fun hp => ?_⟩
  · rw [state_call, scan_append, h.state]
  · rw [out_call, overflow_call, List.append_assoc, List.take_append_drop, h.emitted_append x, ← h.out,
      List.append_assoc]
    rfl
  · rw [overflow_call]
    by_cases h0 : (d.call size x).filter.findMatchOffset = 0
    · exact .inl h0
    · refine .inr (List.drop_eq_nil_iff.2 ?_)
      -- a buffer that has been filled would leave the call pending
      by_contra hlen
      have htake : ((d.filter.due x).take (size d.calls)).length = size d.calls :=
        List.length_take_of_le (by omega)
      have hp' := (pending_call size d x).2
        ⟨Nat.pos_of_ne_zero h0, htake, List.ne_nil_of_length_pos (by rw [htake]; exact hpos)⟩
      cases hp.symm.trans hp'

theorem Inv.feed (h : Inv d s) (hpos : ∀ i, 0 < size i) (chunks : List Bytes) :
    Inv (chunks.foldl (Response.call size) d) (s ++ chunks.flatten) := by
  induction chunks generalizing d s with
  | nil => rwa [List.flatten_nil, List.append_nil]
  | cons x chunks ih =>
    rw [List.flatten_cons, ← List.append_assoc]
    exact ih (h.call (hpos _) x)

theorem Inv.drain (h : Inv d s) (hpos : ∀ i, 0 < size i) :
    Inv (d.drain size) s ∧ (d.drain size).pending = false := by
  induction d using drain.induct size with
  | case1 d hd ih =>
    rw [Response.drain, if_pos hd]
    have hcall := h.call (hpos _) []
    rw [List.append_nil] at hcall
    exact ih hcall
  | case2 d hd =>
    rw [Response.drain, if_neg hd]
    exact ⟨h, Bool.eq_false_iff.2 hd⟩

theorem kFindString_ne_nil : kFindString ≠ [] := by decide

/-- With a match under way at the end of the input everything written comes out, but for the match. -/
theorem filtered_of_not_whole (hpos : ∀ i, 0 < size i) (h : ¬ Whole kFindString chunks.flatten) :
    filtered size chunks = emitted chunks.flatten := by
  obtain ⟨hinv, hp⟩ := (inv_start.feed hpos chunks).drain hpos
  rw [List.nil_append] at hinv
  rcases hinv.rest hp with h0 | hnil
  · refine absurd ((whole_iff kFindString_ne_nil replaceStr 0).2 ?_) h
    rw [← hinv.state]
    exact h0
  · rw [← hinv.out, hnil, List.append_nil]
    rfl

/-- Otherwise there is no call after the last chunk. -/
theorem filtered_of_whole (hpos : ∀ i, 0 < size i) (h : Whole kFindString chunks.flatten) :
    filtered size chunks ++ (chunks.foldl (Response.call size) {}).filter.overflow = emitted chunks.flatten := by
  have hinv := inv_start.feed hpos chunks
  rw [List.nil_append] at hinv
  have h0 : (chunks.foldl (Response.call size) {}).filter.findMatchOffset = 0 := by
    have h0 := h.scan kFindString_ne_nil replaceStr 0
    rwa [← hinv.state] at h0
  have hp : ¬ (chunks.foldl (Response.call size) {}).pending = true := fun hp =>
    (hinv.pending hp).ne' h0
  unfold filtered
  rw [Response.drain, if_neg hp]
  exact hinv.out

/-! ### The overflow -/

theorem length_emitted_le {t : Bytes} (h : s <+: t) : (emitted s).length ≤ (emitted t).length :=
  (scan_mono replaceStr (0, 0) h).length_le

/-- A buffer takes what it can of the overflow and of what is due for `x`. -/
theorem Inv.length_overflow_call (h : Inv d s) (size : Nat → Nat) (x : Bytes) :
    (d.call size x).filter.overflow.length =
      d.filter.overflow.length + ((emitted (s ++ x)).length - (emitted s).length) - size d.calls := by
  rw [overflow_call, List.length_drop, h.emitted_append x, List.length_append, Nat.add_sub_cancel_left]
  unfold due
  rw [List.length_append]

theorem calls_feed (size : Nat → Nat) (d : Response) (chunks : List Bytes) :
    (chunks.foldl (Response.call size) d).calls = d.calls + chunks.length := by
  induction chunks generalizing d with
  | nil => rfl
  | cons x chunks ih =>
    rw [List.foldl_cons, ih, List.length_cons, Nat.add_comm chunks.length 1, ← Nat.add_assoc]
    rfl

/-- The overflow is empty in the end if at each call what is still to be put out fits into the
buffers of this call and of those after it. -/
theorem overflow_eq_nil_iff (hpos : ∀ i, 0 < size i) (chunks : List Bytes) :
    (chunks.foldl (Response.call size) {}).filter.overflow = [] ↔
      ∀ i ≤ chunks.length, (emitted chunks.flatten).length ≤
        (emitted (chunks.take i).flatten).length + ∑ j ∈ Finset.Ico i chunks.length, size j := by
  have htake : ∀ i < chunks.length, ∃ x, chunks.take (i + 1) = chunks.take i ++ [x] := fun i hi =>
    ⟨_, (List.take_concat_get' chunks i hi).symm⟩
  have hb := Backlog.eq_zero_iff (n := chunks.length)
    (fun i => ((chunks.take i).foldl (Response.call size) {}).filter.overflow.length)
    (fun i => (emitted (chunks.take i).flatten).length) size rfl ?_ ?_
  · rw [List.take_length] at hb
    rw [← List.length_eq_zero_iff, hb]
  · intro i hi
    obtain ⟨x, hx⟩ := htake i hi
    rw [hx, List.flatten_append]
    exact length_emitted_le (List.prefix_append _ _)
  · intro i hi
    obtain ⟨x, hx⟩ := htake i hi
    have hinv := inv_start.feed hpos (chunks.take i)
    have hlen := hinv.length_overflow_call size x
    have hcalls := calls_feed size {} (chunks.take i)
    rw [List.nil_append] at hlen
    rw [List.length_take, Nat.min_eq_left hi.le, Nat.zero_add] at hcalls
    rw [hcalls] at hlen
    rw [hx, List.foldl_append, List.flatten_append, List.flatten_singleton]
    exact hlen

/-! ### The whole response -/

/-- What the filter needs in order to replace every occurrence. -/
structure Replaceable (size : Nat → Nat) (chunks : List Bytes) : Prop where
  /-- The input is cut into pieces, each of them the find string or a proper prefix of it and a
  character that does not continue it, and nothing is left over; -/
  whole : Whole kFindString chunks.flatten
  /-- at each occurrence of the find string a piece starts; -/
  aligned : Aligned kFindString chunks.flatten
  /-- and before each call, what will have been put out, less what is due for the pieces that have
  been read, fits into the buffers of this call and of those for the chunks after it. -/
  fits : ∀ i ≤ chunks.length, ∃ w, Whole kFindString w ∧ w <+: (chunks.take i).flatten ∧
    (replaceAll chunks.flatten).length ≤ (replaceAll w).length + ∑ j ∈ Finset.Ico i chunks.length, size j

theorem borderless_kFindString : Borderless kFindString := by decide

theorem length_lt_replaceStr (n : Nat) : kFindString.length < (replaceStr n).length := by
  have hfind : kFindString.length = 19 := by decide
  have hreplace : kReplaceString.length = 28 := by decide
  unfold replaceStr
  rw [List.length_append, hfind, hreplace]
  omega

theorem emitted_eq_replaceAll (hw : Whole kFindString s) (ha : Aligned kFindString s) :
    emitted s = replaceAll s := scan_eq_replaceFrom kFindString_ne_nil replaceStr 0 hw ha

/-- What is due for the pieces of a text that is aligned. -/
theorem exists_due (ha : Aligned kFindString s) :
    ∃ w, Whole kFindString w ∧ w <+: s ∧ emitted s = replaceAll w := by
  obtain ⟨w, hw, k, hk, rfl⟩ := exists_whole kFindString_ne_nil s
  have hpre := List.prefix_append w (kFindString.take k)
  refine ⟨w, hw, hpre, ?_⟩
  rw [← emitted_eq_replaceAll hw (ha.mono hpre)]
  exact (scan_whole_take hw kFindString_ne_nil replaceStr 0 hk).2

theorem filtered_le (hpos : ∀ i, 0 < size i) (chunks : List Bytes) :
    filtered size chunks <+: emitted chunks.flatten := by
  by_cases hw : Whole kFindString chunks.flatten
  · exact ⟨_, filtered_of_whole hpos hw⟩
  · rw [filtered_of_not_whole hpos hw]

theorem take_flatten_le (chunks : List Bytes) (i : Nat) : (chunks.take i).flatten <+: chunks.flatten :=
  ⟨(chunks.drop i).flatten, by rw [← List.flatten_append, List.take_append_drop]⟩

theorem filtered_eq_iff (hpos : ∀ i, 0 < size i) (chunks : List Bytes) :
    filtered size chunks = replaceAll chunks.flatten ↔ Replaceable size chunks := by
  constructor
  · intro heq
    have hlen := (filtered_le hpos chunks).length_le
    rw [heq] at hlen
    obtain ⟨hw, ha⟩ := whole_of_length_le kFindString_ne_nil borderless_kFindString length_lt_replaceStr hlen
    have hall := emitted_eq_replaceAll hw ha
    have hnil : (chunks.foldl (Response.call size) {}).filter.overflow = [] := by
      have hout := filtered_of_whole hpos hw
      rw [heq, hall] at hout
      exact List.append_right_eq_self.1 hout
    refine ⟨hw, ha, fun i hi => ?_⟩
    obtain ⟨w, hww, hws, hdue⟩ := exists_due (ha.mono (take_flatten_le chunks i))
    have hfit := (overflow_eq_nil_iff hpos chunks).1 hnil i hi
    rw [hall, hdue] at hfit
    exact ⟨w, hww, hws, hfit⟩
  · rintro ⟨hw, ha, hfit⟩
    have hall := emitted_eq_replaceAll hw ha
    have hnil : (chunks.foldl (Response.call size) {}).filter.overflow = [] := by
      refine (overflow_eq_nil_iff hpos chunks).2 fun i hi => ?_
      obtain ⟨w, hww, hws, hle⟩ := hfit i hi
      have hw' := ha.mono (hws.trans (take_flatten_le chunks i))
      have hmono := length_emitted_le hws
      rw [← emitted_eq_replaceAll hww hw'] at hle
      rw [hall]
      omega
    have hout := filtered_of_whole hpos hw
    rw [hnil, List.append_nil] at hout
    rw [hout, hall]

theorem replaceAll_kFindString : replaceAll kFindString = replaceStr 1 := by
  have h := replaceFrom_found kFindString_ne_nil replaceStr 0 []
  rwa [List.append_nil, replaceFrom, List.append_nil] at h

/-- An occurrence cut in two, with the buffers of `--enable-filter-testing`. -/
theorem filtered_eq_iff_cut :
    filtered (fun _ => 32) [kFindString.take 5, kFindString.drop 5] = replaceStr 1 := by
  have hflat : [kFindString.take 5, kFindString.drop 5].flatten = kFindString := by decide
  have hlen : (replaceStr 1).length = 31 := by decide
  have hr : Replaceable (fun _ => 32) [kFindString.take 5, kFindString.drop 5] := by
    refine ⟨?_, ?_, fun i hi => ?_⟩
    · rw [hflat]
      exact .self _
    · rw [hflat]
      exact .self _
    · have hi : i ≤ 2 := hi
      rw [hflat, replaceAll_kFindString, hlen]
      obtain rfl | rfl | rfl : i = 0 ∨ i = 1 ∨ i = 2 := by omega
      · exact ⟨[], .nil, List.nil_prefix, by decide⟩
      · exact ⟨[], .nil, List.nil_prefix, by decide⟩
      · refine ⟨kFindString, .self _, by decide, ?_⟩
        rw [replaceAll_kFindString, hlen]
        exact Nat.le_add_right _ _
  have h := (filtered_eq_iff (fun _ => by decide) _).2 hr
  rwa [hflat, replaceAll_kFindString] at h

/-- The replacement does not fit, and the filter says that it is done. -/
theorem overflow_lost : ¬ ∀ (size : Nat → Nat) (chunks : List Bytes), (∀ i, 0 < size i) →
    (∀ c ∈ chunks, c ≠ []) → filtered size chunks = replaceAll chunks.flatten := by
  intro h
  have heq := h (fun _ => 19) [kFindString] (fun _ => by decide) (by decide)
  have hlen : (filtered (fun _ => 19) [kFindString]).length = 19 := by
    unfold filtered
    rw [drain, if_neg (by decide)]
    decide
  rw [heq, List.flatten_singleton, replaceAll_kFindString] at hlen
  have hlt := length_lt_replaceStr 1
  have hfind : kFindString.length = 19 := by decide
  omega

end Response

end NplBrowser
