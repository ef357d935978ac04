import NplBrowser.ResponseFilter

/-!
# A filter that passes its input through (`response_filter_test.cc`, `cef_response_filter.h`)

`Caller` is what the header prescribes for any filter: a chunk is offered until all of it has been
read, then the next one, and there are calls without input for as long as the filter fills its
buffer and has output pending. `PassThruResponseFilter` reads the whole chunk whatever the size of
the buffer, so what does not fit into the buffer is lost.
-/

namespace NplBrowser

/-- What a call of `Filter` leaves: the filter, and what it has set. -/
structure FilterCall (σ : Type*) where
  filter : σ
  dataInRead : Nat
  dataOut : Bytes
  status : FilterStatus

/-- `CefResponseFilter::Filter`, by the state of the filter, `data_in` and `data_out_size`. -/
abbrev CefResponseFilter (σ : Type*) := σ → Bytes → Nat → FilterCall σ

/-- The caller of a filter, with the chunks that have not been read; of the first one that is what is
left of it. -/
structure Caller (σ : Type*) where
  filter : σ
  chunks : List Bytes
  calls : Nat := 0
  out : Bytes := []
  /-- The last call filled its output buffer and returned `RESPONSE_FILTER_NEED_MORE_DATA`. -/
  pending : Bool := false

namespace Caller

variable {σ : Type*}

/-- One call: what has not been read is offered again. -/
def call (f : CefResponseFilter σ) (size : Nat → Nat) (d : Caller σ) (dataIn : Bytes) (rest : List Bytes) :
    Caller σ :=
  let r := f d.filter dataIn (size d.calls)
  let unread := dataIn.drop r.dataInRead
  { filter := r.filter
    -- the calls stop at an error
    chunks := if r.status = .error then [] else if unread = [] then rest else unread :: rest
    calls := d.calls + 1
    out := d.out ++ r.dataOut
    pending := r.status == .needMoreData && r.dataOut.length == size d.calls && !r.dataOut.isEmpty }

/-- The output once the calls have stopped; `none`: they have not, after `n` of them. -/
def run (f : CefResponseFilter σ) (size : Nat → Nat) : Nat → Caller σ → Option Bytes
  | n, d =>
    match d.chunks, d.pending, n with
    | [], false, _ => some d.out
    | _, _, 0 => none
    | [], true, n + 1 => run f size n (d.call f size [] [])
    | dataIn :: rest, _, n + 1 => run f size n (d.call f size dataIn rest)

end Caller

namespace PassThruResponseFilter

/-- `PassThruResponseFilter::Filter`, which has no state. -/
def filter : CefResponseFilter Unit := fun _ dataIn dataOutSize =>
  let dataInRead := dataIn.length
  let dataOutWritten := min dataInRead dataOutSize
  { filter := (), dataInRead, dataOut := dataIn.take dataOutWritten, status := .done }

variable {size : Nat → Nat} {chunks : List Bytes} {k n : Nat}

/-- What is put out for the chunks, the first of which is offered in the call `k`. -/
def passed (size : Nat → Nat) (k : Nat) : List Bytes → Bytes
  | [] => []
  | dataIn :: chunks => dataIn.take (size k) ++ passed size (k + 1) chunks

/-- Every chunk is read in one call, and no call is pending after it. -/
theorem call_eq (size : Nat → Nat) (d : Caller Unit) (dataIn : Bytes) (rest : List Bytes) :
    d.call filter size dataIn rest =
      { filter := (), chunks := rest, calls := d.calls + 1, out := d.out ++ dataIn.take (size d.calls) } := by
  have htake : dataIn.take (min dataIn.length (size d.calls)) = dataIn.take (size d.calls) := by
    rcases Nat.le_total dataIn.length (size d.calls) with h | h
    · rw [Nat.min_eq_left h, List.take_length, List.take_of_length_le h]
    · rw [Nat.min_eq_right h]
  simp [Caller.call, filter, htake]

theorem run_eq (h : chunks.length ≤ n) (k : Nat) (out : Bytes) :
    Caller.run filter size n { filter := (), chunks, calls := k, out } = some (out ++ passed size k chunks) := by
  induction chunks generalizing n k out with
  | nil => cases n <;> simp [Caller.run, passed]
  | cons dataIn chunks ih =>
    cases n with
    | zero => simp at h
    | succ n =>
      show Caller.run filter size n (Caller.call filter size _ dataIn chunks) = _
      rw [call_eq, ih (Nat.le_of_succ_le_succ h), passed, List.append_assoc]

theorem length_passed_le (size : Nat → Nat) (k : Nat) (chunks : List Bytes) :
    (passed size k chunks).length ≤ chunks.flatten.length := by
  induction chunks generalizing k with
  | nil => exact Nat.le_refl _
  | cons dataIn chunks ih =>
    have := ih (k + 1)
    simp only [passed, List.flatten_cons, List.length_append, List.length_take]
    omega

/-- Nothing is lost just when every chunk fits. -/
theorem passed_eq_flatten_iff (size : Nat → Nat) (k : Nat) (chunks : List Bytes) :
    passed size k chunks = chunks.flatten ↔
      ∀ i (h : i < chunks.length), chunks[i].length ≤ size (k + i) := by
  induction chunks generalizing k with
  | nil => simp [passed]
  | cons dataIn chunks ih =>
    have hsucc : (∀ i (h : i < (dataIn :: chunks).length), ((dataIn :: chunks)[i]).length ≤ size (k + i)) ↔
        dataIn.length ≤ size k ∧ ∀ i (h : i < chunks.length), chunks[i].length ≤ size (k + 1 + i) := by
      constructor
      · intro h
        refine ⟨h 0 (Nat.succ_pos _), fun i hi => ?_⟩
        rw [Nat.add_assoc, Nat.add_comm 1]
        exact h (i + 1) (Nat.succ_lt_succ hi)
      · rintro ⟨h₀, h⟩ (_ | i) hi
        · exact h₀
        · have hi := h i (Nat.lt_of_succ_lt_succ hi)
          rwa [Nat.add_assoc, Nat.add_comm 1] at hi
    rw [hsucc, ← ih]
    simp only [passed, List.flatten_cons]
    rcases Nat.le_total dataIn.length (size k) with hle | hle
    · rw [List.take_of_length_le hle, List.append_cancel_left_eq]
      simp [hle]
    · constructor
      · intro heq
        have hrest := length_passed_le size (k + 1) chunks
        have hlen := congrArg List.length heq
        simp only [List.length_append, List.length_take] at hlen
        have hfit : dataIn.length = size k := by omega
        rw [← hfit, List.take_length, List.append_cancel_left_eq] at heq
        exact ⟨Nat.le_of_eq hfit, heq⟩
      · rintro ⟨hfit, heq⟩
        rw [List.take_of_length_le hfit, heq]

/-- The calls stop, and the output is the input just when every chunk fits into the buffer of its call. -/
theorem passThru_identity_iff (chunks : List Bytes) (size : Nat → Nat) :
    ∃ out, (∀ n, chunks.length ≤ n → Caller.run filter size n { filter := (), chunks } = some out) ∧
      (out = chunks.flatten ↔ ∀ i (h : i < chunks.length), chunks[i].length ≤ size i) := by
  refine ⟨passed size 0 chunks, fun n hn => ?_, ?_⟩
  · rw [run_eq hn, List.nil_append]
  · rw [passed_eq_flatten_iff]
    simp only [Nat.zero_add]

/-- A chunk of three bytes for a buffer of two. -/
theorem not_passThru_identity_long :
    ¬ ∀ (chunks : List Bytes), (∀ c ∈ chunks, c ≠ []) → ∀ size : Nat → Nat, (∀ i, 0 < size i) →
      ∃ n, Caller.run filter size n { filter := (), chunks } = some chunks.flatten := by
  intro h
  obtain ⟨n, hn⟩ := h [lit "abc"] (by decide) (fun _ => 2) (fun _ => by decide)
  rcases n with _ | n
  · cases hn
  · rw [run_eq (Nat.succ_le_succ (Nat.zero_le n))] at hn
    exact absurd (Option.some.inj hn) (by decide)

end PassThruResponseFilter
end NplBrowser
