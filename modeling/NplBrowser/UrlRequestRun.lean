import NplBrowser.UrlRequestInv

/-!
# Every query is answered once

A query is answered once, with what its own request has downloaded, but for two kinds of run
(`queries_answered_once`, `queries_counterexample`): `substr` throws at a query that is just the name of
the message, before the query that waits is answered; and a download that is not UTF-8 does not survive
its conversion to a `CefString`.
-/

namespace NplBrowser

namespace UrlRequest

/-! ### What the process does of it -/

/-- What a request that has completed with a code and downloaded the data is to be answered with. -/
def Delivers (code : Int) (data : Bytes) (r : Reply) : Prop :=
  if code = errNone then ∃ units, r = .success (.utf16 units) ∧ Utf8.SameText data units
  else r = .failure code (getErrorString code)

/-- Every accepted query but the one that still waits has been answered exactly once, in the order of the
queries, and none waits once the handler is destroyed or the process is gone; a reply is that of the
query's own request, with what that had downloaded, or of a cancellation. -/
structure Answered (as : List Event) (p : Process) : Prop where
  answered : p.handler.replies.map Prod.fst ++ p.handler.callback.toList = List.range (as.countP Event.accepted)
  ended : p.handler.alive = false ∨ p.terminated = true → p.handler.callback = none
  completed : ∀ q code, .onRequestComplete q code ∈ as → q ∈ p.handler.replies.map Prod.fst
  delivered : ∀ q r, (q, r) ∈ p.handler.replies →
    (∃ as₁ as₂ code, as = as₁ ++ .onRequestComplete q code :: as₂ ∧ Delivers code (downloaded q as₁) r) ∨
    r = .aborted ∧ (q + 1 < p.handler.queries ∨ p.handler.alive = false)
  /-- A completion adds nothing but the reply to its own query. -/
  own : ∀ q code p', p.step (.onRequestComplete q code) = some p' →
    p'.handler.replies = p.handler.replies ∨ ∃ r, p'.handler.replies = p.handler.replies ++ [(q, r)]
  nullDeref : p.handler.nullDeref = false
  ranDestroyed : p.handler.ranDestroyed = false

/-- No query is just the name of the message while another one waits, and what a request that succeeds has
downloaded is UTF-8. -/
def Ready (p : Process) : Event → Prop
  | .onQuery isTestUrl request _ => p.handler.alive = true → isTestUrl = true → request = kTestMessageName →
    p.handler.callback = none
  | .onRequestComplete q code => code = errNone → (p.handler.client q).callback = true →
    Utf8.WellFormed (p.handler.client q).downloadData
  | _ => True

section process
variable {as : List Event} {p p' : Process} {h h' : Handler} {e : Event} {q : Nat}

theorem Handler.throws_cases (ht : h.throws e = true) : ∃ created, e = .onQuery true kTestMessageName created ∧
    h.alive = true := by
  unfold Handler.throws at ht
  rcases e with ⟨isTestUrl, request, created⟩ | _ | _ | _
  · rw [Bool.and_eq_true] at ht
    obtain ⟨ha, hnone⟩ := ht
    unfold Handler.onQuery at hnone
    split_ifs at hnone with htest hpre hlength
    · cases hnone
    · -- behind the name there is nothing that `substr` could begin with
      obtain ⟨rest, rfl⟩ := List.isPrefixOf_iff_prefix.1 hpre
      rw [List.length_append] at hlength
      obtain rfl : rest = [] := List.length_eq_zero_iff.1 (by omega)
      refine ⟨created, ?_, ha⟩
      rw [List.append_nil, show isTestUrl = true by simpa using htest]
    · cases hnone
    · cases hnone
  all_goals cases ht

/-- A step is that of the handler, or the last one. -/
theorem Process.step_cases (hs : p.step e = some p') : p.terminated = false ∧
    ((∃ created, e = .onQuery true kTestMessageName created ∧ p.handler.alive = true ∧
        p' = { p with terminated := true }) ∨
      ∃ h', UrlRequest.step p.handler e = some h' ∧ p' = { p with handler := h' }) := by
  unfold Process.step at hs
  split_ifs at hs with hend hthrows
  · obtain ⟨created, he, ha⟩ := Handler.throws_cases hthrows
    cases hs
    exact ⟨by simpa using hend, .inl ⟨created, he, ha, rfl⟩⟩
  · obtain ⟨h', hstep, rfl⟩ := Option.map_eq_some_iff.1 hs
    exact ⟨by simpa using hend, .inr ⟨h', hstep, rfl⟩⟩

theorem CefString.eq_utf16_of_wellFormed {s : Bytes} (hs : Utf8.WellFormed s) :
    ∃ units, CefString.ofBytes s = .utf16 units := by
  obtain ⟨units, hunits⟩ := Option.isSome_iff_exists.1 (Utf8.isSome_toUtf16 hs)
  exact ⟨units, by rw [CefString.ofBytes, hunits]⟩

theorem CefString.sameText {s : Bytes} {units : List UInt16} (hs : CefString.ofBytes s = .utf16 units) :
    Utf8.SameText s units := by
  unfold CefString.ofBytes at hs
  split at hs
  · cases hs
    exact Utf8.sameText_of_toUtf16 ‹_›
  · cases hs

/-- The replies of a cancellation are no successes. -/
theorem success_of_cancelled {u : CefString}
    (hu : (q, Reply.success u) ∈ h.replies ++ h.callback.toList.map fun q => (q, Reply.aborted)) :
    (q, Reply.success u) ∈ h.replies := by
  rcases List.mem_append.1 hu with hu | hu
  · exact hu
  · obtain ⟨_, _, heq⟩ := List.mem_map.1 hu
    cases heq

/-- Only a completion is answered with a success. -/
theorem Inv.success_of_step (hi : Inv as h) (hs : UrlRequest.step h e = some h') {u : CefString}
    (hu : (q, Reply.success u) ∈ h'.replies) : (q, Reply.success u) ∈ h.replies ∨
      ∃ code, e = .onRequestComplete q code ∧ code = errNone ∧ (h.client q).callback = true ∧
        u = .ofBytes (h.client q).downloadData := by
  rcases UrlRequest.step_cases hs with ⟨isTestUrl, request, created, rfl, ha, hquery⟩ | ⟨q', data, rfl, -, rfl⟩ |
    ⟨q', code, rfl, hq, rfl⟩ | ⟨rfl, -, rfl⟩
  · left
    unfold Handler.onQuery at hquery
    split_ifs at hquery <;> cases hquery
    · exact hu
    · rw [Handler.accept, Handler.cancelPendingRequest_eq] at hu
      exact success_of_cancelled hu
    · exact hu
  · exact .inl hu
  · by_cases hb : (h.client q').callback = true
    · obtain ⟨ha, hcb⟩ := hi.alive_of_bound hq hb
      rw [Handler.clientComplete_pending ha hcb hb] at hu
      rcases List.mem_append.1 hu with hu | hu
      · exact .inl hu
      · obtain ⟨rfl, hr⟩ := Prod.mk.inj (List.mem_singleton.1 hu)
        unfold Reply.ofError at hr
        split_ifs at hr with hcode
        cases hr
        exact .inr ⟨code, rfl, hcode, hb, rfl⟩
    · rw [Handler.clientComplete, if_neg hb] at hu
      exact .inl hu
  · left
    rw [Handler.destroy, Handler.cancelPendingRequest_eq] at hu
    exact success_of_cancelled hu

/-- What the process keeps as long as every event is ready. -/
structure Process.Inv (as : List Event) (p : Process) : Prop where
  handler : UrlRequest.Inv as p.handler
  queries : p.handler.queries = as.countP Event.accepted
  ended : p.terminated = true → p.handler.callback = none
  utf16 : ∀ q u, (q, Reply.success u) ∈ p.handler.replies → ∃ units, u = .utf16 units

theorem Process.Inv.step (hi : Process.Inv as p) (hr : Ready p e) (hs : p.step e = some p') :
    Process.Inv (as ++ [e]) p' := by
  obtain ⟨hend, ⟨created, rfl, ha, rfl⟩ | ⟨h', hstep, rfl⟩⟩ := Process.step_cases hs
  · refine ⟨hi.handler.append (fun _ => rfl) (fun _ _ h => by cases h), ?_, fun _ => hr ha rfl rfl, hi.utf16⟩
    rw [List.countP_append, hi.queries]
    rfl
  · refine ⟨hi.handler.step hstep, ?_, fun hterminated => ?_, fun q u hu => ?_⟩
    · rw [queries_step hstep, hi.queries, List.countP_append, List.countP_singleton]
    · rw [show p.terminated = true from hterminated] at hend
      cases hend
    · rcases hi.handler.success_of_step hstep hu with hu | ⟨code, rfl, hcode, hb, rfl⟩
      · exact hi.utf16 q u hu
      · exact CefString.eq_utf16_of_wellFormed (hr hcode hb)

theorem Process.Inv.delivered (hi : Process.Inv as p) {r : Reply} (hmem : (q, r) ∈ p.handler.replies) :
    (∃ as₁ as₂ code, as = as₁ ++ .onRequestComplete q code :: as₂ ∧ Delivers code (downloaded q as₁) r) ∨
    r = .aborted ∧ (q + 1 < p.handler.queries ∨ p.handler.alive = false) := by
  refine (hi.handler.justified q r hmem).imp_left ?_
  rintro ⟨as₁, as₂, code, has, rfl⟩
  refine ⟨as₁, as₂, code, has, ?_⟩
  unfold Delivers
  unfold Reply.ofError at hmem ⊢
  split_ifs at hmem ⊢ with hcode
  · obtain ⟨units, hunits⟩ := hi.utf16 q _ hmem
    exact ⟨units, by rw [hunits], CefString.sameText hunits⟩
  · rfl

theorem Process.Inv.answered (hi : Process.Inv as p) : Answered as p where
  answered := by
    rw [← hi.queries]
    exact hi.handler.answered
  ended := fun h => h.elim hi.handler.destroyed hi.ended
  completed _ _ := hi.handler.completed_answered
  delivered _ _ := hi.delivered
  own q code p' hs := by
    obtain ⟨-, ⟨created, he, -, -⟩ | ⟨h', hstep, rfl⟩⟩ := Process.step_cases hs
    · cases he
    · unfold UrlRequest.step at hstep
      dsimp only at hstep
      split_ifs at hstep with hq
      cases hstep
      exact (hi.handler.replies_clientComplete hq code).imp_right fun h => ⟨_, h⟩
  nullDeref := hi.handler.nullDeref
  ranDestroyed := hi.handler.ranDestroyed

end process

/-- In every run whose events are ready, every query is answered once and with what is its own. -/
theorem queries_answered_once {as : List Event} {p : Process} (hr : Lts.Run Process.step Ready {} as p) :
    Answered as p :=
  (hr.hist (I := Process.Inv) (p := []) (fun _ _ _ _ hi hC hs => hi.step hC hs)
    ⟨inv_start, rfl, fun _ => rfl, fun _ _ h => by cases h⟩).answered

/-- Two queries: the second cancels the first, whose completion comes late. -/
def superseded : List Event :=
  [.onQuery true (lit "URLRequestTest:one") true, .onDownloadData 0 (lit "old"),
    .onQuery true (lit "URLRequestTest:two") true, .onDownloadData 1 (lit "pa"),
    .onRequestComplete 0 errAborted, .onDownloadData 1 (lit "ge"), .onRequestComplete 1 errNone,
    .destroy]

theorem queries_answered_once_superseded : ∃ p, Lts.Run Process.step Ready {} superseded p ∧
    p.handler.replies = [(0, .aborted), (1, .success (.utf16 [0x70, 0x61, 0x67, 0x65]))] ∧ Answered superseded p := by
  obtain ⟨p, hr, hp⟩ : ∃ p, Lts.Run Process.step Ready {} superseded p ∧
      p.handler.replies = [(0, .aborted), (1, .success (.utf16 [0x70, 0x61, 0x67, 0x65]))] := by
    refine ⟨_, .cons (fun _ _ _ => rfl) rfl (.cons trivial rfl (.cons (fun _ _ h => ?_) rfl (.cons trivial rfl
      (.cons (fun h _ => ?_) rfl (.cons trivial rfl (.cons (fun _ _ => ?_) rfl (.cons trivial rfl (.nil _)))))))),
      by decide⟩
    · exact absurd h (by decide)
    · exact absurd h (by decide)
    · exact Utf8.accepts_iff.1 (by decide)
  exact ⟨p, hr, hp, queries_answered_once hr⟩

/-- A query that is just the name of the message, while another one waits: nobody answers that one any
more. And a download of one byte that is no character. -/
theorem queries_counterexample :
    (∃ p, Lts.Run Process.step Lts.Any {} [.onQuery true (lit "URLRequestTest:one") true,
      .onQuery true (lit "URLRequestTest") true] p ∧ ¬ Answered [.onQuery true (lit "URLRequestTest:one") true,
      .onQuery true (lit "URLRequestTest") true] p) ∧
    ∃ p, Lts.Run Process.step Lts.Any {} [.onQuery true (lit "URLRequestTest:one") true, .onDownloadData 0 [0xff],
      .onRequestComplete 0 errNone] p ∧ ¬ Answered [.onQuery true (lit "URLRequestTest:one") true,
      .onDownloadData 0 [0xff], .onRequestComplete 0 errNone] p := by
  refine ⟨⟨_, Lts.run_of_exec rfl, fun h => ?_⟩, ⟨_, Lts.run_of_exec rfl, fun h => ?_⟩⟩
  · have hnone := h.ended (.inr rfl)
    exact absurd hnone (by decide)
  · rcases h.delivered 0 (.success (.converted [0xff])) (by decide) with ⟨as₁, as₂, code, -, hd⟩ | ⟨habsurd, -⟩
    · unfold Delivers at hd
      split_ifs at hd
      obtain ⟨units, hunits, -⟩ := hd
      cases hunits
    · cases habsurd

end UrlRequest

end NplBrowser
