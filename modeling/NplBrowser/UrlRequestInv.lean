import NplBrowser.UrlRequest

/-!
# The pending query and its request

What the handler keeps in every run: a client that still calls it is that of the pending request, and the
answers it has given are justified by what came before.
-/

namespace NplBrowser

namespace UrlRequest

/-! ### Histories -/

/-- What query `q`'s request has downloaded in the course of `as`. -/
def downloaded (q : Nat) (as : List Event) : Bytes :=
  as.flatMap fun e => match e with
    | .onDownloadData q' data => if q' = q then data else []
    | _ => []

/-- A reply to query `q` is that of its own request's completion, with what had been downloaded by
then, or that of a cancellation, by a newer query or by the handler's end. -/
def Justified (as : List Event) (h : Handler) (q : Nat) (r : Reply) : Prop :=
  (∃ as₁ as₂ code, as = as₁ ++ .onRequestComplete q code :: as₂ ∧
    r = .ofError code (downloaded q as₁)) ∨
  r = .aborted ∧ (q + 1 < h.queries ∨ h.alive = false)

structure Inv (as : List Event) (h : Handler) : Prop where
  answered : h.replies.map Prod.fst ++ h.callback.toList = List.range h.queries
  /-- A client that still calls the handler is that of the pending request. -/
  bound : ∀ q, h.started q = true → (h.client q).callback = true → h.urlrequest = some q
  pending : ∀ q, h.urlrequest = some q →
    h.callback = some q ∧ h.started q = true ∧ (h.client q).callback = true
  waiting : ∀ q, h.callback = some q → h.started q = true → h.urlrequest = some q
  destroyed : h.alive = false → h.callback = none
  started : ∀ q, h.started q = true → q < h.queries
  completed : ∀ q code, .onRequestComplete q code ∈ as →
    h.started q = true ∧ (h.client q).callback = false
  data : ∀ q, h.started q = true → (h.client q).downloadData = downloaded q as
  silent : ∀ q, h.started q = false → downloaded q as = []
  justified : ∀ q r, (q, r) ∈ h.replies → Justified as h q r
  nullDeref : h.nullDeref = false
  ranDestroyed : h.ranDestroyed = false

theorem downloaded_append (q : Nat) (as bs : List Event) :
    downloaded q (as ++ bs) = downloaded q as ++ downloaded q bs := List.flatMap_append

theorem Justified.append {as : List Event} {h : Handler} {q : Nat} {r : Reply}
    (hj : Justified as h q r) (bs : List Event) : Justified (as ++ bs) h q r := by
  rcases hj with ⟨as₁, as₂, code, rfl, hr⟩ | haborted
  · exact .inl ⟨as₁, as₂ ++ bs, code, by simp, hr⟩
  · exact .inr haborted

theorem Justified.mono {as : List Event} {h h' : Handler} {q : Nat} {r : Reply}
    (hj : Justified as h q r) (hq : h.queries ≤ h'.queries)
    (ha : h.alive = false → h'.alive = false) : Justified as h' q r :=
  hj.imp_right fun ⟨hr, hlate⟩ => ⟨hr, hlate.imp (fun hlt => by omega) ha⟩

theorem inv_start : Inv [] {} where
  answered := rfl
  bound _ h := by cases h
  pending _ h := by cases h
  waiting _ h := by cases h
  destroyed h := by cases h
  started _ h := by cases h
  completed _ _ h := by cases h
  data _ h := by cases h
  silent _ _ := rfl
  justified _ _ h := by cases h
  nullDeref := rfl
  ranDestroyed := rfl

namespace Handler
variable {as : List Event} {h h' : Handler} {q : Nat}

/-- The clients after a cancellation: the one of the pending request is detached. -/
def cancelled (h : Handler) (q : Nat) : RequestClient :=
  if h.urlrequest = some q then { h.client q with callback := false } else h.client q

theorem cancelPendingRequest_eq (h : Handler) : h.cancelPendingRequest =
    { h with
      client := h.cancelled
      urlrequest := none
      callback := none
      replies := h.replies ++ h.callback.toList.map fun q => (q, .aborted) } := by
  obtain ⟨alive, callback, urlrequest, queries, client, started, replies, nullDeref, ranDestroyed⟩ := h
  have hclient : ∀ p, Function.update client p { client p with callback := false } =
      fun q => if some p = some q then { client q with callback := false } else client q := by
    intro p
    funext q
    by_cases hq : q = p
    · subst hq
      simp
    · simp [Function.update_of_ne hq, Ne.symm hq]
  cases callback <;> cases urlrequest <;>
    simp [cancelPendingRequest, Handler.cancelled, detach, execute, hclient, funext_iff]

theorem cancelled_downloadData (h : Handler) (q : Nat) :
    (h.cancelled q).downloadData = (h.client q).downloadData := by
  unfold cancelled
  split <;> rfl

theorem cancelled_of_detached (hq : (h.client q).callback = false) :
    (h.cancelled q).callback = false := by
  unfold cancelled
  split
  exacts [rfl, hq]

/-- After a cancellation no client of a started request calls the handler. -/
theorem cancelled_callback (hi : Inv as h) (hs : h.started q = true) :
    (h.cancelled q).callback = false := by
  by_cases hq : (h.client q).callback = true
  · unfold cancelled
    rw [if_pos (hi.bound q hs hq)]
  · exact cancelled_of_detached (Bool.eq_false_iff.2 hq)

end Handler

section steps
variable {as : List Event} {h h' : Handler} {q : Nat}

theorem Inv.cancelled_answered (hi : Inv as h) :
    (h.replies ++ h.callback.toList.map fun q => (q, Reply.aborted)).map Prod.fst =
      List.range h.queries := by
  rw [← hi.answered, List.map_append, List.map_map]
  congr 1
  exact List.map_id _

/-- Once the handler is destroyed or has accepted a newer query, the reply of a cancellation is
justified. -/
theorem Inv.cancelled_justified (hi : Inv as h) (hq : h.queries ≤ h'.queries)
    (ha : h.alive = false → h'.alive = false)
    (hlate : h.queries < h'.queries ∨ h'.alive = false) {r : Reply}
    (hr : (q, r) ∈ h.replies ++ h.callback.toList.map fun q => (q, Reply.aborted)) :
    Justified as h' q r := by
  rcases List.mem_append.1 hr with hr | hr
  · exact (hi.justified q r hr).mono hq ha
  · obtain ⟨p, hp, heq⟩ := List.mem_map.1 hr
    obtain ⟨rfl, rfl⟩ := Prod.mk.inj heq
    have hlt : p ∈ List.range h.queries := by
      rw [← hi.answered]
      exact List.mem_append_right _ hp
    rw [List.mem_range] at hlt
    exact .inr ⟨rfl, hlate.imp_left fun hl => by omega⟩

/-- An event that no request reports. -/
theorem Inv.append (hi : Inv as h) {e : Event} (hd : ∀ q, downloaded q [e] = [])
    (hc : ∀ q code, e ≠ .onRequestComplete q code) : Inv (as ++ [e]) h := by
  have hdown : ∀ q, downloaded q (as ++ [e]) = downloaded q as := fun q => by
    rw [downloaded_append, hd, List.append_nil]
  refine { hi with completed := ?_, data := ?_, silent := ?_, justified := ?_ }
  · intro q code hmem
    rcases List.mem_append.1 hmem with hmem | hmem
    · exact hi.completed q code hmem
    · exact absurd (List.mem_singleton.1 hmem).symm (hc q code)
  · intro q
    rw [hdown]
    exact hi.data q
  · intro q
    rw [hdown]
    exact hi.silent q
  · exact fun q r hr => (hi.justified q r hr).append _

theorem Inv.destroy (hi : Inv as h) : Inv as h.destroy := by
  rw [Handler.destroy, Handler.cancelPendingRequest_eq]
  refine ⟨?_, ?_, ?_, ?_, fun _ => rfl, hi.started, ?_, ?_, hi.silent, ?_, hi.nullDeref,
    hi.ranDestroyed⟩
  · show List.map Prod.fst _ ++ [] = _
    rw [List.append_nil]
    exact hi.cancelled_answered
  · intro q hs hq
    have hq : (h.cancelled q).callback = true := hq
    rw [Handler.cancelled_callback hi hs] at hq
    cases hq
  · intro q hq
    cases hq
  · intro q hq
    cases hq
  · intro q code hmem
    obtain ⟨hs, hq⟩ := hi.completed q code hmem
    exact ⟨hs, Handler.cancelled_of_detached hq⟩
  · intro q hs
    exact (h.cancelled_downloadData q).trans (hi.data q hs)
  · intro q r hr
    refine hi.cancelled_justified ?_ ?_ ?_ hr
    exacts [Nat.le_refl _, fun _ => rfl, .inr rfl]

/-- A query that is accepted. -/
theorem Inv.accept (hi : Inv as h) (ha : h.alive = true) (loadUrl : Bytes) (created : Bool) :
    Inv as (h.accept loadUrl created) := by
  have hnew : h.started h.queries = false :=
    Bool.eq_false_iff.2 fun hs => Nat.lt_irrefl _ (hi.started _ hs)
  have hold : ∀ q, q ≠ h.queries →
      Function.update h.cancelled h.queries { loadUrl, callback := true } q = h.cancelled q ∧
      Function.update h.started h.queries created q = h.started q :=
    fun q hq => ⟨Function.update_of_ne hq _ _, Function.update_of_ne hq _ _⟩
  rw [Handler.accept, Handler.cancelPendingRequest_eq]
  refine ⟨?_, ?_, ?_, ?_, ?_, ?_, ?_, ?_, ?_, ?_, hi.nullDeref, hi.ranDestroyed⟩
  · show List.map Prod.fst _ ++ [h.queries] = _
    rw [hi.cancelled_answered, List.range_succ]
  · intro q hs hq
    dsimp only at hs hq ⊢
    by_cases hqn : q = h.queries
    · subst hqn
      rw [Function.update_self] at hs
      rw [if_pos hs]
    · rw [(hold q hqn).2] at hs
      rw [(hold q hqn).1, Handler.cancelled_callback hi hs] at hq
      cases hq
  · intro q hq
    dsimp only at hq ⊢
    split at hq
    · obtain rfl := Option.some.inj hq
      rw [Function.update_self, Function.update_self]
      exact ⟨rfl, ‹_›, rfl⟩
    · cases hq
  · intro q hq hs
    dsimp only at hq hs ⊢
    obtain rfl := Option.some.inj hq
    rw [Function.update_self] at hs
    rw [if_pos hs]
  · intro hdead
    rw [show h.alive = false from hdead] at ha
    cases ha
  · intro q hs
    dsimp only at hs ⊢
    by_cases hqn : q = h.queries
    · omega
    · rw [(hold q hqn).2] at hs
      have := hi.started q hs
      omega
  · intro q code hmem
    dsimp only
    obtain ⟨hs, hq⟩ := hi.completed q code hmem
    have hqn : q ≠ h.queries := Nat.ne_of_lt (hi.started q hs)
    rw [(hold q hqn).1, (hold q hqn).2]
    exact ⟨hs, Handler.cancelled_of_detached hq⟩
  · intro q hs
    dsimp only at hs ⊢
    by_cases hqn : q = h.queries
    · subst hqn
      rw [Function.update_self]
      exact (hi.silent _ hnew).symm
    · rw [(hold q hqn).2] at hs
      rw [(hold q hqn).1, Handler.cancelled_downloadData]
      exact hi.data q hs
  · intro q hs
    dsimp only at hs
    by_cases hqn : q = h.queries
    · subst hqn
      exact hi.silent _ hnew
    · rw [(hold q hqn).2] at hs
      exact hi.silent q hs
  · intro q r hr
    refine hi.cancelled_justified ?_ ?_ ?_ hr
    exacts [Nat.le_succ _, id, .inl (Nat.lt_succ_self _)]

theorem Inv.onQuery {isTestUrl created : Bool} {request : Bytes} (hi : Inv as h)
    (ha : h.alive = true) (hs : h.onQuery isTestUrl request created = some h') :
    Inv as h' := by
  unfold Handler.onQuery at hs
  split at hs
  · cases hs
    exact hi
  · split at hs
    · split at hs
      · cases hs
      · cases hs
        exact hi.accept ha _ _
    · cases hs
      exact hi

theorem Inv.clientData (hi : Inv as h) (data : Bytes) (hs : h.started q = true) :
    Inv (as ++ [.onDownloadData q data]) (h.clientData q data) := by
  have hclient : ∀ p, ((h.clientData q data).client p).callback = (h.client p).callback := by
    intro p
    unfold Handler.clientData
    by_cases hp : p = q
    · subst hp
      simp
    · simp [Function.update_of_ne hp]
  refine { hi with bound := ?_, pending := ?_, completed := ?_, data := ?_, silent := ?_, justified := ?_ }
  · intro p hsp hp
    rw [hclient] at hp
    exact hi.bound p hsp hp
  · intro p hp
    rw [hclient]
    exact hi.pending p hp
  · intro p code hmem
    rw [hclient]
    rcases List.mem_append.1 hmem with hmem | hmem
    · exact hi.completed p code hmem
    · simp at hmem
  · intro p hsp
    rw [downloaded_append, ← hi.data p hsp]
    by_cases hp : p = q
    · subst hp
      simp [downloaded, Handler.clientData]
    · simp [downloaded, Handler.clientData, Function.update_of_ne hp, Ne.symm hp]
  · intro p hsp
    have hp : q ≠ p := fun hp => by rw [← hp] at hsp; exact absurd (hs.symm.trans hsp) (by decide)
    rw [downloaded_append, hi.silent p hsp]
    simp [downloaded, hp]
  · exact fun p r hr => (hi.justified p r hr).append _

/-- The completion of the pending request answers its query. -/
theorem Handler.clientComplete_pending (ha : h.alive = true) (hcb : h.callback = some q)
    (hb : (h.client q).callback = true) (code : Int) : h.clientComplete q code =
    { h.detach q with
      callback := none
      urlrequest := none
      replies := h.replies ++ [(q, .ofError code (h.client q).downloadData)] } := by
  unfold Handler.clientComplete
  rw [if_pos hb, Handler.onRequestComplete, if_pos ha, Handler.execute, hcb]
  rfl

theorem Inv.alive_of_bound (hi : Inv as h) (hs : h.started q = true)
    (hb : (h.client q).callback = true) : h.alive = true ∧ h.callback = some q := by
  have hcb := (hi.pending q (hi.bound q hs hb)).1
  refine ⟨?_, hcb⟩
  by_contra hdead
  rw [hi.destroyed (Bool.eq_false_iff.2 hdead)] at hcb
  cases hcb

theorem downloaded_complete (p q : Nat) (code : Int) :
    downloaded p (as ++ [.onRequestComplete q code]) = downloaded p as := by
  rw [downloaded_append]
  simp [downloaded]

theorem Inv.clientComplete (hi : Inv as h) (code : Int) (hs : h.started q = true) :
    Inv (as ++ [.onRequestComplete q code]) (h.clientComplete q code) := by
  by_cases hb : (h.client q).callback = true
  · have hu := hi.bound q hs hb
    obtain ⟨ha, hcb⟩ := hi.alive_of_bound hs hb
    rw [Handler.clientComplete_pending ha hcb hb]
    have hdetach : ∀ p, ((h.detach q).client p).downloadData = (h.client p).downloadData ∧
        (((h.detach q).client p).callback = true ↔ p ≠ q ∧ (h.client p).callback = true) := by
      intro p
      unfold Handler.detach
      by_cases hp : p = q
      · subst hp
        simp
      · simp [hp]
    refine ⟨?_, ?_, ?_, ?_, fun _ => rfl, hi.started, ?_, ?_, ?_, ?_, hi.nullDeref,
      hi.ranDestroyed⟩
    · have hanswered := hi.answered
      rw [hcb] at hanswered
      show List.map Prod.fst _ ++ [] = _
      rw [List.map_append, List.append_nil]
      exact hanswered
    · intro p hsp hp
      obtain ⟨hpq, hp⟩ := (hdetach p).2.1 hp
      have hup := hi.bound p hsp hp
      rw [hu] at hup
      exact absurd (Option.some.inj hup).symm hpq
    · intro p hp
      cases hp
    · intro p hp
      cases hp
    · intro p code' hmem
      rcases List.mem_append.1 hmem with hmem | hmem
      · obtain ⟨hsp, hp⟩ := hi.completed p code' hmem
        refine ⟨hsp, Bool.eq_false_iff.2 fun hcall => ?_⟩
        rw [((hdetach p).2.1 hcall).2] at hp
        cases hp
      · have heq := List.mem_singleton.1 hmem
        cases heq
        exact ⟨hs, Bool.eq_false_iff.2 fun hcall => ((hdetach q).2.1 hcall).1 rfl⟩
    · intro p hsp
      rw [downloaded_complete]
      exact (hdetach p).1.trans (hi.data p hsp)
    · intro p hsp
      rw [downloaded_complete, hi.silent p hsp]
    · intro p r hr
      rcases List.mem_append.1 hr with hr | hr
      · exact (hi.justified p r hr).append _
      · obtain ⟨rfl, rfl⟩ := Prod.mk.inj (List.mem_singleton.1 hr)
        exact .inl ⟨as, [], code, rfl, by rw [hi.data p hs]⟩
  · -- a client that is detached, or has completed before, calls nobody
    have hdone : h.clientComplete q code = h := by
      unfold Handler.clientComplete
      rw [if_neg hb]
    rw [hdone]
    refine { hi with completed := ?_, data := ?_, silent := ?_, justified := ?_ }
    · intro p code' hmem
      rcases List.mem_append.1 hmem with hmem | hmem
      · exact hi.completed p code' hmem
      · cases List.mem_singleton.1 hmem
        exact ⟨hs, Bool.eq_false_iff.2 hb⟩
    · intro p hsp
      rw [downloaded_complete, hi.data p hsp]
    · intro p hsp
      rw [downloaded_complete, hi.silent p hsp]
    · exact fun p r hr => (hi.justified p r hr).append _

theorem step_cases {e : Event} (hs : UrlRequest.step h e = some h') :
    (∃ isTestUrl request created, e = .onQuery isTestUrl request created ∧ h.alive = true ∧
      h.onQuery isTestUrl request created = some h') ∨
    (∃ q data, e = .onDownloadData q data ∧ h.started q = true ∧ h' = h.clientData q data) ∨
    (∃ q code, e = .onRequestComplete q code ∧ h.started q = true ∧ h' = h.clientComplete q code) ∨
    e = .destroy ∧ h.alive = true ∧ h' = h.destroy := by
  unfold UrlRequest.step at hs
  rcases e with ⟨isTestUrl, request, created⟩ | ⟨q, data⟩ | ⟨q, code⟩ | _ <;> dsimp only at hs <;>
    split at hs
  · exact .inl ⟨isTestUrl, request, created, rfl, ‹_›, hs⟩
  · cases hs
  · cases hs
    exact .inr (.inl ⟨q, data, rfl, ‹_›, rfl⟩)
  · cases hs
  · cases hs
    exact .inr (.inr (.inl ⟨q, code, rfl, ‹_›, rfl⟩))
  · cases hs
  · cases hs
    exact .inr (.inr (.inr ⟨rfl, ‹_›, rfl⟩))
  · cases hs

theorem Inv.step {e : Event} (hi : Inv as h) (hs : step h e = some h') : Inv (as ++ [e]) h' := by
  rcases step_cases hs with ⟨isTestUrl, request, created, rfl, ha, hquery⟩ | ⟨q, data, rfl, hq, rfl⟩ |
    ⟨q, code, rfl, hq, rfl⟩ | ⟨rfl, ha, rfl⟩
  · exact (hi.onQuery ha hquery).append (fun _ => rfl) (fun _ _ h => by cases h)
  · exact hi.clientData data hq
  · exact hi.clientComplete code hq
  · exact hi.destroy.append (fun _ => rfl) (fun _ _ h => by cases h)

theorem Inv.run (hr : Lts.Run UrlRequest.step Lts.Any {} as h) : Inv as h :=
  hr.hist (I := Inv) (p := []) (fun _ _ _ _ hi _ hs => hi.step hs) inv_start

/-! ### Every query is answered once -/

theorem queries_clientComplete (h : Handler) (q : Nat) (code : Int) :
    (h.clientComplete q code).queries = h.queries := by
  unfold Handler.clientComplete Handler.onRequestComplete Handler.execute
  split
  · split
    · cases h.callback <;> rfl
    · rfl
  · rfl

theorem accepted_onQuery (isTestUrl : Bool) (request : Bytes) (created : Bool) :
    (Event.onQuery isTestUrl request created).accepted =
      (isTestUrl && kTestMessageName.isPrefixOf request && decide (kTestMessageName.length < request.length)) := rfl

theorem queries_onQuery {isTestUrl created : Bool} {request : Bytes}
    (hs : h.onQuery isTestUrl request created = some h') :
    h'.queries = h.queries + if (Event.onQuery isTestUrl request created).accepted then 1 else 0 := by
  unfold Handler.onQuery at hs
  split_ifs at hs with htest hpre hlength <;> cases hs
  · have hother : (Event.onQuery isTestUrl request created).accepted = false := by
      rw [accepted_onQuery, show isTestUrl = false by simpa using htest]
      rfl
    rw [hother]
    rfl
  · have haccepted : (Event.onQuery isTestUrl request created).accepted = true := by
      rw [accepted_onQuery, show isTestUrl = true by simpa using htest, hpre, decide_eq_true (by omega)]
      rfl
    rw [haccepted, Handler.accept, Handler.cancelPendingRequest_eq]
    rfl
  · have hother : (Event.onQuery isTestUrl request created).accepted = false := by
      rw [accepted_onQuery, Bool.eq_false_iff.2 hpre, Bool.and_false, Bool.false_and]
    rw [hother]
    rfl

theorem queries_step {e : Event} (hs : UrlRequest.step h e = some h') :
    h'.queries = h.queries + if e.accepted then 1 else 0 := by
  rcases step_cases hs with ⟨isTestUrl, request, created, rfl, -, hquery⟩ | ⟨q, data, rfl, -, rfl⟩ |
    ⟨q, code, rfl, -, rfl⟩ | ⟨rfl, -, rfl⟩
  · exact queries_onQuery hquery
  · rfl
  · exact queries_clientComplete h q code
  · rw [Handler.destroy, Handler.cancelPendingRequest_eq]
    rfl

/-- A completion adds nothing but the reply to its own query. -/
theorem Inv.replies_clientComplete (hi : Inv as h) (hs : h.started q = true) (code : Int) :
    (h.clientComplete q code).replies = h.replies ∨
    (h.clientComplete q code).replies = h.replies ++ [(q, .ofError code (downloaded q as))] := by
  by_cases hb : (h.client q).callback = true
  · right
    obtain ⟨ha, hcb⟩ := hi.alive_of_bound hs hb
    rw [Handler.clientComplete_pending ha hcb hb, hi.data q hs]
  · left
    unfold Handler.clientComplete
    rw [if_neg hb]

/-- A query whose request has completed is answered. -/
theorem Inv.completed_answered (hi : Inv as h) {code : Int} (hc : .onRequestComplete q code ∈ as) :
    q ∈ h.replies.map Prod.fst := by
  obtain ⟨hs, hdetached⟩ := hi.completed q code hc
  have hmem : q ∈ h.replies.map Prod.fst ++ h.callback.toList := by
    rw [hi.answered, List.mem_range]
    exact hi.started q hs
  rcases List.mem_append.1 hmem with hmem | hmem
  · exact hmem
  · have hpending := (hi.pending q (hi.waiting q (Option.mem_toList.1 hmem) hs)).2.2
    rw [hdetached] at hpending
    cases hpending

end steps

end UrlRequest

end NplBrowser
