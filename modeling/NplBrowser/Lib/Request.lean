import Mathlib.Data.List.Basic
import NplBrowser.Lib.Run

/-!
# A request over two queues

A client asks a server over a queue and is answered over another. The server hands the request to
somebody who may answer it later, any number of times until an answer that `closing` says is the last;
an answer waits in the server's own queue before it is sent. The client may take the request back, and
the server may revoke it, answering `gone` in place of whoever it gave the request to, or, where it
believes the client to be no more, not at all.

`Inv` is kept by every step (`Inv.step`). What a client sees is the beginning of what was answered, and
then perhaps `gone` (`Inv.seen`); the last answer is the last it sees (`Inv.onlyLast_seen`). When the
queues are empty, client and server agree on the request, or it has been dropped (`Inv.quiet`).
-/

namespace Request

variable {ρ : Type*}

inductive Client
  | idle
  | waiting
  | closed
deriving DecidableEq

inductive Server
  | idle
  /-- The request is being offered. -/
  | asking
  /-- Somebody has accepted it. -/
  | pending
  | done
deriving DecidableEq

inductive Up
  | query
  | cancel
deriving DecidableEq

structure State (ρ : Type*) where
  client : Client := .idle
  server : Server := .idle
  /-- To the server. -/
  up : List Up := []
  /-- Whoever has been given the request may answer. -/
  attached : Bool := false
  /-- Answered, and not yet sent. -/
  outbox : List ρ := []
  /-- To the client. -/
  down : List ρ := []
  answers : List ρ := []
  sent : List ρ := []
  seen : List ρ := []
  dropped : Bool := false

inductive Event (ρ : Type*)
  | ask
  | cancel
  | serve
  /-- There is nobody to offer the request to. -/
  | refuse
  | reply (r : ρ)
  | accept
  | decline
  | send
  | revoke (notify : Bool)
  /-- The client has taken the request back. -/
  | hear
  | receive

namespace State

def respond (s : State ρ) (rs : List ρ) : State ρ := { s with down := s.down ++ rs, sent := s.sent ++ rs }

/-- Nobody is to answer any more. -/
def finish (s : State ρ) : State ρ := { s with server := .done, attached := false, outbox := [] }

variable {s : State ρ} {rs : List ρ}

theorem done_ne_idle : (s.finish.respond rs).server ≠ .idle := by
  rintro ⟨⟩

theorem done_ne_asking : (s.finish.respond rs).server ≠ .asking := by
  rintro ⟨⟩

theorem done_ne_pending : (s.finish.respond rs).server ≠ .pending := by
  rintro ⟨⟩

theorem done_not_attached : (s.finish.respond rs).attached ≠ true := by
  rintro ⟨⟩

end State

variable (closing : ρ → Bool) (gone : ρ)

def step (s : State ρ) : Event ρ → Option (State ρ)
  | .ask => if s.client = .idle then some { s with client := .waiting, up := s.up ++ [.query] } else none
  | .cancel => if s.client = .idle then none else some { s with client := .closed, up := s.up ++ [.cancel] }
  | .serve =>
    match s.up, s.server with
    | .query :: up, .idle => some { s with up := up, server := .asking, attached := true }
    | _, _ => none
  | .refuse =>
    match s.up, s.server with
    | .query :: up, .idle => some ({ s with up := up }.finish.respond [gone])
    | _, _ => none
  | .reply r =>
    if s.attached then
      some { s with answers := s.answers ++ [r], outbox := s.outbox ++ [r], attached := !closing r }
    else none
  | .accept => if s.server = .asking then some { s with server := .pending } else none
  | .decline => if s.server = .asking then some (s.finish.respond [gone]) else none
  | .send =>
    match s.server, s.outbox with
    | .pending, r :: outbox =>
      some (if closing r then s.finish.respond [r] else { s with outbox := outbox }.respond [r])
    | _, _ => none
  | .revoke notify =>
    if s.server = .pending then
      some (if notify then s.finish.respond [gone] else { s with dropped := true }.finish)
    else none
  | .hear =>
    match s.up with
    | .cancel :: up =>
      if s.server = .asking then none
      else some (if s.server = .pending then { s with up := up }.finish else { s with up := up })
    | _ => none
  | .receive =>
    match s.down with
    | r :: down =>
      some (if s.client = .waiting then
          { s with down := down, seen := s.seen ++ [r], client := if closing r then .closed else .waiting }
        else { s with down := down })
    | [] => none

section
variable {closing gone} {s : State ρ}

theorem step_ask (h : s.client = .idle) :
    step closing gone s .ask = some { s with client := .waiting, up := s.up ++ [.query] } := if_pos h

theorem step_cancel (h : s.client ≠ .idle) :
    step closing gone s .cancel = some { s with client := .closed, up := s.up ++ [.cancel] } := if_neg h

theorem step_accept (h : s.server = .asking) : step closing gone s .accept = some { s with server := .pending } := if_pos h

theorem step_decline (h : s.server = .asking) : step closing gone s .decline = some (s.finish.respond [gone]) := if_pos h

end

/-- None but the last of `rs` is a last answer. -/
def OnlyLast (rs : List ρ) : Prop := ∀ r ∈ rs.dropLast, closing r = false

variable {closing gone}

theorem OnlyLast.nil : OnlyLast closing [] := fun _ h => absurd h List.not_mem_nil

theorem OnlyLast.append_single {rs : List ρ} (h : ∀ r ∈ rs, closing r = false) (r : ρ) :
    OnlyLast closing (rs ++ [r]) := by
  unfold OnlyLast
  rwa [List.dropLast_concat]

theorem OnlyLast.left {rs rs' : List ρ} (h : OnlyLast closing (rs ++ rs')) : OnlyLast closing rs := by
  intro r hr
  cases rs' with
  | nil => exact h r (by rwa [List.append_nil])
  | cons r' rs' =>
    refine h r ?_
    rw [List.dropLast_append_of_ne_nil (List.cons_ne_nil _ _)]
    exact List.mem_append_left _ (List.dropLast_subset _ hr)

/-! ## The invariant -/

variable (closing gone)

structure Inv (s : State ρ) : Prop where
  idle : s.client = .idle → s = {}
  /-- The request comes first, and then it has been taken back if it has. -/
  unserved : s.server = .idle → s.client ≠ .idle → (∃ up, s.up = .query :: up ∧ (∀ c ∈ up, c = .cancel) ∧
    (s.client = .waiting ↔ up = [])) ∧ s = { client := s.client, up := s.up }
  served : s.server ≠ .idle → (∀ c ∈ s.up, c = .cancel) ∧ (s.client = .waiting → s.up = [])
  attached : s.attached = true → s.server = .asking ∨ s.server = .pending
  asking : s.server = .asking → s.sent = []
  /-- Taken back, and the server has not heard of it. -/
  unheard : s.server = .asking ∨ s.server = .pending → s.client = .closed → .cancel ∈ s.up
  working : s.server = .asking ∨ s.server = .pending → s.answers = s.sent ++ s.outbox ∧
    (∀ r ∈ s.sent, closing r = false) ∧ (s.attached = true ↔ ∀ r ∈ s.answers, closing r = false)
  finished : s.server = .done → ∃ p, p <+: s.answers ∧ (s.sent = p ∨ s.sent = p ++ [gone])
  outbox : s.server = .done → s.outbox = []
  answers : OnlyLast closing s.answers
  sent : OnlyLast closing s.sent
  /-- What a client that is no longer waiting is sent is not looked at. -/
  flow : ∃ ignored, s.sent = s.seen ++ ignored ++ s.down ∧ (s.client = .waiting → ignored = [])
  open' : s.client = .waiting → ∀ r ∈ s.seen, closing r = false
  unanswered : s.client = .waiting → s.server = .done → s.dropped = true ∨ ∃ r ∈ s.down, closing r = true

variable {closing gone} {s s' : State ρ}

theorem Inv.init : Inv closing gone ({} : State ρ) where
  idle _ := rfl
  unserved _ h := absurd rfl h
  served h := absurd rfl h
  attached h := by cases h
  asking h := by cases h
  unheard h := by rcases h with h | h <;> cases h
  working h := by rcases h with h | h <;> cases h
  finished h := by cases h
  outbox h := by cases h
  answers := .nil
  sent := .nil
  flow := ⟨[], rfl, fun _ => rfl⟩
  open' h := by cases h
  unanswered h := by cases h

/-! ### The client -/

theorem Inv.ask (h : Inv closing gone s) (hc : s.client = .idle) :
    Inv closing gone { s with client := .waiting, up := s.up ++ [.query] } := by
  have hs := h.idle hc
  subst hs
  exact { (Inv.init : Inv closing gone ({} : State ρ)) with
    idle := fun hc => by cases hc
    unserved := fun _ _ => ⟨⟨[], rfl, fun c hc => absurd hc List.not_mem_nil, iff_of_true rfl rfl⟩, rfl⟩
    served := fun hs => absurd rfl hs
    unheard := fun hs => by rcases hs with hs | hs <;> cases hs
    flow := ⟨[], rfl, fun _ => rfl⟩
    open' := fun _ r hr => absurd hr List.not_mem_nil
    unanswered := fun _ hd => by cases hd }

theorem Inv.cancel (h : Inv closing gone s) (hc : s.client ≠ .idle) :
    Inv closing gone { s with client := .closed, up := s.up ++ [.cancel] } := by
  refine { h with idle := ?_, unserved := ?_, served := ?_, unheard := ?_, flow := ?_, open' := ?_, unanswered := ?_ }
  · intro hidle
    cases hidle
  · intro hserver _
    obtain ⟨⟨up, hup, hcancels, -⟩, hrest⟩ := h.unserved hserver hc
    refine ⟨⟨up ++ [.cancel], by rw [hup]; rfl, fun c hc => ?_, ?_⟩, ?_⟩
    · rcases List.mem_append.1 hc with hc | hc
      exacts [hcancels c hc, List.mem_singleton.1 hc]
    · refine iff_of_false (fun hw => by cases hw) (by simp)
    · rw [hrest]
  · intro hserver
    refine ⟨fun c hc => ?_, fun hw => by cases hw⟩
    rcases List.mem_append.1 hc with hc | hc
    exacts [(h.served hserver).1 c hc, List.mem_singleton.1 hc]
  · exact fun _ _ => List.mem_append_right _ (.head _)
  · obtain ⟨ignored, hsent, -⟩ := h.flow
    exact ⟨ignored, hsent, fun hw => by cases hw⟩
  · exact fun hw => by cases hw
  · exact fun hw => by cases hw

/-- The first that a client that waits has not seen. -/
theorem Inv.receive {r : ρ} {down : List ρ} (h : Inv closing gone s) (hdown : s.down = r :: down)
    (hc : s.client = .waiting) : Inv closing gone
      { s with down := down, seen := s.seen ++ [r], client := if closing r then .closed else .waiting } := by
  obtain ⟨ignored, hsent, hnone⟩ := h.flow
  have hserver : s.server ≠ .idle := by
    intro hidle
    have hs := (h.unserved hidle (by rw [hc]; simp)).2
    rw [hs] at hdown
    cases hdown
  have hsent' : s.sent = s.seen ++ r :: down := by rw [hsent, hnone hc, hdown, List.append_nil]
  have hmem : r ∈ s.sent := by rw [hsent']; simp
  refine { h with idle := ?_, unserved := ?_, served := ?_, unheard := ?_, flow := ?_, open' := ?_, unanswered := ?_ }
  · dsimp only
    split <;> exact fun hidle => by cases hidle
  · exact fun hidle => absurd hidle hserver
  · exact fun _ => ⟨(h.served hserver).1, fun _ => (h.served hserver).2 hc⟩
  · -- nothing that is a last answer is sent while somebody may answer
    intro hs
    dsimp only
    rw [(h.working hs).2.1 r hmem]
    exact fun hclosed => by cases hclosed
  · refine ⟨[], ?_, fun _ => rfl⟩
    show s.sent = _
    rw [hsent']
    simp
  · dsimp only
    intro hw q hq
    rcases List.mem_append.1 hq with hq | hq
    · exact h.open' hc q hq
    · rw [List.mem_singleton.1 hq]
      by_contra hr
      rw [if_pos (by simpa using hr)] at hw
      cases hw
  · dsimp only
    intro hw hdone
    have hr : closing r ≠ true := by
      intro hr
      rw [if_pos hr] at hw
      cases hw
    rcases h.unanswered hc hdone with hd | ⟨q, hq, hclose⟩
    · exact .inl hd
    · rw [hdown] at hq
      rcases List.mem_cons.1 hq with rfl | hq
      exacts [absurd hclose hr, .inr ⟨q, hq, hclose⟩]

theorem Inv.ignore {r : ρ} {down : List ρ} (h : Inv closing gone s) (hdown : s.down = r :: down)
    (hc : s.client ≠ .waiting) : Inv closing gone { s with down := down } := by
  obtain ⟨ignored, hsent, -⟩ := h.flow
  have hserver : s.server ≠ .idle := by
    intro hidle
    have hs : s.down = [] := by
      cases hclient : s.client with
      | idle => rw [h.idle hclient]
      | waiting => exact absurd hclient hc
      | closed => rw [(h.unserved hidle (by rw [hclient]; simp)).2]
    rw [hdown] at hs
    cases hs
  refine { h with idle := ?_, unserved := ?_, flow := ?_, unanswered := ?_ }
  · intro hidle
    have hs := h.idle hidle
    rw [hs] at hdown
    cases hdown
  · exact fun hidle => absurd hidle hserver
  · refine ⟨ignored ++ [r], ?_, fun hw => absurd hw hc⟩
    show s.sent = _
    rw [hsent, hdown]
    simp
  · exact fun hw => absurd hw hc

/-! ### The server -/

theorem Inv.serve {up : List Up} (h : Inv closing gone s) (hup : s.up = .query :: up) (hs : s.server = .idle) :
    Inv closing gone { s with up := up, server := .asking, attached := true } := by
  have hc : s.client ≠ .idle := fun hc => by
    rw [h.idle hc] at hup
    cases hup
  obtain ⟨⟨up', hup', hcancels, hwaiting⟩, hrest⟩ := h.unserved hs hc
  rw [hup, List.cons.injEq] at hup'
  obtain rfl := hup'.2
  have hclosed : s.client = .closed → .cancel ∈ up := by
    intro hclosed
    cases up with
    | nil =>
      have := hwaiting.2 rfl
      rw [hclosed] at this
      cases this
    | cons c up => exact hcancels c (.head _) ▸ .head _
  rw [hrest]
  exact
    { idle := fun hidle => absurd hidle hc
      unserved := fun hidle => by cases hidle
      served := fun _ => ⟨hcancels, hwaiting.1⟩
      attached := fun _ => .inl rfl
      asking := fun _ => rfl
      unheard := fun _ => hclosed
      working := fun _ => ⟨rfl, fun r hr => absurd hr List.not_mem_nil,
        iff_of_true rfl fun r hr => absurd hr List.not_mem_nil⟩
      finished := fun hd => by cases hd
      outbox := fun hd => by cases hd
      answers := .nil
      sent := .nil
      flow := ⟨[], rfl, fun _ => rfl⟩
      open' := fun _ r hr => absurd hr List.not_mem_nil
      unanswered := fun _ hd => by cases hd }

theorem Inv.reply (h : Inv closing gone s) (ha : s.attached = true) (r : ρ) :
    Inv closing gone { s with answers := s.answers ++ [r], outbox := s.outbox ++ [r], attached := !closing r } := by
  have hs := h.attached ha
  obtain ⟨hanswers, hsent, hatt⟩ := h.working hs
  have hserver : s.server ≠ .idle ∧ s.server ≠ .done := by
    rcases hs with hs | hs <;> rw [hs] <;> simp
  refine { h with idle := ?_, unserved := ?_, attached := ?_, working := ?_, finished := ?_, outbox := ?_, answers := ?_ }
  · intro hidle
    rw [h.idle hidle] at ha
    cases ha
  · exact fun hidle => absurd hidle hserver.1
  · exact fun _ => hs
  · refine fun _ => ⟨by rw [hanswers, List.append_assoc], hsent, ?_⟩
    simp only [List.mem_append, List.mem_singleton, Bool.not_eq_true']
    constructor
    · rintro hr q (hq | rfl)
      exacts [hatt.1 ha q hq, hr]
    · exact fun hall => hall r (.inr rfl)
  · exact fun hd => absurd hd hserver.2
  · exact fun hd => absurd hd hserver.2
  · exact .append_single (hatt.1 ha) r

theorem Inv.accept (h : Inv closing gone s) (hs : s.server = .asking) :
    Inv closing gone { s with server := .pending } :=
  { h with
    idle := fun hidle => by
      rw [h.idle hidle] at hs
      cases hs
    unserved := fun hidle => by cases hidle
    served := fun _ => h.served (by rw [hs]; simp)
    attached := fun _ => .inr rfl
    asking := fun ha => by cases ha
    unheard := fun _ => h.unheard (.inl hs)
    working := fun _ => h.working (.inl hs)
    finished := fun hd => by cases hd
    outbox := fun hd => by cases hd
    unanswered := fun _ hd => by cases hd }

/-- The end of the request at the server: `rs` is what it has last put on the way to the client. -/
theorem Inv.finish {rs p : List ρ} (h : Inv closing gone s) (up : List Up) (dropped : Bool)
    (hs : s.server = .asking ∨ s.server = .pending) (hp : p <+: s.answers)
    (hrs : s.sent ++ rs = p ∨ s.sent ++ rs = p ++ [gone]) (hlen : rs.length ≤ 1)
    (hup : up = s.up ∨ (s.up = .cancel :: up))
    (hend : s.client = .waiting → dropped = true ∨ ∃ r ∈ rs, closing r = true) :
    Inv closing gone ({ s with up := up, dropped := dropped }.finish.respond rs) := by
  have hserver : s.server ≠ .idle := by
    rcases hs with hs | hs <;> rw [hs] <;> simp
  have hclient : s.client ≠ .idle := by
    intro hidle
    rw [h.idle hidle] at hserver
    exact hserver rfl
  obtain ⟨ignored, hflow, hnone⟩ := h.flow
  exact
    { h with
      idle := fun hidle => absurd hidle hclient
      unserved := fun hidle => by cases hidle
      served := fun _ => by
        obtain ⟨hcancels, hempty⟩ := h.served hserver
        rcases hup with rfl | hup
        · exact ⟨hcancels, hempty⟩
        · rw [hup] at hcancels hempty
          exact ⟨fun c hc => hcancels c (.tail _ hc), fun hw => nomatch hempty hw⟩
      attached := fun ha => by cases ha
      asking := fun ha => by cases ha
      unheard := fun ha => by rcases ha with ha | ha <;> cases ha
      working := fun ha => by rcases ha with ha | ha <;> cases ha
      finished := fun _ => ⟨p, hp, hrs⟩
      outbox := fun _ => rfl
      sent := by
        match rs, hlen with
        | [], _ =>
          show OnlyLast closing (s.sent ++ [])
          rw [List.append_nil]
          exact h.sent
        | [r], _ => exact .append_single (h.working hs).2.1 r
      flow := by
        refine ⟨ignored, ?_, hnone⟩
        show s.sent ++ rs = s.seen ++ ignored ++ (s.down ++ rs)
        rw [hflow, List.append_assoc]
      unanswered := fun hw _ => by
        rcases hend hw with hd | ⟨r, hr, hclose⟩
        exacts [.inl hd, .inr ⟨r, List.mem_append_right _ hr, hclose⟩] }

theorem Inv.refuse {up : List Up} (h : Inv closing gone s) (hup : s.up = .query :: up) (hs : s.server = .idle)
    (hgone : closing gone = true) : Inv closing gone ({ s with up := up }.finish.respond [gone]) :=
  (h.serve hup hs).finish (p := []) up s.dropped (.inl rfl) (List.nil_prefix)
    (.inr (by
      show s.sent ++ [gone] = [] ++ [gone]
      have hsent := (h.serve hup hs).asking rfl
      exact congrArg (· ++ [gone]) hsent))
    (Nat.le_refl 1) (.inl rfl) fun _ => .inr ⟨gone, .head _, hgone⟩

theorem Inv.sendOn {r : ρ} {outbox : List ρ} (h : Inv closing gone s) (hs : s.server = .pending)
    (hout : s.outbox = r :: outbox) (hr : closing r = false) :
    Inv closing gone ({ s with outbox := outbox }.respond [r]) := by
  obtain ⟨hanswers, hsent, hatt⟩ := h.working (.inr hs)
  obtain ⟨ignored, hflow, hnone⟩ := h.flow
  have hclient : s.client ≠ .idle := by
    intro hidle
    rw [h.idle hidle] at hs
    cases hs
  refine { h with idle := ?_, unserved := ?_, asking := ?_, working := ?_, finished := ?_, outbox := ?_, sent := ?_, flow := ?_, unanswered := ?_ }
  · exact fun hidle => absurd hidle hclient
  · exact fun hidle => absurd (hs.symm.trans hidle) (by simp)
  · exact fun ha => absurd (hs.symm.trans ha) (by simp)
  · refine fun _ => ⟨?_, fun q hq => ?_, hatt⟩
    · show s.answers = s.sent ++ [r] ++ outbox
      rw [hanswers, hout]
      simp
    · rcases List.mem_append.1 hq with hq | hq
      exacts [hsent q hq, List.mem_singleton.1 hq ▸ hr]
  · exact fun hd => absurd (hs.symm.trans hd) (by simp)
  · exact fun hd => absurd (hs.symm.trans hd) (by simp)
  · exact .append_single hsent r
  · refine ⟨ignored, ?_, hnone⟩
    show s.sent ++ [r] = s.seen ++ ignored ++ (s.down ++ [r])
    rw [hflow, List.append_assoc]
  · exact fun _ hd => absurd (hs.symm.trans hd) (by simp)

/-- Of a request nobody has, or that nobody is to answer any more. -/
theorem Inv.hearOther {up : List Up} (h : Inv closing gone s) (hup : s.up = .cancel :: up)
    (hs : s.server = .idle ∨ s.server = .done) : Inv closing gone { s with up := up } := by
  have hclient : s.client ≠ .idle := by
    intro hidle
    rw [h.idle hidle] at hup
    cases hup
  have hidle : s.server ≠ .idle := by
    intro hidle
    obtain ⟨⟨up', hup', -⟩, -⟩ := h.unserved hidle hclient
    rw [hup] at hup'
    cases hup'
  have hdone := hs.resolve_left hidle
  obtain ⟨hcancels, hempty⟩ := h.served hidle
  rw [hup] at hcancels hempty
  refine { h with idle := ?_, unserved := ?_, served := ?_, unheard := ?_ }
  · exact fun hc => absurd hc hclient
  · exact fun hi => absurd hi hidle
  · exact fun _ => ⟨fun c hc => hcancels c (.tail _ hc), fun hw => nomatch hempty hw⟩
  · intro hw
    rw [hdone] at hw
    rcases hw with hw | hw <;> cases hw

theorem Inv.finish_of_sent {rs : List ρ} (h : Inv closing gone s) (up : List Up) (dropped : Bool)
    (hs : s.server = .asking ∨ s.server = .pending) (hrs : rs = [] ∨ rs = [gone])
    (hup : up = s.up ∨ s.up = .cancel :: up)
    (hend : s.client = .waiting → dropped = true ∨ ∃ r ∈ rs, closing r = true) :
    Inv closing gone ({ s with up := up, dropped := dropped }.finish.respond rs) := by
  refine h.finish (p := s.sent) up dropped hs ⟨s.outbox, (h.working hs).1.symm⟩ ?_ ?_ hup hend
  · rcases hrs with rfl | rfl
    exacts [.inl (List.append_nil _), .inr rfl]
  · rcases hrs with rfl | rfl
    exacts [Nat.zero_le 1, Nat.le_refl 1]

@[simp] theorem State.respond_nil (s : State ρ) : s.respond [] = s := by
  unfold State.respond
  rw [List.append_nil, List.append_nil]

theorem Inv.step (hgone : closing gone = true) {e : Event ρ} (h : Inv closing gone s)
    (hs : step closing gone s e = some s') : Inv closing gone s' := by
  cases e with
  | ask =>
    simp only [Request.step, Option.ite_none_right_eq_some, Option.some.injEq] at hs
    obtain ⟨hc, rfl⟩ := hs
    exact h.ask hc
  | cancel =>
    simp only [Request.step, Option.ite_none_left_eq_some, Option.some.injEq] at hs
    obtain ⟨hc, rfl⟩ := hs
    exact h.cancel hc
  | serve =>
    unfold Request.step at hs
    dsimp only at hs
    split at hs
    · cases hs
      exact h.serve ‹_› ‹_›
    · cases hs
  | refuse =>
    unfold Request.step at hs
    dsimp only at hs
    split at hs
    · cases hs
      exact h.refuse ‹_› ‹_› hgone
    · cases hs
  | reply r =>
    simp only [Request.step, Option.ite_none_right_eq_some, Option.some.injEq] at hs
    obtain ⟨ha, rfl⟩ := hs
    exact h.reply ha r
  | accept =>
    simp only [Request.step, Option.ite_none_right_eq_some, Option.some.injEq] at hs
    obtain ⟨ha, rfl⟩ := hs
    exact h.accept ha
  | decline =>
    simp only [Request.step, Option.ite_none_right_eq_some, Option.some.injEq] at hs
    obtain ⟨ha, rfl⟩ := hs
    exact h.finish_of_sent s.up s.dropped (.inl ha) (.inr rfl) (.inl rfl) fun _ => .inr ⟨gone, .head _, hgone⟩
  | send =>
    unfold Request.step at hs
    dsimp only at hs
    split at hs
    · rename_i r outbox hpending hout
      split at hs
      · rename_i hr
        cases hs
        refine h.finish (p := s.sent ++ [r]) s.up s.dropped (.inr hpending) ?_ (.inl rfl) (Nat.le_refl 1) (.inl rfl)
          fun _ => .inr ⟨r, .head _, hr⟩
        rw [(h.working (.inr hpending)).1, hout]
        exact ⟨outbox, by simp⟩
      · rename_i hr
        cases hs
        exact h.sendOn hpending hout (by simpa using hr)
    · cases hs
  | revoke notify =>
    simp only [Request.step, Option.ite_none_right_eq_some, Option.some.injEq] at hs
    obtain ⟨hp, rfl⟩ := hs
    cases notify with
    | true =>
      exact h.finish_of_sent s.up s.dropped (.inr hp) (.inr rfl) (.inl rfl) fun _ => .inr ⟨gone, .head _, hgone⟩
    | false =>
      have := h.finish_of_sent s.up true (.inr hp) (.inl rfl) (.inl rfl) fun _ => .inl rfl
      rwa [State.respond_nil] at this
  | hear =>
    unfold Request.step at hs
    dsimp only at hs
    split at hs
    · rename_i up hup
      rw [Option.ite_none_left_eq_some, Option.some.injEq] at hs
      obtain ⟨hasking, rfl⟩ := hs
      split
      · rename_i hp
        have hidle : s.server ≠ .idle := by rw [hp]; simp
        have := h.finish_of_sent up s.dropped (.inr hp) (.inl rfl) (.inr hup)
          fun hw => absurd (hup.symm.trans ((h.served hidle).2 hw)) (by simp)
        rwa [State.respond_nil] at this
      · rename_i hp
        cases hserver : s.server with
        | idle => exact hserver ▸ h.hearOther hup (.inl hserver)
        | asking => exact absurd hserver hasking
        | pending => exact absurd hserver hp
        | done => exact hserver ▸ h.hearOther hup (.inr hserver)
    · cases hs
  | receive =>
    unfold Request.step at hs
    dsimp only at hs
    split at hs
    · rename_i r down hdown
      cases hs
      split
      · exact h.receive hdown ‹_›
      · exact h.ignore hdown ‹_›
    · cases hs

theorem Inv.run (hgone : closing gone = true) {es : List (Event ρ)}
    (h : Lts.Run (Request.step closing gone) Lts.Any {} es s) : Inv closing gone s :=
  h.inv (fun _ _ _ hi _ hs => hi.step hgone hs) .init

/-! ## What follows -/

/-- Nothing is seen but what was answered, in its order, up to some place, and perhaps `gone` behind it. -/
theorem Inv.seen (h : Inv closing gone s) : ∃ p, p <+: s.answers ∧ s.seen <+: p ++ [gone] := by
  obtain ⟨ignored, hflow, -⟩ := h.flow
  have hseen : s.seen <+: s.sent := by
    rw [hflow, List.append_assoc]
    exact List.prefix_append _ _
  have hworking : s.server = .asking ∨ s.server = .pending → ∃ p, p <+: s.answers ∧ s.seen <+: p ++ [gone] :=
    fun hs => ⟨s.sent, by rw [(h.working hs).1]; exact List.prefix_append _ _,
      hseen.trans (List.prefix_append _ _)⟩
  cases hserver : s.server with
  | idle =>
    refine ⟨[], List.nil_prefix, ?_⟩
    have hnone : s.seen = [] := by
      by_cases hc : s.client = .idle
      · rw [h.idle hc]
      · rw [(h.unserved hserver hc).2]
    rw [hnone]
    exact List.nil_prefix
  | asking => exact hworking (.inl hserver)
  | pending => exact hworking (.inr hserver)
  | done =>
    obtain ⟨p, hp, hsent⟩ := h.finished hserver
    refine ⟨p, hp, hseen.trans ?_⟩
    rcases hsent with hsent | hsent
    · exact ⟨[gone], by rw [hsent]⟩
    · exact ⟨[], by rw [hsent, List.append_nil]⟩

theorem Inv.onlyLast_seen (h : Inv closing gone s) : OnlyLast closing s.seen := by
  obtain ⟨ignored, hflow, -⟩ := h.flow
  have hsent := h.sent
  rw [hflow] at hsent
  exact hsent.left.left

theorem Inv.quiet (h : Inv closing gone s) (hasking : s.server ≠ .asking) (hup : s.up = [])
    (hout : s.outbox = []) (hdown : s.down = []) :
    (s.client = .waiting → s.dropped = true ∨ s.server = .pending ∧ s.attached = true) ∧
      (s.server = .pending → s.client = .waiting) := by
  constructor
  · intro hw
    cases hserver : s.server with
    | idle =>
      obtain ⟨⟨up, hq, -⟩, -⟩ := h.unserved hserver (by rw [hw]; simp)
      rw [hup] at hq
      cases hq
    | asking => exact absurd hserver hasking
    | pending =>
      obtain ⟨hanswers, hsent, hatt⟩ := h.working (.inr hserver)
      rw [hout, List.append_nil] at hanswers
      exact .inr ⟨rfl, hatt.2 fun r hr => hsent r (hanswers ▸ hr)⟩
    | done =>
      rcases h.unanswered hw hserver with hd | ⟨r, hr, -⟩
      · exact .inl hd
      · rw [hdown] at hr
        cases hr
  · intro hserver
    cases hc : s.client with
    | idle =>
      rw [h.idle hc] at hserver
      cases hserver
    | waiting => rfl
    | closed =>
      have := h.unheard (.inr hserver) hc
      rw [hup] at this
      cases this

end Request
