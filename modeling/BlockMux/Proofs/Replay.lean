import BlockMux.Device.Scripted
import BlockMux.Proofs.Course
import Mathlib.Data.List.Chain

/-!
# Refused transfers are tried again in order

The transfers that a session asks for, in the order of the driver's log. A transfer that met a full
queue is the next one the session asks for, and the transfers that were settled are those of the
submitted packets that pass the checks, in the order they were submitted.

Main statements:

* `InOrder.act` — what one act of the session does to this order.
* `drain_of_congested` — while a packet is held, a new submission is left where it is.
* `requests_inOrder` — the order at every point of every course of events.
-/

namespace BlockMux

namespace Exchange

/-- Whether the driver settled the request, rather than having it tried again. -/
def isSettled (e : Exchange) : Bool := e.outcome != .congested

/-- After a refusal because of a full queue the same transfer of the same packet comes next. -/
def Repeats (e e' : Exchange) : Prop :=
  e.outcome = .congested → e'.transfer = e.transfer ∧ e'.request = e.request

/-- The packets of settled requests, in order. -/
def settledPackets (log : List Exchange) : List Packet :=
  (log.filter isSettled).map (·.request.packet)

theorem settledPackets_concat (log : List Exchange) (e : Exchange) :
    settledPackets (log ++ [e]) =
      settledPackets log ++ if e.outcome = .congested then [] else [e.request.packet] := by
  by_cases h : e.outcome = .congested
  · simp [settledPackets, isSettled, List.filter_append, h]
  · have hsettled : isSettled e = true := by simpa [isSettled] using h
    rw [settledPackets, List.filter_append, List.filter_cons_of_pos hsettled, if_neg h,
      List.map_append]
    rfl

end Exchange

namespace Session

/-- The order of a session's requests: `asked` is what it asked the driver for, and `submitted`
what its client has submitted. -/
structure InOrder (submitted : List Packet) (s : Session) (asked : List Exchange) : Prop where
  /-- Only packets that pass the checks are asked for, each with the transfer it stands for. -/
  checked : ∀ e ∈ asked, s.MayAsk e
  /-- A refused transfer is tried again before any other. -/
  repeats : asked.IsChain Exchange.Repeats
  /-- The packet that was refused last is the one held. -/
  held : ∀ e ∈ asked.getLast?, e.outcome = .congested → s.pending = some e.request.packet
  /-- The settled requests, the held one and those in the queue are the submitted packets that
  pass the checks. -/
  settled : Exchange.settledPackets asked ++
    (s.pending.toList ++ s.channel.submitted.filter s.accepts) = submitted.filter s.accepts

theorem InOrder.congr {submitted : List Packet} {s s' : Session} {asked : List Exchange}
    (h : InOrder submitted s asked) (hterms : s'.terms = s.terms)
    (hsubmitted : s'.channel.submitted = s.channel.submitted) (hpending : s'.pending = s.pending) :
    InOrder submitted s' asked := by
  have haccepts : s'.accepts = s.accepts := funext (accepts_congr hterms)
  refine ⟨fun e he => (h.checked e he).congr hterms, h.repeats, ?_, ?_⟩
  · rw [hpending]
    exact h.held
  · rw [haccepts, hpending, hsubmitted]
    exact h.settled

theorem InOrder.acksOnly {submitted : List Packet} {s s' : Session} {asked : List Exchange}
    (h : InOrder submitted s asked) (hacks : AcksOnly s s') : InOrder submitted s' asked :=
  h.congr hacks.terms hacks.submitted hacks.pending

/-- Asking the driver for the packet in hand. -/
theorem InOrder.asks {submitted : List Packet} {s : Session} {asked : List Exchange}
    {packet : Packet} {t : Transfer} (outcome : Outcome) (good : s.accepts packet = true)
    (ht : s.transfer? packet = some t) (hfree : s.pending = none)
    (hchecked : ∀ e ∈ asked, s.MayAsk e)
    (hrepeats : asked.IsChain Exchange.Repeats)
    (hlast : ∀ e ∈ asked.getLast?, e.outcome = .congested → e.request.packet = packet)
    (hsettled : Exchange.settledPackets asked ++
      packet :: s.channel.submitted.filter s.accepts = submitted.filter s.accepts) :
    InOrder submitted (s.answered packet outcome)
      (asked ++ [⟨t, ⟨packet, s.mailbox⟩, outcome⟩]) := by
  -- in all three cases the log grows by the same exchange
  have hchecked' : ∀ e ∈ asked ++ [⟨t, ⟨packet, s.mailbox⟩, outcome⟩], s.MayAsk e := by
    intro e he
    rcases List.mem_append.1 he with hold | hnew
    · exact hchecked e hold
    · obtain rfl := List.mem_singleton.1 hnew
      exact ⟨good, ht, rfl⟩
  have hrepeats' : List.IsChain Exchange.Repeats
      (asked ++ [⟨t, ⟨packet, s.mailbox⟩, outcome⟩]) := by
    refine List.isChain_append.2 ⟨hrepeats, .singleton _, fun e he e' he' hcongested => ?_⟩
    obtain rfl : _ = e' := Option.some.inj he'
    have hbefore := hchecked e (List.mem_of_mem_getLast? he)
    have htransfer := hbefore.transfer
    have hpacket := hlast e he hcongested
    rw [hpacket] at htransfer
    refine ⟨Option.some.inj (ht.symm.trans htransfer), ?_⟩
    rw [← hpacket, ← hbefore.mailbox]
  have hsettles : outcome ≠ .congested → InOrder submitted s
      (asked ++ [⟨t, ⟨packet, s.mailbox⟩, outcome⟩]) := by
    intro houtcome
    refine ⟨hchecked', hrepeats', ?_, ?_⟩
    · intro e he hcongested
      rw [List.getLast?_concat] at he
      obtain rfl := Option.some.inj he
      exact absurd hcongested houtcome
    · rw [Exchange.settledPackets_concat, if_neg houtcome, hfree, List.append_assoc]
      exact hsettled
  -- a settled packet is done with; one that met a full queue is the one held now
  cases outcome with
  | dispatched => exact hsettles (by simp)
  | ioError => exact (hsettles (by simp)).acksOnly (acknowledge_acksOnly s packet false)
  | congested =>
    refine ⟨fun e he => (hchecked' e he).congr rfl, hrepeats', ?_, ?_⟩
    · intro e he _
      rw [List.getLast?_concat] at he
      obtain rfl := Option.some.inj he
      rfl
    · rw [Exchange.settledPackets_concat, if_pos rfl, List.append_nil]
      exact hsettled

variable {δ : Type} [Device δ]

theorem InOrder.act {submitted : List Packet} {s s' : Session} {b b' : Backend (Recorded δ)}
    (h : InOrder submitted s (b.askedFor s.mailbox)) (hs : s.Poised) (act : s.Act b s' b') :
    InOrder submitted s' (b'.askedFor s'.mailbox) := by
  rw [show s'.mailbox = s.mailbox from congrArg Terms.mailbox act.terms_eq]
  cases act with
  | collect => exact h.acksOnly (collect_acksOnly s b)
  | gauge => exact h.congr rfl rfl rfl
  | @reject packet rest _ queue may bad =>
    refine InOrder.acksOnly ?_ (acknowledge_acksOnly (s.picked rest) packet false)
    refine ⟨fun e he => (h.checked e he).congr rfl, h.repeats, h.held, ?_⟩
    have hsettled := h.settled
    -- a packet that fails the checks counts neither as settled nor as still to come
    rw [queue, List.filter_cons_of_neg (by simp [bad])] at hsettled
    exact hsettled
  | @take packet rest t _ queue may good ht =>
    have hpending := hs.pending_eq_none may
    rw [Backend.askedFor_submit]
    have hchecked : ∀ e ∈ b.askedFor s.mailbox, (s.picked rest).MayAsk e :=
      fun e he => (h.checked e he).congr rfl
    refine InOrder.asks (s := s.picked rest) _ good ht hpending hchecked h.repeats ?_ ?_
    · intro e he hcongested
      simpa [hpending] using h.held e he hcongested
    · have hsettled := h.settled
      rw [queue, hpending, List.filter_cons_of_pos good] at hsettled
      exact hsettled
  | @retry packet t _ held good ht =>
    rw [Backend.askedFor_submit]
    have hchecked : ∀ e ∈ b.askedFor s.mailbox, s.unheld.MayAsk e :=
      fun e he => (h.checked e he).congr rfl
    refine InOrder.asks (s := s.unheld) _ good ht rfl hchecked h.repeats ?_ ?_
    · -- the last request, if it was refused for room, was for the packet that is asked for again
      intro e he hcongested
      exact Option.some.inj ((h.held e he hcongested).symm.trans held)
    · have hsettled := h.settled
      rw [held] at hsettled
      exact hsettled
  | clear _ event => cases event <;> exact h.congr rfl rfl rfl
  | sync => exact h

/-- The order along a run of the session. -/
theorem Run.inOrder {driver : δ} {sub pop : List Packet} {s : Session} {b : Backend (Recorded δ)}
    (run : Run ⟨driver, [], []⟩ sub pop s b) :
    InOrder sub s (b.askedFor s.mailbox) := by
  induction run with
  | @opened s b before mailbox fresh =>
    have hasked : b.addMailbox.1.askedFor s.mailbox = [] := Backend.askedFor_foreigns before
    rw [hasked]
    refine ⟨by simp, .nil, by simp, ?_⟩
    rw [fresh.pending, fresh.submitted]
    rfl
  | foreign _ hforeign ih =>
    rw [Backend.askedFor_foreign hforeign]
    exact ih
  | act earlier hact ih => exact ih.act earlier.poised hact
  | @client sub pop sub' pop' s b channel _ used ih =>
    have hterms := terms_used used
    have haccepts := funext (accepts_congr hterms)
    -- new packets go behind the queue, so they pass to the end of what is to be settled
    refine ⟨fun e he => (ih.checked e he).congr hterms, ih.repeats, ih.held, ?_⟩
    · rw [haccepts, used.submitted, List.filter_append, List.filter_append, ← ih.settled]
      simp only [List.append_assoc]

/-- While a packet is held, working through the submit queue only collects completions. -/
theorem drain_of_congested {s : Session} (h : s.driverCongested = true) (b : Backend δ) :
    s.drain b = s.collect b := by
  have hprepare : s.prepare b = ((s.collect b).1, (s.collect b).2, false) := by
    simp only [prepare, (collect_acksOnly s b).congested, h, if_true]
  -- whatever is queued, the first thing done is to prepare, which ends the work here
  unfold drain
  cases s.channel.submitted with
  | nil => simp only [drainQueue, hprepare]
  | cons packet rest => simp only [drainQueue, hprepare]

end Session

namespace Course

open BlockMux.System

variable {δ : Type} [Device δ]

/-- While a session holds a packet, a new submission makes it neither ask the driver nor take
another packet. -/
theorem process_submitted_of_held (c : Course δ) {seat : Nat} {s : Session}
    (hs : c.final.session? seat = some s) (hheld : s.pending.isSome = true) :
    ∃ s', (c.final.step (.process seat .submitted)).1.session? seat = some s' ∧
      s'.channel.submitted = s.channel.submitted ∧ s'.pending = s.pending ∧
      (c.final.step (.process seat .submitted)).1.mux.backend.driver =
        c.final.mux.backend.driver := by
  have hcongested : s.driverCongested = true := by rw [(c.orderly.poised hs).congested, hheld]
  have hacks := Session.collect_acksOnly s c.final.mux.backend
  have hstep : (c.final.step (.process seat .submitted)).1 =
      c.final.withSession seat (s.collect c.final.mux.backend).1
        (s.collect c.final.mux.backend).2 := by
    simp only [System.step, work, hs, Session.process, Session.drain_of_congested hcongested]
  have hlt : seat < c.final.seats.length :=
    (List.getElem?_eq_some_iff.1 (seat_of_session? hs)).1
  rw [hstep]
  refine ⟨(s.collect c.final.mux.backend).1, ?_, hacks.submitted, hacks.pending, rfl⟩
  simp only [withSession, session?, List.getElem?_set_self hlt]
  rfl

/-- With every driver and along every course of events, the requests of a session whose client
keeps to its side are in order. The settled ones are a prefix of the submitted packets that pass
the checks, and while a request is held a new submission changes nothing about that. -/
theorem requests_inOrder (c : Course δ) {seat : Nat} {s : Session}
    (hside : KeepsSide seat c.steps) (hs : c.final.session? seat = some s) :
    s.InOrder (c.submitted seat) (c.final.mux.backend.askedFor s.mailbox) ∧
      Exchange.settledPackets (c.final.mux.backend.askedFor s.mailbox) <+:
        (c.submitted seat).filter s.accepts ∧
      (s.pending.isSome = true →
        ∃ s', (c.final.step (.process seat .submitted)).1.session? seat = some s' ∧
          s'.channel.submitted = s.channel.submitted ∧ s'.pending = s.pending ∧
          (c.final.step (.process seat .submitted)).1.mux.backend.driver =
            c.final.mux.backend.driver) := by
  have h := (c.run_of_session hside hs).inOrder
  exact ⟨h, ⟨_, h.settled⟩, c.process_submitted_of_held hs⟩

/-- A device that keeps the first transfer and is then too busy twice; the second of four packets
lies outside the window. -/
def busy : Course Scripted where
  driver := { blockCount := 8, blockSize := 512, script := [.hold, .busy, .busy] }
  config := { rules := [{}], queueSize := 4 }
  steps := [.openSession "ram_quota=8192,tx_buf_size=2048" [],
    .client 0 (.submit ⟨.write, 0, 1, 0, 512, false⟩),
    .client 0 (.submit ⟨.write, 9, 1, 0, 512, false⟩),
    .client 0 (.submit ⟨.read, 1, 1, 0, 512, false⟩), .process 0 .submitted,
    .client 0 (.submit ⟨.read, 2, 1, 512, 512, false⟩), .process 0 .completion, .client 0 .popAck]

theorem requests_inOrder_busy :
    ∃ s, busy.final.session? 0 = some s ∧ s.pending.isSome = true ∧
      s.InOrder (busy.submitted 0) (busy.final.mux.backend.askedFor s.mailbox) ∧
      Exchange.settledPackets (busy.final.mux.backend.askedFor s.mailbox) <+:
        (busy.submitted 0).filter s.accepts := by
  have hheld : (busy.final.session? 0).any (·.pending.isSome) = true := by decide +kernel
  obtain ⟨s, hs, hpending⟩ := (Option.any_eq_true _ _).1 hheld
  obtain ⟨h, hprefix, -⟩ := requests_inOrder busy (by decide) hs
  exact ⟨s, hs, hpending, h, hprefix⟩

end Course
end BlockMux
