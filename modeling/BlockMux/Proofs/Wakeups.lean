import BlockMux.Proofs.Credit
import BlockMux.Proofs.Waiters

/-!
# No wakeup is lost

A session works only when one of its three events is signalled, and the first thing it does is to
clear the event. It stops when it holds a refused packet, when nothing is submitted, or when no
slot is left for another acknowledgement. For each of these someone else has to act, and signals
the session when he does: the device, its client, or its client again.

Main statements:

* `drain_rests`, `resume_rests` — where a session stops, and what is then left to others.
* `attended_step` — every step leaves every session signalled or waiting for someone.
* `wakeups_kept` — no reachable state is stuck with work left.
-/

namespace BlockMux

/-! ## What the client signals -/

/-- The client has signalled what it did to the queues. -/
structure Channel.Notified (ch ch' : Channel) : Prop where
  submitted_le : ch.signals.submitted ≤ ch'.signals.submitted
  ackFreed_le : ch.signals.ackFreed ≤ ch'.signals.ackFreed
  submitted : ch'.submitted = ch.submitted ∨ 0 < ch'.signals.submitted
  acked : ch'.acked = ch.acked ∨ 0 < ch'.signals.ackFreed

namespace Channel

theorem Notified.refl (ch : Channel) : Notified ch ch :=
  ⟨Nat.le_refl _, Nat.le_refl _, .inl rfl, .inl rfl⟩

theorem notified_allocate {ch ch' : Channel} {size offset : Nat}
    (h : ch.allocate size = .ok (ch', offset)) : Notified ch ch' := by
  unfold allocate at h
  dsimp only at h
  split at h
  · simp at h
  · simp only [Except.ok.injEq, Prod.mk.injEq] at h
    obtain ⟨rfl, -⟩ := h
    exact ⟨Nat.le_refl _, Nat.le_refl _, .inl rfl, .inl rfl⟩

theorem notified_submit {ch ch' : Channel} {packet : Packet} (h : ch.submit packet = .ok ch') :
    Notified ch ch' := by
  unfold submit at h
  split at h
  · simp at h
  · simp only [Except.ok.injEq] at h
    subst h
    exact ⟨Nat.le_succ _, Nat.le_refl _, .inr (Nat.succ_pos _), .inl rfl⟩

theorem Notified.trans {ch ch' ch'' : Channel} (h : Notified ch ch') (h' : Notified ch' ch'') :
    Notified ch ch'' := by
  refine ⟨Nat.le_trans h.submitted_le h'.submitted_le, Nat.le_trans h.ackFreed_le h'.ackFreed_le,
    ?_, ?_⟩
  · rcases h'.submitted with hsame | hsignalled
    · rcases h.submitted with hsame' | hsignalled
      · exact .inl (hsame.trans hsame')
      · exact .inr (Nat.lt_of_lt_of_le hsignalled h'.submitted_le)
    · exact .inr hsignalled
  · rcases h'.acked with hsame | hsignalled
    · rcases h.acked with hsame' | hsignalled
      · exact .inl (hsame.trans hsame')
      · exact .inr (Nat.lt_of_lt_of_le hsignalled h'.ackFreed_le)
    · exact .inr hsignalled

theorem notified_popAcksOf {ch : Channel} {acked : List Packet} (h : ch.acked = acked) :
    Notified ch (ch.popAcksOf acked) := by
  -- every acknowledgement taken signals the slot that it frees
  induction acked generalizing ch with
  | nil => exact .refl ch
  | cons packet rest ih =>
    have hfirst : Notified ch (({ ch with
        acked := rest
        signals.ackFreed := ch.signals.ackFreed + 1 } : Channel).release packet.offset) :=
      ⟨Nat.le_refl _, Nat.le_succ _, .inl rfl, .inr (Nat.succ_pos _)⟩
    exact hfirst.trans (ih rfl)

theorem notified_request (ch : Channel) (arena : Arena) (packet : Packet)
    (bytes : Option (List UInt8)) : Notified ch (ch.request arena packet bytes).1 := by
  unfold request
  split
  · exact .refl ch
  · rename_i ch₁ offset hallocate
    have h₁ := notified_allocate hallocate
    dsimp only
    split
    · exact h₁
    · split
      · exact h₁
      · rename_i hsubmit
        exact h₁.trans (notified_submit hsubmit)

/-- A client that does not read the events signals whatever it does to the queues. -/
theorem perform_notified (ch : Channel) (arena : Arena) {step : ClientStep}
    (hstep : step.isClients = true) (hread : step ≠ .readSignals) :
    Notified ch (ch.perform arena step).1 := by
  cases step with
  -- the session's side of the queues, and the step that clears the signals
  | takeSubmitted => simp [ClientStep.isClients] at hstep
  | acknowledge packet => simp [ClientStep.isClients] at hstep
  | readSignals => exact absurd rfl hread
  | allocate size =>
    simp only [perform]
    split
    · exact .refl ch
    · rename_i h
      exact notified_allocate h
  | submit packet =>
    simp only [perform]
    split
    · exact .refl ch
    · rename_i h
      exact notified_submit h
  | popAck =>
    simp only [perform, popAck]
    cases ch.acked with
    | nil => exact .refl ch
    | cons packet rest => exact ⟨Nat.le_refl _, Nat.le_succ _, .inl rfl, .inr (Nat.succ_pos _)⟩
  | popAcks => exact notified_popAcksOf rfl
  | write packet bytes =>
    simp only [perform]
    split <;> exact .refl ch
  | request packet bytes => exact notified_request ch arena packet bytes
  | release packet => exact ⟨Nat.le_refl _, Nat.le_refl _, .inl rfl, .inl rfl⟩
  | read packet len => exact .refl ch
  | view packet => exact .refl ch
  | address packet => exact .refl ch

end Channel

/-! ## Where a session stops -/

namespace Session

open Backend

variable {s s' s'' : Session} {b b' b'' : Backend (Recorded Ram)} {held held' : Prop}

/-- A session has stopped: it has collected everything, and it holds a refused packet, has nothing
submitted, or has no slot for another acknowledgement. If it holds a packet, then it has waited for
room before, which is `held`, or it is alarmed. -/
structure Rests (held : Prop) (s : Session) (b : Backend (Recorded Ram)) (s' : Session)
    (b' : Backend (Recorded Ram)) : Prop where
  terms : s'.terms = s.terms
  watches : Watches s.mailbox b b'
  collected : (b'.mailbox s.mailbox).completions = []
  congested : s'.driverCongested = true → held ∨ b'.Alarmed s.mailbox
  stopped : s'.driverCongested = true ∨ s'.channel.submitted = [] ∨
    s'.channel.capacity ≤ s'.inFlight + s'.channel.acked.length

/-- What a session does before it stops comes to the same end. -/
theorem Rests.after (h : Rests held' s' b' s'' b'') (hterms : s'.terms = s.terms)
    (hwatches : Watches s.mailbox b b') (hheld : held' → held ∨ b'.Alarmed s.mailbox) :
    Rests held s b s'' b'' := by
  have hmailbox : s'.mailbox = s.mailbox := congrArg Terms.mailbox hterms
  have hlater := h.watches
  have hcongested := h.congested
  have hcollected := h.collected
  rw [hmailbox] at hlater hcongested hcollected
  refine ⟨h.terms.trans hterms, hwatches.trans hlater, hcollected, ?_, h.stopped⟩
  intro hcong
  rcases hcongested hcong with hbefore | halarmed
  · rcases hheld hbefore with hbefore | halarmed
    · exact .inl hbefore
    · exact .inr (hlater.alarmed halarmed)
  · exact .inr halarmed

/-- A session that has collected has an empty mailbox. -/
theorem completions_collect {δ : Type} {s : Session} {b : Backend δ}
    (hid : s.mailbox < b.mailboxes.length) :
    ((s.collect b).2.mailbox s.mailbox).completions = [] := by
  rw [collect, mailbox_modifyMailbox hid]
  rfl

theorem mailbox_ready (s : Session) (b : Backend (Recorded Ram)) :
    (s.ready b).mailbox = s.mailbox := congrArg Terms.mailbox (terms_ready s b)

theorem collect_watches (hid : s.mailbox < b.mailboxes.length) :
    Watches s.mailbox b (s.collect b).2 := by
  refine ⟨?_, .inr⟩
  rw [collect, mailbox_modifyMailbox hid]
  exact .empty _

/-- A driver that has no room remembers the session, and brings nothing to its mailbox. -/
theorem dispatch_congested (packet : Packet) (hfree : s.driverCongested = false)
    (h : (s.dispatch b packet).1.driverCongested = true) :
    (s.dispatch b packet).2.Alarmed s.mailbox ∧
      (s.dispatch b packet).2.mailbox s.mailbox = b.mailbox s.mailbox := by
  have hacked := (acknowledge_acksOnly s packet false).congested
  cases htransfer : s.transfer? packet with
  | none =>
    -- a packet without a transfer is acknowledged, which congests nobody
    have heq : s.dispatch b packet = (s.acknowledge packet false, b) := by rw [dispatch, htransfer]
    rw [heq, hacked, hfree] at h
    simp at h
  | some t =>
    rw [dispatch_eq htransfer] at h ⊢
    dsimp only at h ⊢
    cases houtcome : (b.submit t ⟨packet, s.mailbox⟩).2 with
    | congested =>
      obtain ⟨hwaits, hmailbox⟩ := submit_of_congested s.mailbox houtcome
      exact ⟨.inr hwaits, hmailbox⟩
    | dispatched =>
      rw [houtcome, answered, hfree] at h
      simp at h
    | ioError =>
      rw [houtcome, answered, hacked, hfree] at h
      simp at h

theorem dispatch_watches (hid : s.mailbox < b.mailboxes.length) (packet : Packet) :
    Watches s.mailbox b (s.dispatch b packet).2 := by
  cases htransfer : s.transfer? packet with
  | none =>
    have heq : s.dispatch b packet = (s.acknowledge packet false, b) := by rw [dispatch, htransfer]
    rw [heq]
    exact .refl _ b
  | some t =>
    rw [dispatch_eq htransfer]
    exact watches_submit hid t _

theorem take_watches (hid : s.mailbox < b.mailboxes.length) (packet : Packet)
    (rest : List Packet) : Watches s.mailbox b (s.take b packet rest).2 := by
  rw [take_eq]
  split
  · exact dispatch_watches (s := s.picked rest) hid packet
  · exact .refl _ b

/-- A session that takes a packet and ends congested is remembered. -/
theorem take_congested (packet : Packet) (rest : List Packet) (hfree : s.driverCongested = false)
    (h : (s.take b packet rest).1.driverCongested = true) :
    (s.take b packet rest).2.Alarmed s.mailbox := by
  rw [take_eq] at h ⊢
  split at h
  · rename_i good
    rw [if_pos good]
    exact (dispatch_congested (s := s.picked rest) packet hfree h).1
  · have hsame := (acknowledge_acksOnly (s.picked rest) packet false).congested
    rw [hsame] at h
    have hcong : s.driverCongested = true := h
    rw [hfree] at hcong
    simp at hcong

theorem collect_rests (hid : s.mailbox < b.mailboxes.length) (full : Bool)
    (hstopped : s.driverCongested = true ∨ s.channel.submitted = [] ∨
      (s.collect b).1.channel.ackSlotsFree ≤ (s.collect b).1.inFlight) :
    Rests (s.driverCongested = true) s b { (s.collect b).1 with ackQueueFull := full }
      (s.collect b).2 := by
  have hacks := collect_acksOnly s b
  refine ⟨hacks.terms, collect_watches hid, completions_collect hid, ?_, ?_⟩
  · intro hcong
    exact .inl (hacks.congested ▸ hcong)
  · rcases hstopped with hcong | hnone | hfull
    · exact .inl (hacks.congested.trans hcong)
    · exact .inr (.inl (hacks.submitted.trans hnone))
    · right
      right
      unfold Channel.ackSlotsFree at hfull
      dsimp only
      omega

theorem drainQueue_rests {queue : List Packet} (hid : s.mailbox < b.mailboxes.length)
    (hqueue : s.channel.submitted = queue) :
    Rests (s.driverCongested = true) s b (drainQueue queue s b).1 (drainQueue queue s b).2 := by
  -- on the packets left: either the session stops here, or it takes the first and goes on
  induction queue generalizing s b with
  | nil =>
    have hstopped := fun full => collect_rests hid full (.inr (.inl hqueue))
    rcases prepare_cases s b with ⟨-, heq⟩ | ⟨-, heq⟩ | ⟨-, heq⟩
    · rw [drainQueue, heq]
      exact hstopped (s.collect b).1.ackQueueFull
    · rw [drainQueue, heq]
      exact hstopped true
    · rw [drainQueue, heq]
      exact hstopped false
  | cons packet rest ih =>
    rcases prepare_cases s b with ⟨hcong, heq⟩ | ⟨hfull, heq⟩ | ⟨may, heq⟩
    · rw [drainQueue, heq]
      exact collect_rests hid (s.collect b).1.ackQueueFull (.inl hcong)
    · rw [drainQueue, heq]
      exact collect_rests hid true (.inr (.inr hfull))
    · rw [drainQueue, heq]
      dsimp only
      have htake := take_act (s.collect b).2 ((submitted_ready s b).trans hqueue) may
      have hterms := htake.terms_eq.trans (terms_ready s b)
      have hid₁ := (Act.collect s b).mailbox_lt hid
      have hcollected := collect_watches hid
      have htaken := take_watches (s := s.ready b) hid₁ packet rest
      have hcongested := take_congested (b := (s.collect b).2) packet rest may.free
      rw [mailbox_ready] at htaken hcongested
      -- if this packet was refused, then its refusal is what the session rests on
      have hrest := ih (htake.mailbox_lt hid₁) (submitted_take _ _ packet rest)
      exact hrest.after hterms (hcollected.trans htaken) fun hcong => .inr (hcongested hcong)

theorem drain_rests (hid : s.mailbox < b.mailboxes.length) :
    Rests (s.driverCongested = true) s b (s.drain b).1 (s.drain b).2 :=
  drainQueue_rests hid rfl

/-- A session that has tried its held packet again rests only on what happened then. -/
theorem resume_rests (hs : s.Poised) (hid : s.mailbox < b.mailboxes.length) :
    Rests False s b (s.resume b).1 (s.resume b).2 := by
  have hwatches := collect_watches (b := b) hid
  have hcollected := completions_collect hid
  have hterms := (Act.collect s b).terms_eq
  have hs₁ := (Act.collect s b).poised hs
  have hid₁ := (Act.collect s b).mailbox_lt hid
  rw [resume]
  generalize s.collect b = c at hwatches hcollected hterms hs₁ hid₁ ⊢
  obtain ⟨s₁, b₁⟩ := c
  dsimp only at hwatches hcollected hterms hs₁ hid₁ ⊢
  cases hheld : s₁.pending with
  | none =>
    -- a session without a held packet goes on as if it had only been woken for its submit queue
    have hfree : s₁.driverCongested = false := by
      rw [hs₁.congested, hheld]
      rfl
    refine (drain_rests hid₁).after hterms hwatches ?_
    intro hcong
    rw [hfree] at hcong
    simp at hcong
  | some packet =>
    have hmailbox : s₁.unheld.mailbox = s.mailbox := congrArg Terms.mailbox hterms
    have hretry := retry_act hs₁ b₁ hheld
    have hterms₂ := hretry.terms_eq.trans hterms
    have hid₂ := hretry.mailbox_lt hid₁
    have hcongested := dispatch_congested (s := s₁.unheld) (b := b₁) packet rfl
    have hasked := dispatch_watches (s := s₁.unheld) (b := b₁) hid₁ packet
    rw [hmailbox] at hcongested hasked
    dsimp only
    rw [show ({ s₁ with pending := none, driverCongested := false } : Session) = s₁.unheld from rfl]
    split
    · -- refused again: the driver remembers the session once more
      rename_i hcong
      obtain ⟨halarmed, hsame⟩ := hcongested hcong
      refine ⟨hterms₂, hwatches.trans hasked, ?_, fun _ => .inr halarmed, .inl hcong⟩
      rw [hsame]
      exact hcollected
    · -- taken this time: whatever the session holds when it stops was refused afterwards
      rename_i hfree
      refine (drain_rests hid₂).after hterms₂ (hwatches.trans hasked) ?_
      intro hcong
      exact absurd hcong hfree

/-- What a session that is not at work can be left with: if it holds a packet, it is alarmed, what
has arrived in its mailbox was signalled, and what is submitted was signalled or cannot be taken. -/
structure Attended (s : Session) (b : Backend (Recorded Ram)) : Prop where
  congested : s.driverCongested = true → b.Alarmed s.mailbox
  collected : (b.mailbox s.mailbox).completions ≠ [] → 0 < (b.mailbox s.mailbox).signals
  submitted : s.channel.submitted ≠ [] → s.driverCongested = true ∨
    (∃ event, 0 < s.signals b event) ∨
    s.channel.capacity ≤ s.inFlight + s.channel.acked.length

/-- A session that stops is attended, if it was so when it holds a packet from before. -/
theorem Rests.attended (h : Rests held s b s' b') (hheld : held → b.Alarmed s.mailbox) :
    s'.Attended b' := by
  have hmailbox : s'.mailbox = s.mailbox := congrArg Terms.mailbox h.terms
  refine ⟨?_, ?_, ?_⟩
  · intro hcong
    rw [hmailbox]
    rcases h.congested hcong with hbefore | halarmed
    · exact h.watches.alarmed (hheld hbefore)
    · exact halarmed
  · intro hsome
    rw [hmailbox] at hsome
    exact absurd h.collected hsome
  · intro hsome
    rcases h.stopped with hcong | hnone | hfull
    · exact .inl hcong
    · exact absurd hnone hsome
    · exact .inr (.inr hfull)

/-- What happens elsewhere leaves an attended session attended. -/
theorem Attended.watched (h : s.Attended b) (hwatches : Watches s.mailbox b b') :
    s.Attended b' := by
  refine ⟨fun hcong => hwatches.alarmed (h.congested hcong), ?_, ?_⟩
  · intro hsome
    rcases hwatches.alert.arrived hsome with hbefore | hsignalled
    · exact Nat.lt_of_lt_of_le (h.collected hbefore) hwatches.alert.signals
    · exact hsignalled
  · intro hsome
    rcases h.submitted hsome with hcong | ⟨event, hsignalled⟩ | hfull
    · exact .inl hcong
    · refine .inr (.inl ⟨event, ?_⟩)
      cases event with
      | submitted => exact hsignalled
      | ackFreed => exact hsignalled
      | completion => exact Nat.lt_of_lt_of_le hsignalled hwatches.alert.signals
    · exact .inr (.inr hfull)

/-- A client signals what it does, so the session stays attended. -/
theorem Attended.client (h : s.Attended b) {channel : Channel}
    (hnotified : s.channel.Notified channel) (hcapacity : channel.capacity = s.channel.capacity) :
    ({ s with channel := channel } : Session).Attended b := by
  refine ⟨h.congested, h.collected, ?_⟩
  intro hsome
  -- a queue that changed was signalled, and one that did not was attended to before
  rcases hnotified.submitted with hqueue | hsignalled
  · have hbefore : s.channel.submitted ≠ [] := hqueue ▸ hsome
    rcases h.submitted hbefore with hcong | ⟨event, hsignalled⟩ | hfull
    · exact .inl hcong
    · refine .inr (.inl ⟨event, ?_⟩)
      cases event with
      | submitted => exact Nat.lt_of_lt_of_le hsignalled hnotified.submitted_le
      | ackFreed => exact Nat.lt_of_lt_of_le hsignalled hnotified.ackFreed_le
      | completion => exact hsignalled
    · rcases hnotified.acked with hacked | hsignalled
      · refine .inr (.inr ?_)
        dsimp only
        rw [hacked, hcapacity]
        exact hfull
      · exact .inr (.inl ⟨.ackFreed, hsignalled⟩)
  · exact .inr (.inl ⟨.submitted, hsignalled⟩)

/-- Whatever event a session works on, it is attended afterwards. A session woken for its submit
queue does not try a held packet again, so it has to be alarmed before. -/
theorem attended_process (hs : s.Poised) (hid : s.mailbox < b.mailboxes.length)
    (halarmed : s.driverCongested = true → b.Alarmed s.mailbox) (event : Event) :
    (s.process b event).1.Attended (s.process b event).2 := by
  cases event with
  | submitted => exact (drain_rests hid).attended halarmed
  | ackFreed => exact (resume_rests hs hid).attended False.elim
  | completion => exact (resume_rests hs hid).attended False.elim

theorem attended_handle (hs : s.Poised) (hid : s.mailbox < b.mailboxes.length)
    (h : s.Attended b) (event : Event) :
    (s.handle b event).1.Attended (s.handle b event).2 := by
  have hclear := Act.clear s b event
  have hs' := hclear.poised hs
  have hid' := hclear.mailbox_lt hid
  cases event with
  | submitted => exact attended_process hs' hid' h.congested .submitted
  | ackFreed => exact (resume_rests hs' hid').attended False.elim
  | completion => exact (resume_rests hs' hid').attended False.elim

theorem attended_handleSignalled (hs : s.Poised) (hid : s.mailbox < b.mailboxes.length)
    (h : s.Attended b) (event : Event) :
    (s.handleSignalled b event).1.Attended (s.handleSignalled b event).2 := by
  unfold handleSignalled
  split
  · exact h
  · exact attended_handle hs hid h event

theorem attended_handleRound (hs : s.Poised) (hid : s.mailbox < b.mailboxes.length)
    (h : s.Attended b) : (s.handleRound b).1.Attended (s.handleRound b).2 := by
  have hfirst := handleSignalled_acts hs b .submitted
  have h₁ := attended_handleSignalled hs hid h .submitted
  have hs₁ := hfirst.poised hs
  have hsecond := handleSignalled_acts hs₁ (s.handleSignalled b .submitted).2 .ackFreed
  have h₂ := attended_handleSignalled hs₁ (hfirst.mailbox_lt hid) h₁ .ackFreed
  exact attended_handleSignalled (hsecond.poised hs₁) (hsecond.mailbox_lt (hfirst.mailbox_lt hid))
    h₂ .completion

theorem attended_handleRounds {limit : Nat} (hs : s.Poised) (hid : s.mailbox < b.mailboxes.length)
    (h : s.Attended b) : (handleRounds limit s b).1.Attended (handleRounds limit s b).2 := by
  induction limit generalizing s b with
  | zero => exact h
  | succ limit ih =>
    rw [handleRounds]
    split
    · exact h
    · have hround := handleRound_acts hs b
      exact ih (hround.poised hs) (hround.mailbox_lt hid) (attended_handleRound hs hid h)

/-- A session as it is opened has nothing to attend to. -/
theorem attended_of_fresh (h : s.Fresh) (hcollected : (b.mailbox s.mailbox).completions = []) :
    s.Attended b := by
  refine ⟨?_, ?_, ?_⟩
  · intro hcong
    rw [h.congested] at hcong
    simp at hcong
  · intro hsome
    exact absurd hcollected hsome
  · intro hsome
    exact absurd h.submitted hsome

end Session

/-! ## Systems -/

/-- Sessions alone read their events, and their clients keep to their side of the queues. -/
def Step.isDriven : Step → Bool
  | .client _ step => step.isClients && step != .readSignals
  | .readCompletionEvent _ => false
  | _ => true

namespace System

open Backend

variable {depth : Nat} {sys sys' : System (Recorded Ram)} {step : Step} {answer : Answer}

/-- Every open session is attended. -/
def Attended (sys : System (Recorded Ram)) : Prop :=
  ∀ seat s, sys.session? seat = some s → s.Attended sys.mux.backend

/-- The session on a seat after work on that seat. -/
theorem session?_work {seat : Nat} {s' : Session}
    {f : Session → Backend (Recorded Ram) → Session × Backend (Recorded Ram)}
    (h : (sys.work seat f).1.session? seat = some s') :
    ∃ s, sys.session? seat = some s ∧ s' = (f s sys.mux.backend).1 ∧
      (sys.work seat f).1.mux.backend = (f s sys.mux.backend).2 := by
  unfold work at h ⊢
  cases hs : sys.session? seat with
  | none =>
    rw [hs] at h
    simp [hs] at h
  | some s =>
    rw [hs] at h
    rcases session?_set (seat_of_session? hs) h with ⟨-, hnew⟩ | ⟨hne, -⟩
    · exact ⟨s, rfl, (Option.some.inj hnew).symm, rfl⟩
    · exact absurd rfl hne

/-- Nobody has a session on a seat after it is closed. -/
theorem session?_closed (sys : System (Recorded Ram)) (seat : Nat) :
    (sys.closeSession seat).1.session? seat = none := by
  unfold closeSession
  cases hs : sys.session? seat with
  | none => exact hs
  | some s =>
    refine Option.eq_none_iff_forall_not_mem.2 fun t ht => ?_
    rcases session?_set (seat_of_session? hs) ht with ⟨-, hnew⟩ | ⟨hne, -⟩
    · simp [Seat.session?] at hnew
    · exact absurd rfl hne

/-- The session on a seat after its client has done something. -/
theorem session?_client {seat : Nat} {client : ClientStep} {s' : Session}
    (h : (sys.clientStep seat client).1.session? seat = some s') :
    ∃ s, sys.session? seat = some s ∧
      s' = { s with channel := (s.channel.perform sys.mux.backend.arena client).1 } ∧
      (sys.clientStep seat client).1.mux.backend = { sys.mux.backend with
        arena := (s.channel.perform sys.mux.backend.arena client).2.1 } := by
  unfold clientStep at h ⊢
  cases hold : sys.seats[seat]? with
  | none => simp [session?, hold] at h
  | some old =>
    rw [hold] at h
    rcases session?_set hold h with ⟨-, hnew⟩ | ⟨hne, -⟩
    · cases old with
      | retired channel => simp [Seat.withChannel, Seat.session?] at hnew
      | active s =>
        refine ⟨s, ?_, (Option.some.inj hnew).symm, rfl⟩
        rw [session?, hold]
        rfl
    · exact absurd rfl hne

/-- The session that a step is about is attended afterwards. -/
theorem attended_own {seat : Nat} {s' : Session} (ho : sys.Orderly) (h : sys.Attended)
    (hdriven : step.isDriven = true) (hseat : step.seat? = some seat)
    (hs' : (sys.step step).1.session? seat = some s') :
    s'.Attended (sys.step step).1.mux.backend := by
  cases step with
  | openSession text changes => simp [Step.seat?] at hseat
  | device step => simp [Step.seat?] at hseat
  | readCompletionEvent other => simp [Step.isDriven] at hdriven
  | closeSession other =>
    obtain rfl := Option.some.inj hseat
    rw [System.step, session?_closed] at hs'
    simp at hs'
  | client other client =>
    obtain rfl := Option.some.inj hseat
    simp only [Step.isDriven, Bool.and_eq_true, bne_iff_ne, ne_eq] at hdriven
    obtain ⟨hclient, hread⟩ := hdriven
    obtain ⟨t, ht, rfl, hbackend⟩ := session?_client hs'
    have hnotified := t.channel.perform_notified sys.mux.backend.arena hclient hread
    have hcapacity := (t.channel.place_perform sys.mux.backend.arena client).2
    rw [System.step, hbackend]
    exact ((h _ _ ht).client hnotified hcapacity).watched (.still rfl rfl)
  | process other event =>
    obtain rfl := Option.some.inj hseat
    obtain ⟨s, hs, rfl, hbackend⟩ := session?_work hs'
    rw [System.step, hbackend]
    exact Session.attended_process (ho.poised hs) (ho.mailbox_lt hs) (h _ _ hs).congested event
  | handle other event =>
    obtain rfl := Option.some.inj hseat
    obtain ⟨s, hs, rfl, hbackend⟩ := session?_work hs'
    rw [System.step, hbackend]
    exact Session.attended_handle (ho.poised hs) (ho.mailbox_lt hs) (h _ _ hs) event
  | run other =>
    obtain rfl := Option.some.inj hseat
    obtain ⟨s, hs, rfl, hbackend⟩ := session?_work hs'
    rw [System.step, hbackend]
    exact Session.attended_handleRounds (ho.poised hs) (ho.mailbox_lt hs) (h _ _ hs)
  | sync other =>
    obtain rfl := Option.some.inj hseat
    obtain ⟨s, hs, rfl, hbackend⟩ := session?_work hs'
    rw [System.step, hbackend]
    exact (h _ _ hs).watched (.still rfl rfl)

/-- Every step leaves every session attended. -/
theorem attended_step (ho : sys.Orderly) (h : sys.Attended) (hdriven : step.isDriven = true) :
    (sys.step step).1.Attended := by
  intro seat s hs
  by_cases hseat : step.seat? = some seat
  · exact attended_own ho h hdriven hseat hs
  · have htransition := step_transition ho step
    rcases htransition.session?_of_other hseat hs with hold | ⟨args, a, -, rfl, hmux⟩
    · -- the session is not the one that the step is about, so all it sees is foreign to it
      have hforeign : Foreigns s.mailbox sys.mux.backend (sys.step step).1.mux.backend :=
        htransition.foreign fun hother ht hmailbox =>
          hseat (hother.trans (congrArg some (ho.mailbox_inj ht hold hmailbox)))
      exact (h _ _ hold).watched (hforeign.watches (ho.mailbox_lt hold))
    · -- the mailbox of a new session is new
      have hnew : a.after.backend.mailbox a.session.mailbox = {} :=
        mailbox_addMailbox_new a.backend
      refine Session.attended_of_fresh a.fresh ?_
      rw [hmux, hnew]

theorem attended_runSteps {steps : List Step} (ho : sys.Orderly) (h : sys.Attended)
    (hdriven : ∀ step ∈ steps, step.isDriven = true) : (sys.runSteps steps).Attended := by
  induction steps using List.reverseRecOn with
  | nil => exact h
  | append_singleton steps step ih =>
    have hbefore := ih fun earlier hmem => hdriven earlier (List.mem_append_left _ hmem)
    rw [runSteps_concat]
    exact attended_step (ho.runSteps steps) hbefore (hdriven step (by simp))

/-- A system in which no wakeup is lost, on a device with a queue of `depth` transfers. -/
structure Wakeful (depth : Nat) (sys : System (Recorded Ram)) : Prop where
  /-- A session that was refused is signalled, or waits for room. -/
  congested : ∀ {seat s}, sys.session? seat = some s → s.driverCongested = true →
    0 < s.signals sys.mux.backend .completion ∨
      s.mailbox ∈ sys.mux.backend.driver.driver.waiters
  /-- As long as anyone waits for room, there is none. -/
  full : sys.mux.backend.driver.driver.waiters ≠ [] →
    sys.mux.backend.driver.driver.queue.length = depth
  /-- Whatever happens until then, the next completion succeeds and signals everyone who waits. -/
  woken : ∀ id ∈ sys.mux.backend.driver.driver.waiters, ∀ later : List Step,
    .device .completeNext ∉ later → .device .completeAll ∉ later →
      ((sys.runSteps later).step (.device .completeNext)).2 = .device (.truth true) ∧
        0 < (((sys.runSteps later).step (.device .completeNext)).1.mux.backend.mailbox id).signals
  /-- What has arrived in a mailbox was signalled. -/
  arrived : ∀ {seat s}, sys.session? seat = some s →
    (sys.mux.backend.mailbox s.mailbox).completions ≠ [] →
      0 < s.signals sys.mux.backend .completion
  /-- A session with work left is signalled, or its client or the device has work to do. -/
  working : ∀ {seat s}, sys.session? seat = some s →
    s.channel.submitted ≠ [] ∨ 0 < s.inFlight →
      (∃ event, 0 < s.signals sys.mux.backend event) ∨ s.channel.acked ≠ [] ∨
        sys.mux.backend.driver.driver.queue ≠ []

end System

namespace Session

open Backend

variable {depth : Nat} {s : Session} {b : Backend (Recorded Ram)}

theorem Run.capacity_pos {driver : Recorded Ram} {submitted popped : List Packet}
    (run : Run driver submitted popped s b) : 1 ≤ s.channel.capacity := by
  induction run with
  | opened _ _ fresh => exact fresh.capacity_pos
  | foreign _ _ ih => exact ih
  | act _ hact ih =>
    have hcapacity := congrArg Terms.capacity hact.terms_eq
    exact Nat.le_trans ih (Nat.le_of_eq hcapacity.symm)
  | client _ used ih =>
    have hcapacity := congrArg Terms.capacity (terms_used used)
    exact Nat.le_trans ih (Nat.le_of_eq hcapacity.symm)

/-- A session that holds a packet is signalled, or the queue of the device is not empty. -/
theorem Attended.of_congested (h : s.Attended b) (hqueues : b.Queues depth) (hdepth : 1 ≤ depth)
    (hcong : s.driverCongested = true) :
    (∃ event, 0 < s.signals b event) ∨ s.channel.acked ≠ [] ∨ b.driver.driver.queue ≠ [] := by
  rcases h.congested hcong with hsignalled | hwaits
  · exact .inl ⟨.completion, hsignalled⟩
  · have hfull := hqueues.waits.full (List.ne_nil_of_mem hwaits)
    refine .inr (.inr (List.ne_nil_of_length_pos ?_))
    omega

/-- A packet in flight is with the device, in the mailbox, or held by the session. -/
theorem Attended.of_inFlight {held : List Request} (h : s.Attended b) (hqueues : b.Queues depth)
    (hdepth : 1 ≤ depth) (hcredit : s.Credit Ram.custody b held) (hflight : 0 < s.inFlight) :
    (∃ event, 0 < s.signals b event) ∨ s.channel.acked ≠ [] ∨ b.driver.driver.queue ≠ [] := by
  by_cases hcong : s.driverCongested = true
  · exact h.of_congested hqueues hdepth hcong
  by_cases hmailbox : (b.mailbox s.mailbox).completions = []
  · have hcount := hcredit.inFlight
    have hpending : s.pending.isSome = false := by
      have hnot := mt hcredit.congested.2 hcong
      simpa using hnot
    -- so it is the device that holds the packet
    have hheld : held ≠ [] := by
      rintro rfl
      rw [hmailbox, hpending] at hcount
      simp only [Request.toMailbox, List.filter_nil, List.length_nil] at hcount
      simp at hcount
      omega
    have hqueue : held = b.driver.driver.queue.map (·.request) := hcredit.holds
    refine .inr (.inr ?_)
    rintro hempty
    rw [hempty] at hqueue
    exact hheld hqueue
  · exact .inl ⟨.completion, h.collected hmailbox⟩

/-- An attended session is never stuck with work left. -/
theorem Attended.working {held : List Request} (h : s.Attended b) (hqueues : b.Queues depth)
    (hdepth : 1 ≤ depth) (hcredit : s.Credit Ram.custody b held)
    (hcapacity : 1 ≤ s.channel.capacity) (hwork : s.channel.submitted ≠ [] ∨ 0 < s.inFlight) :
    (∃ event, 0 < s.signals b event) ∨ s.channel.acked ≠ [] ∨ b.driver.driver.queue ≠ [] := by
  rcases hwork with hsubmitted | hflight
  · rcases h.submitted hsubmitted with hcong | hsignalled | hfull
    · exact h.of_congested hqueues hdepth hcong
    · exact .inl hsignalled
    · by_cases hacked : s.channel.acked = []
      · -- all slots are spoken for, and not by acknowledgements, so a packet is in flight
        rw [hacked, List.length_nil] at hfull
        exact h.of_inFlight hqueues hdepth hcredit (by omega)
      · exact .inr (.inl hacked)
  · exact h.of_inFlight hqueues hdepth hcredit hflight

end Session

namespace Course

/-- On a device in memory with a queue of at least one transfer, along every course of events in
which sessions are driven by their events alone: no wakeup is lost, and no session is stuck with
work left. -/
theorem wakeups_kept (c : Course Ram) {depth : Nat} (hqueue : c.driver.queueDepth = some depth)
    (hdepth : 1 ≤ depth) (hempty : c.driver.queue = []) (hnone : c.driver.waiters = [])
    (hdriven : ∀ step ∈ c.steps, step.isDriven = true) : c.final.Wakeful depth := by
  have hstart : c.start.mux.backend.Queues depth := by
    refine ⟨⟨hqueue, ?_, ?_⟩, ?_⟩
    · show c.driver.queue.length ≤ depth
      rw [hempty]
      exact Nat.zero_le _
    · exact fun hsome => absurd hnone hsome
    · intro id hwaits
      replace hwaits : id ∈ c.driver.waiters := hwaits
      rw [hnone] at hwaits
      simp at hwaits
  have hqueues : c.final.mux.backend.Queues depth :=
    System.queues_runSteps (System.Orderly.create _) hstart c.steps
  have hattended : c.final.Attended := by
    refine System.attended_runSteps (System.Orderly.create _) (fun seat s hs => ?_) hdriven
    -- nobody has a seat yet
    simp [start, System.recorded, System.create, System.session?] at hs
  have hside : ∀ seat, System.KeepsSide seat c.steps := by
    intro seat step hmem
    have hstep := hdriven step hmem
    cases step with
    | client other client =>
      simp only [Step.isDriven, Bool.and_eq_true] at hstep
      simp only [System.isFairTo, hstep.1, Bool.or_true]
    | _ => rfl
  have hholds : Ram.custody.Holds c.driver [] := by
    show [] = c.driver.queue.map (·.request)
    rw [hempty]
    rfl
  refine ⟨?_, hqueues.waits.full, ?_, ?_, ?_⟩
  · intro seat s hs
    exact (hattended _ _ hs).congested
  · intro id hwaits later hnext hall
    have hlater := System.queues_runSteps c.orderly hqueues later
    exact System.completeNext_wakes hlater hdepth
      (System.waiters_runSteps c.orderly hnext hall hwaits)
  · intro seat s hs
    exact (hattended _ _ hs).collected
  · intro seat s hs hwork
    have run := c.run_of_session (hside seat) hs
    obtain ⟨held, hcredit⟩ := (run.balanced hholds).credit run.poised
    exact (hattended _ _ hs).working hqueues hdepth hcredit run.capacity_pos hwork

/-- Two sessions on a queue of one transfer, where the second finds it taken by the first. -/
def contended : Course Ram where
  driver := { contents := Memory.zeroed 128, blockSize := 16, queueDepth := some 1 }
  config := { rules := [{}], queueSize := 4 }
  steps := [.openSession "ram_quota=8192,tx_buf_size=32,span=4" [],
    .openSession "ram_quota=8192,tx_buf_size=32,offset=4" [],
    .client 0 (.submit ⟨.read, 0, 1, 0, 16, false⟩),
    .client 1 (.submit ⟨.write, 0, 1, 0, 16, false⟩), .handle 0 .submitted, .handle 1 .submitted]

theorem wakeups_kept_contended :
    contended.final.mux.backend.driver.driver.waiters = [1] ∧ contended.final.Wakeful 1 :=
  ⟨by decide +kernel,
    wakeups_kept contended rfl (Nat.le_refl 1) rfl rfl (by decide)⟩

end Course
end BlockMux
