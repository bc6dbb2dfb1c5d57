import BlockMux.Session.Session
import Mathlib.Logic.Relation

/-!
# The acts of a session

Whatever a session does when it is woken is a chain of a few *acts*: it acknowledges what is
finished, it takes a packet and rejects it or asks the driver for it, or it asks again for the
packet it holds. What a whole run of the submit queue keeps is then what each act keeps.

Main statements:

* `process_acts`, `handle_acts`, `run_acts` — the work of an event is a chain of acts.
* `Act.terms_eq` — no act changes what a session was opened with.
* `Act.poised` — a held packet has passed the checks, and the session knows that it holds one.
* `dispatch_of_accepts` — for a packet that passed the checks the driver is always asked.
-/

namespace BlockMux.Session

variable {δ : Type}

/-! ## What stays -/

/-- What a session has from its opening on. -/
structure Terms where
  grant : Grant
  ticket : Nat
  mailbox : Nat
  buffer : SharedBuffer
  capacity : Nat
  blockSize : Nat
  operations : Operations
  usesAddresses : Bool
  deriving DecidableEq, Repr

/-- The terms of a session. -/
def terms (s : Session) : Terms :=
  ⟨s.grant, s.ticket, s.mailbox, s.channel.buffer, s.channel.capacity, s.blockSize, s.operations,
    s.usesAddresses⟩

theorem accepts_congr {s s' : Session} (h : s'.terms = s.terms) (packet : Packet) :
    s'.accepts packet = s.accepts packet := by
  simp only [terms, Terms.mk.injEq] at h
  obtain ⟨hgrant, -, -, hbuffer, -, hsize, hops, -⟩ := h
  simp only [accepts, hgrant, hbuffer, hsize, hops]

theorem transfer?_congr {s s' : Session} (h : s'.terms = s.terms) (packet : Packet) :
    s'.transfer? packet = s.transfer? packet := by
  simp only [terms, Terms.mk.injEq] at h
  obtain ⟨hgrant, -, -, hbuffer, -, -, -, haddr⟩ := h
  simp only [transfer?, target?, Channel.address, Channel.view, hgrant, hbuffer, haddr]

/-- Between the two sessions nothing happened but that packets were acknowledged. -/
structure AcksOnly (s s' : Session) : Prop where
  terms : s'.terms = s.terms
  submitted : s'.channel.submitted = s.channel.submitted
  pending : s'.pending = s.pending
  congested : s'.driverCongested = s.driverCongested

theorem AcksOnly.refl (s : Session) : AcksOnly s s := ⟨rfl, rfl, rfl, rfl⟩

theorem AcksOnly.trans {s t u : Session} (h : AcksOnly s t) (h' : AcksOnly t u) :
    AcksOnly s u :=
  ⟨h'.terms.trans h.terms, h'.submitted.trans h.submitted, h'.pending.trans h.pending,
    h'.congested.trans h.congested⟩

theorem acknowledge_of_room {s : Session} (h : s.channel.acked.length < s.channel.capacity)
    (packet : Packet) (success : Bool) :
    s.acknowledge packet success =
      { s with
        channel.acked := s.channel.acked ++ [{ packet with succeeded := success }]
        channel.signals.ackAvailable := s.channel.signals.ackAvailable + 1
        inFlight := s.inFlight - 1 } := by
  simp only [acknowledge, Channel.acknowledge, if_neg (Nat.not_le_of_lt h)]

theorem acknowledge_of_full {s : Session} (h : s.channel.capacity ≤ s.channel.acked.length)
    (packet : Packet) (success : Bool) :
    s.acknowledge packet success = { s with inFlight := s.inFlight - 1 } := by
  simp only [acknowledge, Channel.acknowledge, if_pos h]

theorem acknowledge_acksOnly (s : Session) (packet : Packet) (success : Bool) :
    AcksOnly s (s.acknowledge packet success) := by
  rcases Nat.lt_or_ge s.channel.acked.length s.channel.capacity with h | h
  · rw [acknowledge_of_room h]
    exact ⟨rfl, rfl, rfl, rfl⟩
  · rw [acknowledge_of_full h]
    exact ⟨rfl, rfl, rfl, rfl⟩

theorem acknowledgeAll_acksOnly (s : Session) (completions : List Completion) :
    AcksOnly s (s.acknowledgeAll completions) := by
  induction completions generalizing s with
  | nil => exact .refl s
  | cons completion completions ih => exact (acknowledge_acksOnly s _ _).trans (ih _)

theorem collect_acksOnly (s : Session) (b : Backend δ) : AcksOnly s (s.collect b).1 :=
  acknowledgeAll_acksOnly s _

/-! ## Asking the driver -/

/-- What a session makes of the driver's answer about a packet. -/
def answered (s : Session) (packet : Packet) : Outcome → Session
  | .dispatched => s
  | .congested => { s with driverCongested := true, pending := some packet }
  | .ioError => s.acknowledge packet false

/-- A packet that passed the checks has a direction and a place in the buffer. -/
theorem transfer?_of_accepts {s : Session} {packet : Packet} (h : s.accepts packet = true) :
    ∃ t, s.transfer? packet = some t := by
  simp only [accepts, Bool.and_eq_true, decide_eq_true_eq] at h
  obtain ⟨⟨⟨⟨-, -⟩, hops⟩, -⟩, hfits⟩ := h
  -- a payload inside the buffer has a place, by address or by view
  obtain ⟨target, htarget⟩ : ∃ target, s.target? packet = some target := by
    unfold target?
    split
    · exact ⟨_, rfl⟩
    · rw [Channel.view, if_neg (Nat.not_lt_of_le hfits)]
      exact ⟨_, rfl⟩
  cases hop : packet.operation with
  | read => exact ⟨_, by rw [transfer?, hop, htarget]; rfl⟩
  | write => exact ⟨_, by rw [transfer?, hop, htarget]; rfl⟩
  | unsupported code =>
    rw [hop] at hops
    simp [Operations.supports] at hops

section Driver

variable [Driver δ]

theorem dispatch_eq {s : Session} {packet : Packet} {t : Transfer}
    (h : s.transfer? packet = some t) (b : Backend δ) :
    s.dispatch b packet =
      (s.answered packet (b.submit t ⟨packet, s.mailbox⟩).2,
        (b.submit t ⟨packet, s.mailbox⟩).1) := by
  rw [dispatch, h]
  dsimp only
  rcases b.submit t ⟨packet, s.mailbox⟩ with ⟨b', outcome⟩
  cases outcome <;> rfl

theorem dispatch_of_accepts {s : Session} {packet : Packet} (h : s.accepts packet = true)
    (b : Backend δ) :
    ∃ t, s.transfer? packet = some t ∧
      s.dispatch b packet =
        (s.answered packet (b.submit t ⟨packet, s.mailbox⟩).2,
          (b.submit t ⟨packet, s.mailbox⟩).1) := by
  obtain ⟨t, ht⟩ := transfer?_of_accepts h
  exact ⟨t, ht, dispatch_eq ht b⟩

end Driver

theorem terms_answered (s : Session) (packet : Packet) (outcome : Outcome) :
    (s.answered packet outcome).terms = s.terms := by
  cases outcome with
  | dispatched => rfl
  | congested => rfl
  | ioError => exact (acknowledge_acksOnly s packet false).terms

theorem submitted_answered (s : Session) (packet : Packet) (outcome : Outcome) :
    (s.answered packet outcome).channel.submitted = s.channel.submitted := by
  cases outcome with
  | dispatched => rfl
  | congested => rfl
  | ioError => exact (acknowledge_acksOnly s packet false).submitted

/-! ## Acts -/

/-- The session with the first of its submitted packets in hand, where `rest` comes after it. -/
def picked (s : Session) (rest : List Packet) : Session :=
  { s with channel.submitted := rest, inFlight := s.inFlight + 1 }

/-- The session with the held packet in hand. -/
def unheld (s : Session) : Session := { s with pending := none, driverCongested := false }

/-- Whether the session may take a packet: it holds none, and a slot is left to acknowledge
another one. -/
structure MayTake (s : Session) : Prop where
  free : s.driverCongested = false
  room : s.inFlight < s.channel.ackSlotsFree

/-- One act of a session on its backend. -/
inductive Act [Driver δ] : Session → Backend δ → Session → Backend δ → Prop
  /-- Acknowledges what is finished. -/
  | collect (s : Session) (b : Backend δ) : Act s b (s.collect b).1 (s.collect b).2
  /-- Notes whether the acknowledgement queue could be overrun. -/
  | gauge (s : Session) (b : Backend δ) (full : Bool) : Act s b { s with ackQueueFull := full } b
  /-- Takes a packet that fails the checks. -/
  | reject {s : Session} {packet : Packet} {rest : List Packet} (b : Backend δ)
      (queue : s.channel.submitted = packet :: rest) (may : s.MayTake)
      (bad : s.accepts packet = false) : Act s b ((s.picked rest).acknowledge packet false) b
  /-- Takes a packet that passes the checks, and asks the driver for it. -/
  | take {s : Session} {packet : Packet} {rest : List Packet} {t : Transfer} (b : Backend δ)
      (queue : s.channel.submitted = packet :: rest) (may : s.MayTake)
      (good : s.accepts packet = true) (transfer : s.transfer? packet = some t) :
      Act s b ((s.picked rest).answered packet (b.submit t ⟨packet, s.mailbox⟩).2)
        (b.submit t ⟨packet, s.mailbox⟩).1
  /-- Asks the driver again for the packet it holds. -/
  | retry {s : Session} {packet : Packet} {t : Transfer} (b : Backend δ)
      (held : s.pending = some packet) (good : s.accepts packet = true)
      (transfer : s.transfer? packet = some t) :
      Act s b (s.unheld.answered packet (b.submit t ⟨packet, s.mailbox⟩).2)
        (b.submit t ⟨packet, s.mailbox⟩).1
  /-- Reads an event. -/
  | clear (s : Session) (b : Backend δ) (event : Event) :
      Act s b (s.clear b event).1 (s.clear b event).2
  /-- Asks the driver to flush. -/
  | sync (s : Session) (b : Backend δ) : Act s b s b.sync

/-- A chain of acts. -/
def Acts [Driver δ] (s : Session) (b : Backend δ) (s' : Session) (b' : Backend δ) : Prop :=
  Relation.ReflTransGen (fun x y : Session × Backend δ => Act x.1 x.2 y.1 y.2) (s, b) (s', b')

/-- A session that holds a packet knows it, and the packet has passed the checks. -/
structure Poised (s : Session) : Prop where
  congested : s.driverCongested = s.pending.isSome
  accepted : ∀ packet, s.pending = some packet → s.accepts packet = true

theorem Poised.congr {s s' : Session} (hs : s.Poised) (hterms : s'.terms = s.terms)
    (hpending : s'.pending = s.pending) (hcongested : s'.driverCongested = s.driverCongested) :
    s'.Poised := by
  refine ⟨by rw [hcongested, hpending, hs.congested], fun packet hp => ?_⟩
  rw [accepts_congr hterms]
  exact hs.accepted packet (hpending ▸ hp)

theorem Poised.picked {s : Session} (hs : s.Poised) (rest : List Packet) :
    (s.picked rest).Poised :=
  hs.congr rfl rfl rfl

theorem poised_unheld (s : Session) : s.unheld.Poised :=
  ⟨rfl, fun _ hp => by simp [unheld] at hp⟩

/-- A poised session that is not congested holds nothing. -/
theorem Poised.pending_of_free {s : Session} (hs : s.Poised) (hfree : s.driverCongested = false) :
    s.pending = none := by
  rw [← Option.not_isSome_iff_eq_none, ← hs.congested, hfree]
  exact Bool.false_ne_true

/-- Nor does one that may take a packet. -/
theorem Poised.pending_eq_none {s : Session} (hs : s.Poised) (may : s.MayTake) :
    s.pending = none := hs.pending_of_free may.free

theorem AcksOnly.poised {s s' : Session} (h : AcksOnly s s') (hs : s.Poised) : s'.Poised :=
  hs.congr h.terms h.pending h.congested

/-- Whatever the driver answers, a session with an accepted packet in hand ends poised. -/
theorem poised_answered {s : Session} {packet : Packet} (hs : s.Poised)
    (good : s.accepts packet = true) (outcome : Outcome) :
    (s.answered packet outcome).Poised := by
  cases outcome with
  | dispatched => exact hs
  | congested =>
    refine ⟨rfl, fun packet' hp => ?_⟩
    obtain rfl : packet = packet' := Option.some.inj hp
    exact good
  | ioError => exact (acknowledge_acksOnly s packet false).poised hs

section Driver

variable [Driver δ] {s s' : Session} {b b' : Backend δ}

theorem Acts.refl (s : Session) (b : Backend δ) : Acts s b s b := Relation.ReflTransGen.refl

theorem Acts.trans {s'' : Session} {b'' : Backend δ} (h : Acts s b s' b')
    (h' : Acts s' b' s'' b'') : Acts s b s'' b'' := Relation.ReflTransGen.trans h h'

theorem Act.acts (h : Act s b s' b') : Acts s b s' b' := Relation.ReflTransGen.single h

/-- What every act keeps, a chain of acts keeps. -/
theorem Acts.invariant {P : Session → Backend δ → Prop}
    (step : ∀ {s b s' b'}, Act s b s' b' → P s b → P s' b') (h : Acts s b s' b')
    (hP : P s b) : P s' b' := by
  unfold Acts at h
  -- the chain is over pairs, so the property is carried over to pairs first
  generalize hx : (s, b) = x at h
  generalize hy : (s', b') = y at h
  have : P x.1 x.2 → P y.1 y.2 := by
    intro hP
    clear hx hy
    induction h with
    | refl => exact hP
    | tail _ act ih => exact step act ih
  subst hx hy
  exact this hP

theorem Act.terms_eq (h : Act s b s' b') : s'.terms = s.terms := by
  cases h with
  | collect => exact (collect_acksOnly s b).terms
  | gauge => rfl
  | reject => exact (acknowledge_acksOnly _ _ _).terms
  | take => exact terms_answered _ _ _
  | retry => exact terms_answered _ _ _
  | clear _ event => cases event <;> rfl
  | sync => rfl

theorem Acts.terms_eq (h : Acts s b s' b') : s'.terms = s.terms :=
  h.invariant (P := fun t _ => t.terms = s.terms) (fun act ht => act.terms_eq.trans ht) rfl

theorem Act.poised (h : Act s b s' b') (hs : s.Poised) : s'.Poised := by
  cases h with
  | collect => exact (collect_acksOnly s b).poised hs
  | gauge => exact hs.congr rfl rfl rfl
  | reject => exact (acknowledge_acksOnly _ _ _).poised (hs.picked _)
  | @take packet rest _ _ _ _ good => exact poised_answered (hs.picked rest) good _
  | retry _ _ good => exact poised_answered (poised_unheld s) good _
  | clear _ event => cases event <;> exact hs.congr rfl rfl rfl
  | sync => exact hs

theorem Acts.poised (h : Acts s b s' b') (hs : s.Poised) : s'.Poised :=
  h.invariant (P := fun s _ => s.Poised) Act.poised hs

end Driver

/-! ## The work of an event -/

/-- The session when it has acknowledged what is finished, and may take a packet. -/
def ready (s : Session) (b : Backend δ) : Session := { (s.collect b).1 with ackQueueFull := false }

theorem terms_ready (s : Session) (b : Backend δ) : (s.ready b).terms = s.terms :=
  (collect_acksOnly s b).terms

theorem submitted_ready (s : Session) (b : Backend δ) :
    (s.ready b).channel.submitted = s.channel.submitted :=
  (collect_acksOnly s b).submitted

/-- What `prepare` finds: a held packet, no slot to spare, or leave to take a packet. -/
theorem prepare_cases (s : Session) (b : Backend δ) :
    (s.driverCongested = true ∧
      s.prepare b = ((s.collect b).1, (s.collect b).2, false)) ∨
    ((s.collect b).1.channel.ackSlotsFree ≤ (s.collect b).1.inFlight ∧
      s.prepare b = ({ (s.collect b).1 with ackQueueFull := true }, (s.collect b).2, false)) ∨
    ((s.ready b).MayTake ∧ s.prepare b = (s.ready b, (s.collect b).2, true)) := by
  have hsame : (s.collect b).1.driverCongested = s.driverCongested :=
    (collect_acksOnly s b).congested
  by_cases hheld : s.driverCongested = true
  · -- a held packet stops everything before the queues are looked at
    left
    simp only [prepare, hsame, hheld, if_true, and_self]
  · have hfree : (s.collect b).1.driverCongested = false := by simpa [hsame] using hheld
    right
    by_cases hfull : (s.collect b).1.channel.ackSlotsFree ≤ (s.collect b).1.inFlight
    · left
      exact ⟨hfull, by simp [prepare, hfree, hfull]⟩
    · right
      exact ⟨⟨hfree, Nat.lt_of_not_le hfull⟩, by simp [prepare, ready, hfree, hfull]⟩

section Driver

variable [Driver δ]

theorem prepare_acts (s : Session) (b : Backend δ) :
    Acts s b (s.prepare b).1 (s.prepare b).2.1 := by
  have hcollect : Acts s b (s.collect b).1 (s.collect b).2 := (Act.collect s b).acts
  rcases prepare_cases s b with ⟨-, h⟩ | ⟨-, h⟩ | ⟨-, h⟩
  · rw [h]
    exact hcollect
  · rw [h]
    exact hcollect.trans (Act.gauge _ _ _).acts
  · rw [h]
    exact hcollect.trans (Act.gauge _ _ _).acts

theorem take_eq (s : Session) (b : Backend δ) (packet : Packet) (rest : List Packet) :
    s.take b packet rest =
      if (s.picked rest).accepts packet then (s.picked rest).dispatch b packet
      else ((s.picked rest).acknowledge packet false, b) := rfl

theorem take_act {s : Session} {packet : Packet} {rest : List Packet} (b : Backend δ)
    (queue : s.channel.submitted = packet :: rest) (may : s.MayTake) :
    Act s b (s.take b packet rest).1 (s.take b packet rest).2 := by
  have hsame : (s.picked rest).accepts packet = s.accepts packet := accepts_congr rfl packet
  by_cases good : s.accepts packet = true
  · obtain ⟨t, ht, hdispatch⟩ := dispatch_of_accepts (hsame.trans good) b
    rw [take_eq, if_pos (hsame.trans good), hdispatch]
    exact Act.take b queue may good ht
  · have bad : s.accepts packet = false := by simpa using good
    rw [take_eq, hsame, if_neg good]
    exact Act.reject b queue may bad

theorem submitted_take (s : Session) (b : Backend δ) (packet : Packet) (rest : List Packet) :
    (s.take b packet rest).1.channel.submitted = rest := by
  rw [take_eq]
  split
  · rename_i good
    obtain ⟨t, -, hdispatch⟩ := dispatch_of_accepts good b
    rw [hdispatch]
    exact submitted_answered _ _ _
  · exact (acknowledge_acksOnly _ _ _).submitted

theorem drainQueue_acts {queue : List Packet} {s : Session} (b : Backend δ)
    (hqueue : s.channel.submitted = queue) :
    Acts s b (drainQueue queue s b).1 (drainQueue queue s b).2 := by
  -- on the packets left in the queue; every round prepares, and takes one if it may
  induction queue generalizing s b with
  | nil => exact prepare_acts s b
  | cons packet rest ih =>
    have hprepare := prepare_acts s b
    rcases prepare_cases s b with ⟨-, h⟩ | ⟨-, h⟩ | ⟨may, h⟩
    · rw [h] at hprepare
      simpa only [drainQueue, h] using hprepare
    · rw [h] at hprepare
      simpa only [drainQueue, h] using hprepare
    · rw [h] at hprepare
      simp only [drainQueue, h]
      -- preparing acknowledges but takes nothing, so the packet is still the first one
      have hsubmitted : (s.ready b).channel.submitted = packet :: rest :=
        (submitted_ready s b).trans hqueue
      have htaken := take_act (s.collect b).2 hsubmitted may
      exact (hprepare.trans htaken.acts).trans (ih _ (submitted_take _ _ packet rest))

theorem drain_acts (s : Session) (b : Backend δ) : Acts s b (s.drain b).1 (s.drain b).2 :=
  drainQueue_acts b rfl

/-- Trying a held packet again is an act: it passed the checks when it was taken, and is not checked
again. -/
theorem retry_act {s : Session} {packet : Packet} (hs : s.Poised) (b : Backend δ)
    (hheld : s.pending = some packet) :
    Act s b (s.unheld.dispatch b packet).1 (s.unheld.dispatch b packet).2 := by
  have good : s.accepts packet = true := hs.accepted packet hheld
  obtain ⟨t, ht, hdispatch⟩ := dispatch_of_accepts (s := s.unheld) good b
  rw [hdispatch]
  exact Act.retry b hheld good ht

theorem resume_acts {s : Session} (hs : s.Poised) (b : Backend δ) :
    Acts s b (s.resume b).1 (s.resume b).2 := by
  have hcollect : Acts s b (s.collect b).1 (s.collect b).2 := (Act.collect s b).acts
  have hs₁ : (s.collect b).1.Poised := (collect_acksOnly s b).poised hs
  rw [resume]
  rcases hc : s.collect b with ⟨s₁, b₁⟩
  rw [hc] at hcollect hs₁
  dsimp only at hcollect hs₁ ⊢
  split
  · exact hcollect.trans (drain_acts _ _)
  · rename_i packet hheld
    have hretry := (retry_act hs₁ b₁ hheld).acts
    rw [show ({ s₁ with pending := none, driverCongested := false } : Session) = s₁.unheld from rfl]
    split
    · exact hcollect.trans hretry
    · exact (hcollect.trans hretry).trans (drain_acts _ _)

theorem process_acts {s : Session} (hs : s.Poised) (b : Backend δ) (event : Event) :
    Acts s b (s.process b event).1 (s.process b event).2 := by
  cases event with
  | submitted => exact drain_acts s b
  | ackFreed => exact resume_acts hs b
  | completion => exact resume_acts hs b

theorem handle_acts {s : Session} (hs : s.Poised) (b : Backend δ) (event : Event) :
    Acts s b (s.handle b event).1 (s.handle b event).2 := by
  have hclear := Act.clear s b event
  exact hclear.acts.trans (process_acts (hclear.poised hs) _ event)

theorem handleSignalled_acts {s : Session} (hs : s.Poised) (b : Backend δ) (event : Event) :
    Acts s b (s.handleSignalled b event).1 (s.handleSignalled b event).2 := by
  unfold handleSignalled
  split
  · exact .refl s b
  · exact handle_acts hs b event

theorem handleRound_acts {s : Session} (hs : s.Poised) (b : Backend δ) :
    Acts s b (s.handleRound b).1 (s.handleRound b).2 := by
  have h₁ := handleSignalled_acts hs b .submitted
  have h₂ := handleSignalled_acts (h₁.poised hs) (s.handleSignalled b .submitted).2 .ackFreed
  have hs₂ := h₂.poised (h₁.poised hs)
  exact (h₁.trans h₂).trans (handleSignalled_acts hs₂ _ .completion)

theorem handleRounds_acts {limit : Nat} {s : Session} (hs : s.Poised) (b : Backend δ) :
    Acts s b (handleRounds limit s b).1 (handleRounds limit s b).2 := by
  induction limit generalizing s b with
  | zero => exact .refl s b
  | succ limit ih =>
    rw [handleRounds]
    split
    · exact .refl s b
    · have hround := handleRound_acts hs b
      exact hround.trans (ih (hround.poised hs) _)

theorem run_acts {s : Session} (hs : s.Poised) (b : Backend δ) :
    Acts s b (s.run b).1 (s.run b).2 :=
  handleRounds_acts hs b

end Driver
end BlockMux.Session
