import BlockMux.Proofs.Wakeups

/-!
# Spurious wakeups

A session is woken more often than there is work for it: a completion that arrives while it works
leaves its event signalled, and a driver with room again wakes everyone it has refused. So what a
session leaves behind when it stops must be a point at which every further event does nothing.

When the submit queue has been worked through, working through it again changes nothing. The loop
stops only after it has collected everything and found that no packet may be taken, and finds the
same again. Trying a held packet again after it was just refused is refused again, because nothing
has left the queue of the driver. All that changes is that the driver notes once more whom to wake.

Main statements:

* `drainQueue_rule` — the loop over the submit queue, by what every packet taken keeps.
* `drained_drain`, `Drained.drain_eq` — where the work on the submit queue stops, it stays.
* `settled_resume`, `Settled.process_eq` — where the work of the other events stops, every event
  does no more than remind the driver.
* `wakeups_idle` — events that are raised again, in any order, leave the whole system as it was.
-/

namespace BlockMux

/-! ## The submit queue -/

namespace Backend

/-- Emptying an empty mailbox changes nothing. -/
theorem modifyMailbox_empty {δ : Type} {b : Backend δ} {id : Nat}
    (h : (b.mailbox id).completions = []) : b.modifyMailbox id Mailbox.empty = b := by
  have hsame : b.mailboxes.modify id Mailbox.empty = b.mailboxes := by
    refine List.ext_getElem? fun i => ?_
    rw [List.getElem?_modify]
    by_cases hi : id = i
    · subst hi
      unfold mailbox at h
      cases hbox : b.mailboxes[id]? with
      | none => simp
      | some box =>
        rw [hbox] at h
        have hempty : box.completions = [] := h
        simp [Mailbox.empty, ← hempty]
    · simp [hi]
  rw [modifyMailbox, hsame]

end Backend

namespace Session

open Backend

section Driver

variable {δ : Type} {s : Session} {b : Backend δ}

theorem collect_of_empty (h : (b.mailbox s.mailbox).completions = []) : s.collect b = (s, b) := by
  rw [collect, h, modifyMailbox_empty h]
  rfl

/-- A session has worked through its submit queue: it has collected everything, and unless it holds
a refused packet, it knows whether a slot is left and has nothing that it may take. -/
structure Drained (s : Session) (b : Backend δ) : Prop where
  collected : (b.mailbox s.mailbox).completions = []
  gauged : s.driverCongested = false →
    s.ackQueueFull = decide (s.channel.ackSlotsFree ≤ s.inFlight)
  stopped : s.driverCongested = false →
    s.channel.submitted = [] ∨ s.channel.ackSlotsFree ≤ s.inFlight

/-- Once drained, a session finds the same again. -/
theorem Drained.prepare_eq (h : s.Drained b) :
    s.prepare b = (s, b, !s.driverCongested && !decide (s.channel.ackSlotsFree ≤ s.inFlight)) := by
  rw [prepare, collect_of_empty h.collected]
  dsimp only
  by_cases hcong : s.driverCongested = true
  · simp [hcong]
  · have hfree : s.driverCongested = false := by simpa using hcong
    have hmay : (!s.driverCongested && !s.ackQueueFull) = !s.ackQueueFull := by
      rw [hfree]
      rfl
    rw [if_neg hcong, ← h.gauged hfree, hmay]

variable [Driver δ]

theorem Drained.drain_eq (h : s.Drained b) : s.drain b = (s, b) := by
  rw [drain]
  cases hqueue : s.channel.submitted with
  | nil => rw [drainQueue, h.prepare_eq]
  | cons packet rest =>
    -- with a packet left, it is the refused one or the lack of a slot that stops the session
    have hblocked : (!s.driverCongested &&
        !decide (s.channel.ackSlotsFree ≤ s.inFlight)) = false := by
      cases hcong : s.driverCongested with
      | true => rfl
      | false =>
        rcases h.stopped hcong with hnone | hfull
        · rw [hqueue] at hnone
          simp at hnone
        · simp [hfull]
    rw [drainQueue, h.prepare_eq, hblocked]

omit [Driver δ] in
/-- A session that has collected, and stopped for the packet it holds. -/
theorem drained_of_congested (hid : s.mailbox < b.mailboxes.length)
    (hcong : s.driverCongested = true) : Drained (s.collect b).1 (s.collect b).2 := by
  have hacks := collect_acksOnly s b
  have hmailbox : (s.collect b).1.mailbox = s.mailbox := congrArg Terms.mailbox hacks.terms
  have hheld := hacks.congested.trans hcong
  refine ⟨by rw [hmailbox]; exact completions_collect hid, ?_, ?_⟩
  · intro hfree
    rw [hheld] at hfree
    simp at hfree
  · intro hfree
    rw [hheld] at hfree
    simp at hfree

omit [Driver δ] in
/-- A session that has collected, and knows that it stopped for want of a slot, or of a packet. -/
theorem drained_of_gauged (hid : s.mailbox < b.mailboxes.length) {full : Bool}
    (hfull : full = decide ((s.collect b).1.channel.ackSlotsFree ≤ (s.collect b).1.inFlight))
    (hstopped : s.channel.submitted = [] ∨ full = true) :
    Drained { (s.collect b).1 with ackQueueFull := full } (s.collect b).2 := by
  have hacks := collect_acksOnly s b
  have hmailbox : (s.collect b).1.mailbox = s.mailbox := congrArg Terms.mailbox hacks.terms
  refine ⟨by dsimp only; rw [hmailbox]; exact completions_collect hid, fun _ => hfull, fun _ => ?_⟩
  rcases hstopped with hnone | htrue
  · exact .inl (hacks.submitted.trans hnone)
  · exact .inr (of_decide_eq_true (hfull ▸ htrue))

/-- The rule of the loop over the submit queue: what holds at the start of a round and is kept by
every packet taken leads to the end, which is a held packet, no slot to spare, or an empty queue. -/
theorem drainQueue_rule {P Q : Session → Backend δ → Prop} {queue : List Packet}
    (take : ∀ {s b packet rest}, P s b → s.channel.submitted = packet :: rest →
      (s.ready b).MayTake → P ((s.ready b).take (s.collect b).2 packet rest).1
        ((s.ready b).take (s.collect b).2 packet rest).2)
    (held : ∀ {s b}, P s b → s.driverCongested = true → Q (s.collect b).1 (s.collect b).2)
    (full : ∀ {s b}, P s b →
      (s.collect b).1.channel.ackSlotsFree ≤ (s.collect b).1.inFlight →
        Q { (s.collect b).1 with ackQueueFull := true } (s.collect b).2)
    (done : ∀ {s b}, P s b → s.channel.submitted = [] → (s.ready b).MayTake →
      Q (s.ready b) (s.collect b).2)
    (hqueue : s.channel.submitted = queue) (h : P s b) :
    Q (drainQueue queue s b).1 (drainQueue queue s b).2 := by
  induction queue generalizing s b with
  | nil =>
    rcases prepare_cases s b with ⟨hcong, heq⟩ | ⟨hfull, heq⟩ | ⟨may, heq⟩
    · rw [drainQueue, heq]
      exact held h hcong
    · rw [drainQueue, heq]
      exact full h hfull
    · rw [drainQueue, heq]
      exact done h hqueue may
  | cons packet rest ih =>
    rcases prepare_cases s b with ⟨hcong, heq⟩ | ⟨hfull, heq⟩ | ⟨may, heq⟩
    · rw [drainQueue, heq]
      exact held h hcong
    · rw [drainQueue, heq]
      exact full h hfull
    · rw [drainQueue, heq]
      exact ih (submitted_take _ _ packet rest) (take h hqueue may)

theorem drained_drain (hid : s.mailbox < b.mailboxes.length) :
    Drained (s.drain b).1 (s.drain b).2 := by
  refine drainQueue_rule (P := fun s b => s.mailbox < b.mailboxes.length) ?take ?held ?full ?done rfl
    hid
  case take =>
    intro s b packet rest hid hqueue may
    have htake := take_act (s.collect b).2 ((submitted_ready s b).trans hqueue) may
    exact htake.mailbox_lt ((Act.collect s b).mailbox_lt hid)
  case held => exact fun hid hcong => drained_of_congested hid hcong
  case full => exact fun hid hfull => drained_of_gauged hid (by simp [hfull]) (.inr rfl)
  case done =>
    intro s b hid hnone may
    have hroom : ¬(s.collect b).1.channel.ackSlotsFree ≤ (s.collect b).1.inFlight :=
      Nat.not_le.2 may.room
    exact drained_of_gauged hid (by simp [hroom]) (.inl hnone)

end Driver

end Session

/-! ## Held packets -/

namespace Ram

/-- A transfer that the device could carry out has to wait for room in the queue. -/
structure Defers (ram : Ram) (t : Transfer) : Prop where
  inside : ram.inRange t = true
  good : ram.isBad t = false
  full : ∃ depth, ram.queueDepth = some depth ∧ depth ≤ ram.queue.length

/-- The device with more mailboxes to wake when there is room. -/
def remind (ram : Ram) (ids : List Nat) : Ram := { ram with waiters := ram.waiters ++ ids }

/-- Nothing but the queue decides whether a transfer waits, and being asked does not shorten it. -/
theorem Defers.remind {ram : Ram} {t : Transfer} (h : ram.Defers t) (ids : List Nat) :
    (ram.remind ids).Defers t := ⟨h.inside, h.good, h.full⟩

theorem Defers.submit_eq {ram : Ram} {t : Transfer} (h : ram.Defers t) (arena : Arena)
    (request : Request) :
    ram.submit arena t request = ⟨ram.remind [request.mailbox], arena, .congested, []⟩ := by
  obtain ⟨depth, hdepth, hfull⟩ := h.full
  simp [submit, h.inside, h.good, hdepth, hfull, Ram.remind]

theorem Answer.defers {ram : Ram} {arena : Arena} {t : Transfer} {request : Request}
    {reply : Reply Ram} (h : ram.Answer arena t request reply)
    (hcongested : reply.outcome = .congested) : ram.Defers t := by
  cases h with
  | refused => simp at hcongested
  | congested inside good deep full => exact ⟨inside, good, _, deep, full⟩
  | queued => simp at hcongested
  | atOnce => simp at hcongested

end Ram

/-- The backend whose driver has more mailboxes to wake. -/
def Backend.remind (b : Backend Ram) (ids : List Nat) : Backend Ram :=
  { b with driver := b.driver.remind ids }

theorem Backend.remind_nil (b : Backend Ram) : b.remind [] = b := by
  simp [remind, Ram.remind]

theorem Backend.remind_remind (b : Backend Ram) (ids more : List Nat) :
    (b.remind ids).remind more = b.remind (ids ++ more) := by
  simp [remind, Ram.remind]

namespace Session

open Backend

variable {s : Session} {b : Backend Ram}

/-- The packet that the session holds, if any, would still have to wait. -/
def Deferred (s : Session) (b : Backend Ram) : Prop :=
  ∀ packet, s.pending = some packet → ∃ t, s.transfer? packet = some t ∧ b.driver.Defers t

/-- A session that holds nothing has nothing to wait for. -/
theorem Poised.deferred (hs : s.Poised) (hfree : s.driverCongested = false) : s.Deferred b := by
  intro packet hheld
  rw [hs.congested, hheld] at hfree
  simp at hfree

/-- A packet for which the driver has no room is held, and nothing else happens. -/
theorem dispatch_of_defers {packet : Packet} {t : Transfer} (h : b.driver.Defers t)
    (htransfer : s.transfer? packet = some t) :
    s.dispatch b packet =
      ({ s with driverCongested := true, pending := some packet }, b.remind [s.mailbox]) := by
  have hreply : Driver.submit b.driver b.arena t ⟨packet, s.mailbox⟩ =
      ⟨b.driver.remind [s.mailbox], b.arena, .congested, []⟩ := h.submit_eq _ _
  have hsubmit : b.submit t ⟨packet, s.mailbox⟩ = (b.remind [s.mailbox], .congested) := by
    rw [submit, hreply]
    rfl
  rw [dispatch_eq htransfer, hsubmit]
  rfl

theorem defers_of_congested {packet : Packet} (hfree : s.driverCongested = false)
    (h : (s.dispatch b packet).1.driverCongested = true) :
    ∃ t, s.transfer? packet = some t ∧ b.driver.Defers t := by
  have hacked := (acknowledge_acksOnly s packet false).congested
  cases htransfer : s.transfer? packet with
  | none =>
    -- a packet without a transfer is acknowledged, which congests nobody
    have heq : s.dispatch b packet = (s.acknowledge packet false, b) := by rw [dispatch, htransfer]
    rw [heq, hacked, hfree] at h
    simp at h
  | some t =>
    have hanswer := b.driver.answers b.arena t ⟨packet, s.mailbox⟩
    rw [dispatch_eq htransfer] at h
    cases houtcome : (b.submit t ⟨packet, s.mailbox⟩).2 with
    | congested => exact ⟨t, rfl, hanswer.defers houtcome⟩
    | dispatched =>
      rw [houtcome, answered, hfree] at h
      simp at h
    | ioError =>
      rw [houtcome, answered, hacked, hfree] at h
      simp at h

/-- Dispatched, a packet of a session that held none is taken, or has to wait. -/
theorem deferred_dispatch {packet : Packet} (hfree : s.driverCongested = false)
    (hs : (s.dispatch b packet).1.Poised) :
    Deferred (s.dispatch b packet).1 (s.dispatch b packet).2 := by
  cases hcong : (s.dispatch b packet).1.driverCongested with
  | false => exact hs.deferred hcong
  | true =>
    obtain ⟨t, htransfer, hdefers⟩ := defers_of_congested hfree hcong
    rw [dispatch_of_defers hdefers htransfer]
    intro held hheld
    obtain rfl : packet = held := Option.some.inj hheld
    exact ⟨t, htransfer, hdefers.remind _⟩

theorem deferred_take {packet : Packet} {rest : List Packet} (hfree : s.driverCongested = false)
    (hs : (s.take b packet rest).1.Poised) :
    Deferred (s.take b packet rest).1 (s.take b packet rest).2 := by
  rw [take_eq] at hs ⊢
  split at hs
  · rename_i good
    rw [if_pos good]
    exact deferred_dispatch (s := s.picked rest) hfree hs
  · rename_i bad
    rw [if_neg bad]
    have hacked := (acknowledge_acksOnly (s.picked rest) packet false).congested
    exact hs.deferred (hacked.trans hfree)

theorem Deferred.collect (h : s.Deferred b) : Deferred (s.collect b).1 (s.collect b).2 := by
  have hacks := collect_acksOnly s b
  intro packet hheld
  obtain ⟨t, htransfer, hdefers⟩ := h packet (hacks.pending ▸ hheld)
  exact ⟨t, (transfer?_congr hacks.terms packet).trans htransfer, hdefers⟩

theorem deferred_drain (hs : s.Poised) (h : s.Deferred b) :
    Deferred (s.drain b).1 (s.drain b).2 := by
  refine drainQueue_rule (P := fun s b => s.Poised ∧ s.Deferred b) ?take ?held ?full ?done rfl
    ⟨hs, h⟩
  case take =>
    intro s b packet rest ⟨hs, _⟩ hqueue may
    have hready : (s.ready b).Poised := ((collect_acksOnly s b).poised hs).congr rfl rfl rfl
    have htake := take_act (s.collect b).2 ((submitted_ready s b).trans hqueue) may
    exact ⟨htake.poised hready, deferred_take may.free (htake.poised hready)⟩
  -- what the session has collected, or knows of the queues, is no matter for a held packet
  case held => exact fun h _ => h.2.collect
  case full => exact fun h _ => h.2.collect
  case done => exact fun h _ _ => h.2.collect

/-! ## Settled sessions -/

/-- A session has done what there is to do, for whatever event. -/
structure Settled (s : Session) (b : Backend Ram) : Prop where
  poised : s.Poised
  drained : s.Drained b
  deferred : s.Deferred b

theorem settled_drain (hs : s.Poised) (hid : s.mailbox < b.mailboxes.length)
    (h : s.Deferred b) : Settled (s.drain b).1 (s.drain b).2 where
  poised := (drain_acts s b).poised hs
  drained := drained_drain hid
  deferred := deferred_drain hs h

theorem settled_resume (hs : s.Poised) (hid : s.mailbox < b.mailboxes.length) :
    Settled (s.resume b).1 (s.resume b).2 := by
  have hpoised := (resume_acts hs b).poised hs
  have hs₁ := (Act.collect s b).poised hs
  have hid₁ := (Act.collect s b).mailbox_lt hid
  have hmailbox : (s.collect b).1.mailbox = s.mailbox :=
    congrArg Terms.mailbox (Act.collect s b).terms_eq
  have hcollected := completions_collect (b := b) hid
  rw [resume] at hpoised ⊢
  generalize s.collect b = c at hpoised hs₁ hid₁ hmailbox hcollected ⊢
  obtain ⟨s₁, b₁⟩ := c
  dsimp only at hpoised hs₁ hid₁ hmailbox hcollected ⊢
  cases hheld : s₁.pending with
  | none =>
    have hfree : s₁.driverCongested = false := by
      rw [hs₁.congested, hheld]
      rfl
    exact settled_drain hs₁ hid₁ (hs₁.deferred hfree)
  | some packet =>
    rw [hheld] at hpoised
    dsimp only at hpoised ⊢
    rw [show ({ s₁ with pending := none, driverCongested := false } : Session) = s₁.unheld
      from rfl] at hpoised ⊢
    have hretry := retry_act hs₁ b₁ hheld
    have hs₂ := hretry.poised hs₁
    have hdeferred := deferred_dispatch (s := s₁.unheld) rfl hs₂
    split
    · -- refused again: the session stops at once, with what it collected before
      rename_i hcong
      obtain ⟨t, htransfer, hdefers⟩ := defers_of_congested (s := s₁.unheld) rfl hcong
      refine ⟨hs₂, ?_, hdeferred⟩
      rw [dispatch_of_defers hdefers htransfer]
      exact ⟨hmailbox ▸ hcollected, fun hfree => absurd hfree Bool.noConfusion,
        fun hfree => absurd hfree Bool.noConfusion⟩
    · exact settled_drain hs₂ (hretry.mailbox_lt hid₁) hdeferred

theorem Drained.remind (h : s.Drained b) (ids : List Nat) : s.Drained (b.remind ids) :=
  ⟨h.collected, h.gauged, h.stopped⟩

theorem Settled.remind (h : s.Settled b) (ids : List Nat) : s.Settled (b.remind ids) where
  poised := h.poised
  drained := h.drained.remind ids
  deferred packet hheld :=
    let ⟨t, htransfer, hdefers⟩ := h.deferred packet hheld
    ⟨t, htransfer, hdefers.remind ids⟩

/-- Trying again what a settled session holds does no more than remind the driver. -/
theorem Settled.resume_eq (h : s.Settled b) :
    ∃ ids, (∀ id ∈ ids, id = s.mailbox) ∧ s.resume b = (s, b.remind ids) := by
  rw [resume, collect_of_empty h.drained.collected]
  dsimp only
  cases hheld : s.pending with
  | none =>
    refine ⟨[], by simp, ?_⟩
    rw [remind_nil]
    exact h.drained.drain_eq
  | some packet =>
    obtain ⟨t, htransfer, hdefers⟩ := h.deferred packet hheld
    have hcong : s.driverCongested = true := by
      rw [h.poised.congested, hheld]
      rfl
    -- taken in hand, refused and held again, the packet leaves the session as it was
    have hsame : ({ s.unheld with driverCongested := true, pending := some packet } : Session) =
        s := by
      rw [← hcong, ← hheld]
      rfl
    have hdispatch := dispatch_of_defers (s := s.unheld) hdefers htransfer
    rw [hsame] at hdispatch
    refine ⟨[s.mailbox], by simp, ?_⟩
    dsimp only
    rw [show ({ s with pending := none, driverCongested := false } : Session) = s.unheld from rfl,
      hdispatch, if_pos hcong]
    rfl

/-- A settled session does nothing but remind the driver, whatever it is woken for. -/
theorem Settled.process_eq (h : s.Settled b) (event : Event) :
    ∃ ids, (∀ id ∈ ids, id = s.mailbox) ∧ s.process b event = (s, b.remind ids) := by
  cases event with
  | submitted =>
    refine ⟨[], by simp, ?_⟩
    rw [remind_nil]
    exact h.drained.drain_eq
  | ackFreed => exact h.resume_eq
  | completion => exact h.resume_eq

end Session

/-! ## Systems -/

namespace System

open Session

section Device

variable {δ : Type} [Device δ] {sys : System δ} {seat : Nat} {s : Session}

/-- After the work of an event the session is on its seat again, with the backend it worked on. -/
theorem step_process_some (hs : sys.session? seat = some s) (event : Event) :
    (sys.step (.process seat event)).1.session? seat = some (s.process sys.mux.backend event).1 ∧
      (sys.step (.process seat event)).1.mux.backend = (s.process sys.mux.backend event).2 := by
  have hlt : seat < sys.seats.length := (List.getElem?_eq_some_iff.1 (seat_of_session? hs)).1
  simp only [step, work, hs, withSession, and_true]
  rw [session?, List.getElem?_set_self hlt]
  rfl

/-- An event that leaves its session alone changes at most the backend. -/
theorem step_process_eq (hs : sys.session? seat = some s) {event : Event} {b : Backend δ}
    (h : s.process sys.mux.backend event = (s, b)) :
    (sys.step (.process seat event)).1 = { sys with mux.backend := b } := by
  have hseat := seat_of_session? hs
  have hseats : sys.seats.set seat (.active s) = sys.seats := by
    refine List.ext_getElem? fun i => ?_
    rw [List.getElem?_set]
    by_cases hi : seat = i
    · subst hi
      have hlt : seat < sys.seats.length := (List.getElem?_eq_some_iff.1 hseat).1
      rw [if_pos rfl, if_pos hlt, hseat]
    · rw [if_neg hi]
  simp only [step, work, hs, h, withSession, hseats]

/-- An event that is raised for a seat without a session is nobody's. -/
theorem step_process_none (hs : sys.session? seat = none) (event : Event) :
    (sys.step (.process seat event)).1 = sys := by
  simp only [step, work, hs]

theorem runSteps_process_none (hs : sys.session? seat = none) (events : List Event) :
    sys.runSteps (events.map (.process seat)) = sys := by
  induction events with
  | nil => rfl
  | cons event events ih =>
    rw [List.map_cons, runSteps, List.foldl_cons, step_process_none hs]
    exact ih

/-- Whatever the driver, working through the submit queue again changes nothing. -/
theorem runSteps_of_drained (hs : sys.session? seat = some s) (h : s.Drained sys.mux.backend)
    {events : List Event} (hevents : ∀ event ∈ events, event = .submitted) :
    sys.runSteps (events.map (.process seat)) = sys := by
  induction events with
  | nil => rfl
  | cons event events ih =>
    have hprocess : s.process sys.mux.backend event = (s, sys.mux.backend) := by
      rw [hevents event List.mem_cons_self]
      exact h.drain_eq
    rw [List.map_cons, runSteps, List.foldl_cons, step_process_eq hs hprocess]
    exact ih fun e he => hevents e (List.mem_cons_of_mem event he)

end Device

variable {sys : System Ram} {seat : Nat} {s : Session}

/-- The system whose driver has more mailboxes to wake. -/
def remind (sys : System Ram) (ids : List Nat) : System Ram :=
  { sys with mux.backend := sys.mux.backend.remind ids }

theorem remind_nil (sys : System Ram) : sys.remind [] = sys := by
  rw [remind, Backend.remind_nil]

theorem remind_remind (sys : System Ram) (ids more : List Nat) :
    (sys.remind ids).remind more = sys.remind (ids ++ more) := by
  simp only [remind, Backend.remind_remind]

/-- Whatever a settled session is woken for, and however often, the driver is reminded at most. -/
theorem runSteps_of_settled (hs : sys.session? seat = some s) (h : s.Settled sys.mux.backend)
    (events : List Event) :
    ∃ ids, (∀ id ∈ ids, id = s.mailbox) ∧
      sys.runSteps (events.map (.process seat)) = sys.remind ids := by
  -- on the events; a driver that was reminded leaves the session as settled as before
  induction events generalizing sys with
  | nil => exact ⟨[], by simp, (remind_nil sys).symm⟩
  | cons event events ih =>
    obtain ⟨ids, hids, hprocess⟩ := h.process_eq event
    have hstep : (sys.step (.process seat event)).1 = sys.remind ids := step_process_eq hs hprocess
    have hs' : (sys.remind ids).session? seat = some s := hs
    obtain ⟨more, hmore, hrest⟩ := ih hs' (h.remind ids)
    refine ⟨ids ++ more, ?_, ?_⟩
    · intro id hid
      rcases List.mem_append.1 hid with hid | hid
      · exact hids id hid
      · exact hmore id hid
    · rw [List.map_cons, runSteps, List.foldl_cons, hstep, ← remind_remind]
      exact hrest

end System

/-! ## Courses -/

namespace Course

open BlockMux.System Session

/-- Whatever has happened before, let a session do the work of an event, and raise events for it
again, in any order: whichever there are, or only those of the submit queue if it was woken for the
submit queue. Then nothing changes, neither in the session and its queues, nor in any other session,
nor in the driver, its queue, its log, its bytes or those of the buffers, nor in the mailboxes. The
driver may only note some more times that it is to wake this session, and not even that if it was
woken for the submit queue. -/
theorem wakeups_idle (c : Course Ram) (seat : Nat) (first : Event) (again : List Event)
    (hagain : first = .submitted → ∀ event ∈ again, event = .submitted) :
    let sys := (System.create c.mux).runSteps (c.steps ++ [.process seat first])
    ∃ reminders : List Nat,
      (∀ id ∈ reminders, first ≠ .submitted ∧ ∃ s, sys.session? seat = some s ∧ id = s.mailbox) ∧
      sys.runSteps (again.map (.process seat)) =
        { sys with
          mux.backend.driver.waiters := sys.mux.backend.driver.waiters ++ reminders } := by
  intro sys
  have hsys : sys =
      (((System.create c.mux).runSteps c.steps).step (.process seat first)).1 :=
    runSteps_concat _ _ _
  have ho := (Orderly.create c.mux).runSteps c.steps
  generalize (System.create c.mux).runSteps c.steps = before at hsys ho
  cases hs : before.session? seat with
  | none =>
    -- there is nobody to be woken
    rw [step_process_none hs] at hsys
    refine ⟨[], by simp, ?_⟩
    rw [runSteps_process_none (hsys ▸ hs), List.append_nil]
  | some s =>
    have hpoised := ho.poised hs
    have hid := ho.mailbox_lt hs
    obtain ⟨hworked, hbackend⟩ := step_process_some hs first
    rw [← hsys] at hworked hbackend
    by_cases hfirst : first = .submitted
    · have hdrained : (s.process before.mux.backend first).1.Drained sys.mux.backend := by
        rw [hbackend, hfirst]
        exact drained_drain hid
      refine ⟨[], by simp, ?_⟩
      rw [runSteps_of_drained hworked hdrained (hagain hfirst), List.append_nil]
    · have hsettled : (s.process before.mux.backend first).1.Settled sys.mux.backend := by
        rw [hbackend]
        cases first with
        | submitted => exact absurd rfl hfirst
        | ackFreed => exact settled_resume hpoised hid
        | completion => exact settled_resume hpoised hid
      obtain ⟨reminders, hown, hrun⟩ := runSteps_of_settled hworked hsettled again
      exact ⟨reminders, fun id hid => ⟨hfirst, _, hworked, hown id hid⟩, hrun⟩

/-- A session whose second write finds the queue of the device full. -/
def crowdedOut : Course Ram where
  driver := { contents := Memory.zeroed 128, blockSize := 16, queueDepth := some 1 }
  config := { rules := [{}], queueSize := 2 }
  steps := [.openSession "ram_quota=8192,tx_buf_size=32" [],
    .client 0 (.submit ⟨.write, 0, 1, 0, 16, false⟩),
    .client 0 (.submit ⟨.write, 1, 1, 16, 16, false⟩), .process 0 .submitted]

/-- Woken for room that is not there, the session tries its held packet again each time. -/
theorem wakeups_idle_crowdedOut :
    let sys := (System.create crowdedOut.mux).runSteps
      (crowdedOut.steps ++ [.process 0 .completion])
    let again := [.ackFreed, .submitted, .completion]
    sys.mux.backend.driver.waiters = [0, 0] ∧
      (sys.runSteps (again.map (.process 0))).mux.backend.driver.waiters = [0, 0, 0, 0] ∧
      ∃ reminders : List Nat,
        (∀ id ∈ reminders, Event.completion ≠ .submitted ∧
          ∃ s, sys.session? 0 = some s ∧ id = s.mailbox) ∧
        sys.runSteps (again.map (.process 0)) =
          { sys with
            mux.backend.driver.waiters := sys.mux.backend.driver.waiters ++ reminders } :=
  ⟨by decide +kernel, by decide +kernel,
    wakeups_idle crowdedOut 0 .completion [.ackFreed, .submitted, .completion] (by decide)⟩

end Course
end BlockMux
