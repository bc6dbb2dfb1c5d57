import BlockMux.Proofs.Course
import BlockMux.Proofs.Custody

/-!
# Every packet is acknowledged exactly once

With a driver that keeps custody of requests, the packets that a session takes off its submit queue
are at any time acknowledged or outstanding: held by the session, in the driver's custody, or
finished and not collected yet. An acknowledgement is never lost, because a packet is only taken
when a slot is left for it.

Main statements:

* `Driven`, `driven_submit`, `driven_foreign` — what the driver takes, finishes and sends.
* `Books.act` — the books of a session balance after every act.
* `acknowledged_once` — the ledger at every point of every course of events.
-/

namespace BlockMux

/-- The packet without the mark of success. -/
def Packet.unmarked (packet : Packet) : Packet := { packet with succeeded := false }

/-- The acknowledgement of a finished request. -/
def Completion.ack (completion : Completion) : Packet :=
  { completion.packet with succeeded := completion.success }

/-- The requests that report to a mailbox. -/
def Request.toMailbox (id : Nat) (requests : List Request) : List Request :=
  requests.filter (·.mailbox == id)

/-- The requests that the driver took, in order. -/
def Exchange.takenRequests (log : List Exchange) : List Request :=
  log.flatMap fun e => e.request.takenWith e.outcome

/-- The packets that the driver refused for good, in order. -/
def Exchange.refusedPackets (log : List Exchange) : List Packet :=
  (log.filter (·.outcome == .ioError)).map (·.request.packet)

theorem Exchange.takenRequests_concat (log : List Exchange) (e : Exchange) :
    takenRequests (log ++ [e]) = takenRequests log ++ e.request.takenWith e.outcome := by
  rw [takenRequests, List.flatMap_append, List.flatMap_singleton]
  rfl

theorem Exchange.refusedPackets_concat (log : List Exchange) (e : Exchange) :
    refusedPackets (log ++ [e]) =
      refusedPackets log ++ if e.outcome = .ioError then [e.request.packet] else [] := by
  by_cases h : e.outcome = .ioError
  · simp [refusedPackets, h]
  · have hother : (e.outcome == .ioError) = false := by simpa using h
    simp [refusedPackets, h, hother]

/-- The completions that notices bring to a mailbox, in order. -/
def Notice.completionsFor (id : Nat) (notices : List Notice) : List Completion :=
  notices.filterMap (completionFor id)

theorem Notice.completionsFor_append (id : Nat) (l l' : List Notice) :
    completionsFor id (l ++ l') = completionsFor id l ++ completionsFor id l' :=
  List.filterMap_append

/-- The completions for a mailbox are those of the finished requests that report to it. -/
theorem Notice.packets_completionsFor (id : Nat) (notices : List Notice) :
    (completionsFor id notices).map (·.packet) =
      (Request.toMailbox id (finished notices)).map (·.packet) := by
  unfold completionsFor
  induction notices with
  | nil => rfl
  | cons notice notices ih =>
    cases notice with
    | ready other => exact ih
    | completed request success =>
      -- both sides keep the request exactly when it reports to this mailbox
      by_cases hfor : request.mailbox = id
      · have hhead : completionFor id (.completed request success) =
            some ⟨request.packet, success⟩ := if_pos hfor
        rw [List.filterMap_cons_some hhead, List.map_cons, ih]
        simp [finished, finished?, Request.toMailbox, hfor]
      · have hhead : completionFor id (.completed request success) = none := if_neg hfor
        rw [List.filterMap_cons_none hhead, ih]
        simp [finished, finished?, Request.toMailbox, hfor]

/-! ## What the driver does -/

namespace Backend

variable {δ : Type} [Device δ]

/-- A step of the driver, as mailbox `id` sees it: it takes the requests `taken`, sends `new`, and
holds `held'` afterwards. -/
structure Driven (custody : Custody δ) (id : Nat) (b b' : Backend (Recorded δ))
    (held held' taken : List Request) (new : List Notice) : Prop where
  holds : custody.Holds b'.driver.driver held'
  settled : (Notice.finished new ++ held').Perm (taken ++ held)
  notices : b'.driver.notices = b.driver.notices ++ new
  taken : Exchange.takenRequests b'.driver.exchanges =
    Exchange.takenRequests b.driver.exchanges ++ taken
  length : b.mailboxes.length ≤ b'.mailboxes.length
  mailbox : id < b.mailboxes.length → (b.mailbox id).isOpen = true →
    (b'.mailbox id).isOpen = true ∧ (b'.mailbox id).completions =
      (b.mailbox id).completions ++ Notice.completionsFor id new

variable {custody : Custody δ} {id : Nat} {b b' : Backend (Recorded δ)} {held : List Request}

/-- A change that the driver has no part in. -/
theorem Driven.still (hholds : custody.Holds b'.driver.driver held)
    (hnotices : b'.driver.notices = b.driver.notices)
    (hexchanges : b'.driver.exchanges = b.driver.exchanges)
    (hlength : b.mailboxes.length ≤ b'.mailboxes.length)
    (hmailbox : id < b.mailboxes.length → b'.mailbox id = b.mailbox id) :
    Driven custody id b b' held held [] [] := by
  refine ⟨hholds, .refl _, by rw [hnotices, List.append_nil], by rw [hexchanges, List.append_nil],
    hlength, fun hid hopen => ?_⟩
  rw [hmailbox hid]
  exact ⟨hopen, (List.append_nil _).symm⟩

theorem driven_submit (hholds : custody.Holds b.driver.driver held) (id : Nat) (t : Transfer)
    (request : Request) :
    ∃ held' new, Driven custody id b (b.submit t request).1 held held'
      (request.takenWith (b.submit t request).2) new := by
  obtain ⟨held', hholds', hsettled⟩ := custody.submit hholds b.arena t request
  refine ⟨held', (Driver.submit b.driver.driver b.arena t request).notices, ?_, hsettled, ?_, ?_,
    Nat.le_of_eq (length_submit b t request).symm, fun hid hopen => ?_⟩
  · rw [driver_submit]
    exact hholds'
  · rw [driver_submit]
    rfl
  · rw [exchanges_submit, Exchange.takenRequests_concat]
  · exact completions_submit hid hopen t request

theorem driven_advance (hholds : custody.Holds b.driver.driver held) (id : Nat)
    (step : DeviceStep) :
    ∃ held' new, Driven custody id b (b.advance step).1 held held' [] new := by
  obtain ⟨held', hholds', hsettled⟩ := custody.advance hholds b.arena step
  refine ⟨held', (Device.advance b.driver.driver b.arena step).notices, ?_, hsettled, ?_, ?_,
    Nat.le_of_eq (length_advance b step).symm, fun hid hopen => ?_⟩
  · rw [driver_advance]
    exact hholds'
  · rw [driver_advance]
    rfl
  · rw [exchanges_advance, List.append_nil]
  · exact completions_advance hid hopen step

theorem driven_allocate (hholds : custody.Holds b.driver.driver held) {size : Nat}
    {buffer : SharedBuffer} (h : b.allocate size = some (b', buffer)) :
    Driven custody id b b' held held [] [] := by
  have hmailboxes := mailboxes_allocate h
  obtain ⟨⟨d, arena, buffer'⟩, hfound, heq⟩ := Option.map_eq_some_iff.1 h
  obtain ⟨⟨inner, rest⟩, hinner, hd⟩ := Option.map_eq_some_iff.1 hfound
  simp only [Prod.mk.injEq] at heq hd
  obtain ⟨rfl, -, -⟩ := hd
  obtain ⟨rfl, rfl⟩ := heq
  refine .still (custody.allocate hholds hinner) rfl rfl (Nat.le_refl _) fun _ => rfl

/-- Reading a completion event leaves the completions. -/
theorem driven_clearSignals (hholds : custody.Holds b.driver.driver held) :
    Driven custody id b (b.modifyMailbox id Mailbox.clearSignals) held held [] [] := by
  refine ⟨hholds, .refl _, (List.append_nil _).symm, (List.append_nil _).symm,
    Nat.le_of_eq (length_modifyMailbox _ _ _).symm, fun hid hopen => ?_⟩
  rw [mailbox_modifyMailbox hid]
  exact ⟨hopen, (List.append_nil _).symm⟩

/-- What is foreign to a mailbox takes no request that reports to it. -/
theorem driven_foreign (hholds : custody.Holds b.driver.driver held) (h : Foreign id b b') :
    ∃ held' taken new, Driven custody id b b' held held' taken new ∧
      Request.toMailbox id taken = [] := by
  cases h with
  | @submit t request other =>
    obtain ⟨held', new, h⟩ := driven_submit hholds id t request
    refine ⟨held', _, new, h, List.filter_eq_nil_iff.2 fun r hr => ?_⟩
    -- what a request of another mailbox makes the driver take is for that mailbox
    have hr' : r = request := by
      cases hout : (b.submit t request).2 <;> simp_all [Request.takenWith]
    simpa [hr'] using other
  | advance step =>
    obtain ⟨held', new, h⟩ := driven_advance hholds id step
    exact ⟨held', [], new, h, rfl⟩
  | sync =>
    exact ⟨held, [], [],
      .still (custody.sync hholds) rfl rfl (Nat.le_refl _) (fun _ => rfl), rfl⟩
  | allocate h => exact ⟨held, [], [], driven_allocate hholds h, rfl⟩
  | release buffer =>
    exact ⟨held, [], [],
      .still (custody.release hholds buffer) rfl rfl (Nat.le_refl _) (fun _ => rfl), rfl⟩
  | addMailbox =>
    exact ⟨held, [], [], .still hholds rfl rfl (by simp [addMailbox]) mailbox_addMailbox, rfl⟩
  | mailbox hne f =>
    exact ⟨held, [], [], .still hholds rfl rfl (Nat.le_of_eq (length_modifyMailbox _ _ _).symm)
      (fun _ => mailbox_modifyMailbox_ne hne f), rfl⟩
  | arena arena => exact ⟨held, [], [], .still hholds rfl rfl (Nat.le_refl _) (fun _ => rfl), rfl⟩

/-- What a mailbox has waiting changes by what the driver takes for it. -/
theorem Driven.waiting {held' taken : List Request} {new : List Notice}
    (h : Driven custody id b b' held held' taken new) (hid : id < b.mailboxes.length)
    (hopen : (b.mailbox id).isOpen = true) :
    ((Request.toMailbox id held').map (·.packet) ++
        (b'.mailbox id).completions.map (·.packet)).Perm
      ((Request.toMailbox id taken).map (·.packet) ++
        ((Request.toMailbox id held).map (·.packet) ++
          (b.mailbox id).completions.map (·.packet))) := by
  -- finished and still held make up what was taken and held, for each mailbox alike
  have hsettled := (h.settled.filter (·.mailbox == id)).map (·.packet)
  have hnew := Notice.packets_completionsFor id new
  rw [(h.mailbox hid hopen).2, List.map_append, hnew]
  simp only [Request.toMailbox, List.filter_append, List.map_append] at hsettled ⊢
  refine List.perm_iff_count.2 fun packet => ?_
  have hcount := hsettled.count_eq packet
  simp only [List.count_append] at hcount ⊢
  omega

end Backend

/-! ## The books of a session -/

namespace Session

/-- The packets that a session has taken and not acknowledged: the one it holds, those in the
custody of the driver, and those whose completions it has not collected. -/
def outstanding {δ : Type} (s : Session) (b : Backend δ) (held : List Request) : List Packet :=
  s.pending.toList ++ ((Request.toMailbox s.mailbox held).map (·.packet) ++
    (b.mailbox s.mailbox).completions.map (·.packet))

variable {δ : Type} [Device δ]

/-- The books of a session: `hand` is the packet between two places, `failed` the packets
acknowledged without the driver. -/
structure Books (custody : Custody δ) (submitted popped hand taken failed : List Packet)
    (held : List Request) (s : Session) (b : Backend (Recorded δ)) : Prop where
  mailbox_lt : s.mailbox < b.mailboxes.length
  isOpen : (b.mailbox s.mailbox).isOpen = true
  queue : submitted = taken ++ s.channel.submitted
  holds : custody.Holds b.driver.driver held
  charged : (Notice.finished b.driver.notices ++ held).Perm
    (Exchange.takenRequests b.driver.exchanges)
  /-- Every taken packet is counted until it is acknowledged. -/
  credit : s.inFlight = (s.outstanding b held).length + hand.length
  /-- For every packet counted, a slot is left to acknowledge it. -/
  room : s.inFlight + s.channel.acked.length ≤ s.channel.capacity
  balance : ((popped ++ s.channel.acked ++ (s.outstanding b held ++ hand)).map
    Packet.unmarked).Perm (taken.map Packet.unmarked)
  marks : (popped ++ s.channel.acked ++
    (b.mailbox s.mailbox).completions.map Completion.ack).Perm
      ((Notice.completionsFor s.mailbox b.driver.notices).map Completion.ack ++
        failed.map Packet.unmarked)

variable {custody : Custody δ} {submitted popped hand taken failed : List Packet}
  {held : List Request} {s s' : Session} {b b' : Backend (Recorded δ)}

/-- The driver moves: what it takes for the session leaves the session's hand. -/
theorem Books.driven {took held' : List Request} {new : List Notice}
    (h : Books custody submitted popped
      ((Request.toMailbox s.mailbox took).map (·.packet) ++ hand) taken failed held s b)
    (hdriven : Backend.Driven custody s.mailbox b b' held held' took new) :
    Books custody submitted popped hand taken failed held' s b' := by
  -- the driver moves packets from the hand into custody, and from custody into the mailbox
  obtain ⟨hopen, hcompletions⟩ := hdriven.mailbox h.mailbox_lt h.isOpen
  have hwaiting := hdriven.waiting h.mailbox_lt h.isOpen
  refine ⟨Nat.lt_of_lt_of_le h.mailbox_lt hdriven.length, hopen, h.queue, hdriven.holds, ?_, ?_,
    h.room, ?_, ?_⟩
  · -- charged: what the driver settles it has taken before
    rw [hdriven.notices, hdriven.taken, Notice.finished_append]
    refine List.perm_iff_count.2 fun request => ?_
    have hold := h.charged.count_eq request
    have hnew := hdriven.settled.count_eq request
    simp only [List.count_append] at hold hnew ⊢
    omega
  · -- credit: a move of the driver loses no packet that is counted
    have hcredit := h.credit
    have hlength := hwaiting.length_eq
    simp only [outstanding, List.length_append] at hcredit hlength ⊢
    omega
  · -- balance: only the place of a packet changes, and the places are added up
    refine List.perm_iff_count.2 fun packet => ?_
    have hbalance := h.balance.count_eq packet
    have hmoved := (hwaiting.map Packet.unmarked).count_eq packet
    simp only [outstanding, List.map_append, List.count_append] at hbalance hmoved ⊢
    omega
  · -- marks: the new completions are those of the new notices
    rw [hdriven.notices, hcompletions, Notice.completionsFor_append, List.map_append,
      List.map_append]
    refine List.perm_iff_count.2 fun packet => ?_
    have hmarks := h.marks.count_eq packet
    simp only [List.count_append] at hmarks ⊢
    omega

/-- The packet in hand is counted, so a slot is kept for it. -/
theorem Books.slot {packet : Packet}
    (h : Books custody submitted popped [packet] taken failed held s b) :
    s.channel.acked.length < s.channel.capacity := by
  have hcredit := h.credit
  have hroom := h.room
  simp only [List.length_singleton] at hcredit
  omega

/-- Every completion is counted, so a slot is kept for each of them. -/
theorem Books.slots (h : Books custody submitted popped hand taken failed held s b) :
    s.channel.acked.length + (b.mailbox s.mailbox).completions.length ≤ s.channel.capacity := by
  have hcredit := h.credit
  have hroom := h.room
  simp only [outstanding, List.length_append, List.length_map] at hcredit
  omega

/-- The session acknowledges the packet in hand as failed. -/
theorem Books.fail {packet : Packet}
    (h : Books custody submitted popped [packet] taken failed held s b) :
    Books custody submitted popped [] taken (failed ++ [packet]) held (s.acknowledge packet false)
      b := by
  rw [acknowledge_of_room h.slot]
  refine ⟨h.mailbox_lt, h.isOpen, h.queue, h.holds, h.charged, ?_, ?_, ?_, ?_⟩
  · have hcredit := h.credit
    simp only [outstanding, List.length_singleton, List.length_nil] at hcredit ⊢
    omega
  · -- room: the slot is taken as the credit is given up
    have hcredit := h.credit
    have := h.room
    simp only [List.length_append, List.length_singleton] at hcredit ⊢
    omega
  · refine List.perm_iff_count.2 fun p => ?_
    have hbalance := h.balance.count_eq p
    simp only [outstanding, List.map_append, List.count_append, List.map_nil,
      List.count_nil] at hbalance ⊢
    -- a failed acknowledgement is the packet without its mark
    have hsame : ([{ packet with succeeded := false }] : List Packet).map Packet.unmarked =
        [packet].map Packet.unmarked := rfl
    rw [hsame]
    omega
  · refine List.perm_iff_count.2 fun p => ?_
    have hmarks := h.marks.count_eq p
    rw [List.map_append]
    simp only [List.count_append] at hmarks ⊢
    have hsame : ([{ packet with succeeded := false }] : List Packet) =
        [packet].map Packet.unmarked := rfl
    rw [hsame]
    omega

/-- With a slot for each of them, all completions are acknowledged. -/
theorem acknowledgeAll_of_room {s : Session} {completions : List Completion}
    (h : s.channel.acked.length + completions.length ≤ s.channel.capacity) :
    (s.acknowledgeAll completions).channel.acked =
        s.channel.acked ++ completions.map Completion.ack ∧
      (s.acknowledgeAll completions).inFlight = s.inFlight - completions.length := by
  induction completions generalizing s with
  | nil => exact ⟨(List.append_nil _).symm, rfl⟩
  | cons completion completions ih =>
    rw [List.length_cons] at h
    have hroom : s.channel.acked.length < s.channel.capacity := by omega
    have hstep : s.acknowledgeAll (completion :: completions) =
        (s.acknowledge completion.packet completion.success).acknowledgeAll completions := rfl
    rw [hstep, acknowledge_of_room hroom]
    obtain ⟨hacked, hinFlight⟩ := ih (s := { s with
      channel.acked := s.channel.acked ++ [completion.ack]
      channel.signals.ackAvailable := s.channel.signals.ackAvailable + 1
      inFlight := s.inFlight - 1 }) (by simp; omega)
    refine ⟨hacked.trans ?_, hinFlight.trans ?_⟩
    · simp only [List.append_assoc, List.map_cons]
      rfl
    · simp only [List.length_cons]
      omega

theorem Books.collect (h : Books custody submitted popped [] taken failed held s b) :
    Books custody submitted popped [] taken failed held (s.collect b).1 (s.collect b).2 := by
  have hacks := collect_acksOnly s b
  have hmailbox : (s.collect b).1.mailbox = s.mailbox := congrArg Terms.mailbox hacks.terms
  have hcapacity : (s.collect b).1.channel.capacity = s.channel.capacity :=
    congrArg Terms.capacity hacks.terms
  have hbox : (s.collect b).2.mailbox s.mailbox = (b.mailbox s.mailbox).empty :=
    Backend.mailbox_modifyMailbox h.mailbox_lt _
  have hcredit := h.credit
  have hroom := h.room
  simp only [outstanding, List.length_append, List.length_map, List.length_nil] at hcredit
  obtain ⟨hacked, hinFlight⟩ := acknowledgeAll_of_room h.slots
  -- the completions have moved from the mailbox to the acknowledgements
  have hout : (s.collect b).1.outstanding (s.collect b).2 held =
      s.pending.toList ++ (Request.toMailbox s.mailbox held).map (·.packet) := by
    rw [outstanding, hmailbox, hacks.pending, hbox]
    simp [Mailbox.empty]
  have hlength : (s.collect b).2.mailboxes.length = b.mailboxes.length :=
    Backend.length_modifyMailbox b s.mailbox Mailbox.empty
  refine ⟨?_, ?_, ?_, h.holds, h.charged, ?_, ?_, ?_, ?_⟩
  · rw [hmailbox, hlength]
    exact h.mailbox_lt
  · rw [hmailbox, hbox]
    exact h.isOpen
  · rw [hacks.submitted]
    exact h.queue
  · rw [hout, Session.collect, hinFlight]
    simp only [List.length_append, List.length_map, List.length_nil]
    omega
  · -- room: as many credits are given up as slots are taken
    rw [hcapacity, Session.collect, hinFlight, hacked]
    simp only [List.length_append, List.length_map]
    omega
  · have hbalance := h.balance
    rw [hout, Session.collect, hacked]
    refine List.perm_iff_count.2 fun p => ?_
    have hcount := hbalance.count_eq p
    -- the mark is what tells an acknowledgement from the packet of its completion
    have hsame : ((b.mailbox s.mailbox).completions.map Completion.ack).map Packet.unmarked =
        ((b.mailbox s.mailbox).completions.map (·.packet)).map Packet.unmarked := by
      simp only [List.map_map]
      rfl
    simp only [outstanding, List.map_append, List.count_append, hsame, List.map_nil,
      List.count_nil] at hcount ⊢
    omega
  · -- marks: the completions keep their marks as they become acknowledgements
    have hmarks := h.marks
    rw [hmailbox, hbox, Session.collect, hacked]
    simpa [Mailbox.empty, Backend.modifyMailbox] using hmarks

/-- The session takes the first packet of its queue in hand. -/
theorem Books.pick {packet : Packet} {rest : List Packet}
    (h : Books custody submitted popped [] taken failed held s b)
    (hqueue : s.channel.submitted = packet :: rest) (may : s.MayTake) :
    Books custody submitted popped [packet] (taken ++ [packet]) failed held (s.picked rest) b := by
  have hcredit := h.credit
  -- a packet is only taken while a free slot is not spoken for
  have hslots := may.room
  simp only [List.length_nil, Channel.ackSlotsFree] at hcredit hslots
  refine ⟨h.mailbox_lt, h.isOpen, ?_, h.holds, h.charged, ?_, ?_, ?_, h.marks⟩
  · rw [h.queue, hqueue, List.append_assoc]
    rfl
  · show s.inFlight + 1 = (s.outstanding b held).length + 1
    omega
  · show s.inFlight + 1 + s.channel.acked.length ≤ s.channel.capacity
    omega
  · refine List.perm_iff_count.2 fun p => ?_
    have hbalance := h.balance.count_eq p
    simp only [outstanding, picked, List.map_append, List.count_append, List.map_nil,
      List.count_nil] at hbalance ⊢
    omega

/-- The session takes the packet it held back in hand. -/
theorem Books.unhold {packet : Packet}
    (h : Books custody submitted popped [] taken failed held s b)
    (hheld : s.pending = some packet) :
    Books custody submitted popped [packet] taken failed held s.unheld b := by
  refine ⟨h.mailbox_lt, h.isOpen, h.queue, h.holds, h.charged, ?_, h.room, ?_, h.marks⟩
  · have hcredit := h.credit
    simp only [outstanding, unheld, hheld, Option.toList_some, Option.toList_none,
      List.length_append, List.length_singleton, List.length_nil] at hcredit ⊢
    omega
  · refine List.perm_iff_count.2 fun p => ?_
    have hbalance := h.balance.count_eq p
    simp only [outstanding, unheld, hheld, Option.toList_some, Option.toList_none,
      List.map_append, List.count_append, List.map_nil, List.count_nil] at hbalance ⊢
    omega

/-- The session holds the packet in hand. -/
theorem Books.hold {packet : Packet}
    (h : Books custody submitted popped [packet] taken failed held s b)
    (hfree : s.pending = none) :
    Books custody submitted popped [] taken failed held (s.answered packet .congested) b := by
  refine ⟨h.mailbox_lt, h.isOpen, h.queue, h.holds, h.charged, ?_, h.room, ?_, h.marks⟩
  · have hcredit := h.credit
    simp only [outstanding, answered, hfree, Option.toList_some, Option.toList_none,
      List.length_append, List.length_singleton, List.length_nil] at hcredit ⊢
    omega
  · refine List.perm_iff_count.2 fun p => ?_
    have hbalance := h.balance.count_eq p
    simp only [outstanding, answered, hfree, Option.toList_some, Option.toList_none,
      List.map_append, List.count_append, List.map_nil, List.count_nil] at hbalance ⊢
    omega

/-- The session asks the driver for the packet in hand. -/
theorem Books.ask {packet : Packet}
    (h : Books custody submitted popped [packet] taken failed held s b)
    (hfree : s.pending = none) (t : Transfer) :
    ∃ held', Books custody submitted popped [] taken
      (failed ++ if (b.submit t ⟨packet, s.mailbox⟩).2 = .ioError then [packet] else []) held'
      (s.answered packet (b.submit t ⟨packet, s.mailbox⟩).2)
      (b.submit t ⟨packet, s.mailbox⟩).1 := by
  obtain ⟨held', new, hdriven⟩ :=
    Backend.driven_submit h.holds s.mailbox t ⟨packet, s.mailbox⟩
  -- taken into custody, held back by the session, or acknowledged as failed
  cases houtcome : (b.submit t ⟨packet, s.mailbox⟩).2 with
  | dispatched =>
    rw [houtcome] at hdriven
    have htook : Request.toMailbox s.mailbox (Request.takenWith ⟨packet, s.mailbox⟩ .dispatched) =
        [⟨packet, s.mailbox⟩] := by simp [Request.takenWith, Request.toMailbox]
    -- the packet leaves the hand with the request
    have hnext : Books custody submitted popped [] taken failed held' s
        (b.submit t ⟨packet, s.mailbox⟩).1 := by
      refine Books.driven ?_ hdriven
      rw [htook]
      exact h
    refine ⟨held', ?_⟩
    rw [if_neg (by simp), List.append_nil]
    exact hnext
  | congested =>
    -- nothing was taken, so the packet is still in hand afterwards, and so below
    rw [houtcome] at hdriven
    have hnext : Books custody submitted popped [packet] taken failed held' s
        (b.submit t ⟨packet, s.mailbox⟩).1 := by
      refine Books.driven ?_ hdriven
      exact h
    refine ⟨held', ?_⟩
    rw [if_neg (by simp), List.append_nil]
    exact hnext.hold hfree
  | ioError =>
    rw [houtcome] at hdriven
    have hnext : Books custody submitted popped [packet] taken failed held' s
        (b.submit t ⟨packet, s.mailbox⟩).1 := by
      refine Books.driven ?_ hdriven
      exact h
    refine ⟨held', ?_⟩
    rw [if_pos rfl]
    exact hnext.fail

/-- The packets acknowledged without the driver are those that fail the checks and those that the
driver refused for good. -/
def Causes (s : Session) (b : Backend (Recorded δ)) (taken failed : List Packet) : Prop :=
  failed.Perm ((taken.filter fun packet => !s.accepts packet) ++
    Exchange.refusedPackets (b.askedFor s.mailbox))

/-- The books balance with nothing in hand, and every failure has a cause. -/
def Balanced (custody : Custody δ) (submitted popped : List Packet) (s : Session)
    (b : Backend (Recorded δ)) : Prop :=
  ∃ taken failed held, Books custody submitted popped [] taken failed held s b ∧
    s.Causes b taken failed

omit [Device δ] in
theorem Causes.congr (h : s.Causes b taken failed) (hterms : s'.terms = s.terms)
    (hasked : b'.askedFor s.mailbox = b.askedFor s.mailbox) : s'.Causes b' taken failed := by
  have hmailbox : s'.mailbox = s.mailbox := congrArg Terms.mailbox hterms
  unfold Causes
  rw [hmailbox, hasked, funext (accepts_congr hterms)]
  exact h

/-- An answer of the driver is a cause of a failure if it refuses the packet for good. -/
theorem Causes.ask {packet : Packet} (h : s.Causes b taken failed) (t : Transfer)
    (hterms : s'.terms = s.terms) :
    s'.Causes (b.submit t ⟨packet, s.mailbox⟩).1 taken
      (failed ++ if (b.submit t ⟨packet, s.mailbox⟩).2 = .ioError then [packet] else []) := by
  have hmailbox : s'.mailbox = s.mailbox := congrArg Terms.mailbox hterms
  unfold Causes at h ⊢
  rw [hmailbox, Backend.askedFor_submit, funext (accepts_congr hterms)]
  rw [Exchange.refusedPackets_concat, ← List.append_assoc]
  exact h.append_right _

theorem Balanced.act (h : Balanced custody submitted popped s b) (hs : s.Poised)
    (act : s.Act b s' b') : Balanced custody submitted popped s' b' := by
  obtain ⟨taken, failed, held, hbooks, hcauses⟩ := h
  cases act with
  | collect =>
    exact ⟨taken, failed, held, hbooks.collect, hcauses.congr (collect_acksOnly s b).terms rfl⟩
  | gauge => exact ⟨taken, failed, held, { hbooks with }, hcauses.congr rfl rfl⟩
  | @reject packet rest _ queue may bad =>
    refine ⟨taken ++ [packet], failed ++ [packet], held, (hbooks.pick queue may).fail, ?_⟩
    have hterms := (acknowledge_acksOnly (s.picked rest) packet false).terms
    refine Causes.congr (s := s) ?_ hterms rfl
    unfold Causes at hcauses ⊢
    -- the packet that failed its checks is its own cause
    have hfilter : [packet].filter (fun packet => !s.accepts packet) = [packet] := by simp [bad]
    rw [List.filter_append, hfilter]
    refine List.perm_iff_count.2 fun p => ?_
    have hcount := hcauses.count_eq p
    simp only [List.count_append] at hcount ⊢
    omega
  | @take packet rest t _ queue may good ht =>
    obtain ⟨held', hasked⟩ := (hbooks.pick queue may).ask (hs.pending_eq_none may) t
    have hfilter : [packet].filter (fun packet => !s.accepts packet) = [] := by simp [good]
    have hcauses' : s.Causes b (taken ++ [packet]) failed := by
      unfold Causes
      rw [List.filter_append, hfilter, List.append_nil]
      exact hcauses
    exact ⟨_, _, held', hasked, hcauses'.ask t (terms_answered (s.picked rest) packet _)⟩
  | @retry packet t _ hheld good ht =>
    obtain ⟨held', hasked⟩ := (hbooks.unhold hheld).ask rfl t
    exact ⟨_, _, held', hasked, hcauses.ask t (terms_answered s.unheld packet _)⟩
  | clear _ event =>
    cases event with
    | submitted => exact ⟨taken, failed, held, { hbooks with }, hcauses.congr rfl rfl⟩
    | ackFreed => exact ⟨taken, failed, held, { hbooks with }, hcauses.congr rfl rfl⟩
    | completion =>
      exact ⟨taken, failed, held, hbooks.driven (Backend.driven_clearSignals hbooks.holds),
        hcauses.congr rfl rfl⟩
  | sync =>
    have hstill : Backend.Driven custody s.mailbox b b.sync held held [] [] :=
      .still (custody.sync hbooks.holds) rfl rfl (Nat.le_refl _) fun _ => rfl
    exact ⟨taken, failed, held, hbooks.driven hstill, hcauses.congr rfl rfl⟩

theorem Balanced.foreign (h : Balanced custody submitted popped s b)
    (hforeign : Backend.Foreign s.mailbox b b') : Balanced custody submitted popped s b' := by
  obtain ⟨taken, failed, held, hbooks, hcauses⟩ := h
  obtain ⟨held', took, new, hdriven, hnone⟩ := Backend.driven_foreign hbooks.holds hforeign
  refine ⟨taken, failed, held', Books.driven ?_ hdriven,
    hcauses.congr rfl (Backend.askedFor_foreign hforeign)⟩
  rw [hnone]
  exact hbooks

theorem Balanced.client {sub' pop' : List Packet} {channel : Channel}
    (h : Balanced custody submitted popped s b) (used : s.channel.Used channel sub' pop') :
    Balanced custody (submitted ++ sub') (popped ++ pop') { s with channel := channel } b := by
  obtain ⟨taken, failed, held, hbooks, hcauses⟩ := h
  have hterms := terms_used used
  have hacked : popped ++ s.channel.acked = popped ++ pop' ++ channel.acked := by
    rw [used.acked, List.append_assoc]
  refine ⟨taken, failed, held, ?_, hcauses.congr hterms rfl⟩
  refine ⟨hbooks.mailbox_lt, hbooks.isOpen, ?_, hbooks.holds, hbooks.charged, hbooks.credit, ?_,
    ?_, ?_⟩
  · rw [used.submitted, hbooks.queue, List.append_assoc]
  · have hroom := hbooks.room
    rw [used.acked, List.length_append] at hroom
    show s.inFlight + channel.acked.length ≤ channel.capacity
    rw [used.capacity]
    omega
  · have hbalance := hbooks.balance
    rw [hacked] at hbalance
    exact hbalance
  · have hmarks := hbooks.marks
    rw [hacked] at hmarks
    exact hmarks

/-- Before a mailbox is handed out, nothing in the driver or in its log is about it. -/
theorem unclaimed {driver : δ} {id : Nat} (hempty : custody.Holds driver [])
    (h : Backend.Foreigns id { driver := ⟨driver, [], []⟩ } b) :
    ∃ held, custody.Holds b.driver.driver held ∧ Request.toMailbox id held = [] ∧
      (Notice.finished b.driver.notices ++ held).Perm
        (Exchange.takenRequests b.driver.exchanges) ∧
      Notice.completionsFor id b.driver.notices = [] ∧ b.askedFor id = [] := by
  induction h with
  | refl => exact ⟨[], hempty, rfl, .refl _, rfl, rfl⟩
  | tail _ last ih =>
    obtain ⟨held, hholds, hheld, hcharged, hnotices, hasked⟩ := ih
    obtain ⟨held', took, new, hdriven, hnone⟩ := Backend.driven_foreign hholds last
    -- nothing was held for the mailbox and nothing taken, so nothing is finished for it
    have hsettled := hdriven.settled.filter (·.mailbox == id)
    simp only [Request.toMailbox] at hheld hnone
    rw [List.filter_append, List.filter_append, hnone, hheld] at hsettled
    obtain ⟨hfinished, hheld'⟩ := List.append_eq_nil_iff.1 hsettled.eq_nil
    have hnew : Notice.completionsFor id new = [] := by
      have hpackets := Notice.packets_completionsFor id new
      rw [Request.toMailbox, hfinished] at hpackets
      exact List.map_eq_nil_iff.1 hpackets
    refine ⟨held', hdriven.holds, hheld', ?_, ?_, (Backend.askedFor_foreign last).trans hasked⟩
    · rw [hdriven.notices, hdriven.taken, Notice.finished_append]
      refine List.perm_iff_count.2 fun request => ?_
      have hold := hcharged.count_eq request
      have hlast := hdriven.settled.count_eq request
      simp only [List.count_append] at hold hlast ⊢
      omega
    · rw [hdriven.notices, Notice.completionsFor_append, hnotices, hnew]
      rfl

theorem Balanced.opened {driver : δ} (hempty : custody.Holds driver [])
    (before : Backend.Foreigns s.mailbox { driver := ⟨driver, [], []⟩ } b)
    (mailbox : s.mailbox = b.mailboxes.length) (fresh : s.Fresh) :
    Balanced custody [] [] s b.addMailbox.1 := by
  -- whatever happened before was for other mailboxes
  obtain ⟨held, hholds, hheld, hcharged, hnotices, hasked⟩ := unclaimed hempty before
  have hbox : b.addMailbox.1.mailbox s.mailbox = {} := by
    rw [mailbox]
    exact Backend.mailbox_addMailbox_new b
  have hout : s.outstanding b.addMailbox.1 held = [] := by
    rw [outstanding, fresh.pending, hheld, hbox]
    rfl
  refine ⟨[], [], held, ⟨?_, ?_, ?_, hholds, hcharged, ?_, ?_, ?_, ?_⟩, ?_⟩
  · rw [Backend.length_addMailbox]
    omega
  · rw [hbox]
  · rw [fresh.submitted]
    rfl
  · rw [fresh.inFlight, hout]
    rfl
  · rw [fresh.inFlight, fresh.acked]
    exact Nat.zero_le _
  · rw [fresh.acked, hout]
    exact .refl _
  · rw [fresh.acked, hbox]
    show ([] : List Packet).Perm
      ((Notice.completionsFor s.mailbox b.driver.notices).map Completion.ack ++ [])
    rw [hnotices]
    exact .refl _
  · unfold Causes
    rw [show b.addMailbox.1.askedFor s.mailbox = b.askedFor s.mailbox from rfl, hasked]
    exact .refl _

/-- The books balance along every run of the session. -/
theorem Run.balanced {driver : δ} (hempty : custody.Holds driver [])
    (run : Run ⟨driver, [], []⟩ submitted popped s b) :
    Balanced custody submitted popped s b := by
  induction run with
  | opened before mailbox fresh => exact .opened hempty before mailbox fresh
  | foreign _ hforeign ih => exact ih.foreign hforeign
  | act earlier hact ih => exact ih.act earlier.poised hact
  | client _ used ih => exact ih.client used

/-- The ledger of a session: `taken` are the packets taken off the submit queue, `held` the requests
in the custody of the driver. -/
structure Ledger (custody : Custody δ) (submitted popped : List Packet) (s : Session)
    (b : Backend (Recorded δ)) (taken : List Packet) (held : List Request) : Prop where
  queue : submitted = taken ++ s.channel.submitted
  holds : custody.Holds b.driver.driver held
  /-- The driver holds what it took and has not reported as finished. -/
  charged : (Notice.finished b.driver.notices ++ held).Perm
    (Exchange.takenRequests b.driver.exchanges)
  /-- Every packet taken is acknowledged once, or still outstanding. -/
  balance : ((popped ++ s.channel.acked ++ s.outstanding b held).map Packet.unmarked).Perm
    (taken.map Packet.unmarked)
  /-- An acknowledgement has the mark that the driver finished the packet with; without the driver
  the packets that fail the checks or are refused for good are acknowledged, as failed. -/
  marks : (popped ++ s.channel.acked ++
    (b.mailbox s.mailbox).completions.map Completion.ack).Perm
      ((Notice.completionsFor s.mailbox b.driver.notices).map Completion.ack ++
        ((taken.filter fun packet => !s.accepts packet) ++
          Exchange.refusedPackets (b.askedFor s.mailbox)).map Packet.unmarked)

theorem Balanced.ledger (h : Balanced custody submitted popped s b) :
    ∃ taken held, Ledger custody submitted popped s b taken held := by
  obtain ⟨taken, failed, held, hbooks, hcauses⟩ := h
  have hbalance := hbooks.balance
  rw [List.append_nil] at hbalance
  have hmarks := hbooks.marks.trans ((hcauses.map Packet.unmarked).append_left _)
  exact ⟨taken, held, hbooks.queue, hbooks.holds, hbooks.charged, hbalance, hmarks⟩

end Session

namespace Course

variable {δ : Type} [Device δ]

/-- With every driver that settles each request at most once, along every course of events and for
every session whose client keeps to its side: each packet taken off the submit queue is acknowledged
exactly once or outstanding, with the mark that the driver gave it. -/
theorem acknowledged_once (custody : Custody δ) (c : Course δ)
    (hempty : custody.Holds c.driver []) {seat : Nat} {s : Session}
    (hside : System.KeepsSide seat c.steps) (hs : c.final.session? seat = some s) :
    ∃ taken held, s.Ledger custody (c.submitted seat) (c.popped seat) c.final.mux.backend taken
      held :=
  ((c.run_of_session hside hs).balanced hempty).ledger

/-- A device that keeps two packets, one of which it finishes later, fails one and is too busy for
another; one more lies outside the window. -/
def mixed : Course Scripted where
  driver := { blockCount := 8, blockSize := 512, script := [.hold, .fail, .hold, .busy] }
  config := { rules := [{}], queueSize := 8 }
  steps := [.openSession "ram_quota=8192,tx_buf_size=2048" [],
    .client 0 (.submit ⟨.write, 0, 1, 0, 512, false⟩),
    .client 0 (.submit ⟨.write, 9, 1, 0, 512, false⟩),
    .client 0 (.submit ⟨.read, 1, 1, 0, 512, false⟩),
    .client 0 (.submit ⟨.read, 2, 1, 0, 512, false⟩),
    .client 0 (.submit ⟨.read, 3, 1, 512, 512, false⟩), .process 0 .submitted,
    .device (.finish 0 true), .client 0 .popAck]

theorem acknowledged_once_mixed :
    ∃ s, mixed.final.session? 0 = some s ∧ s.pending.isSome = true ∧
      ∃ taken held, s.Ledger Scripted.custody (mixed.submitted 0) (mixed.popped 0)
        mixed.final.mux.backend taken held := by
  have hheld : (mixed.final.session? 0).any (·.pending.isSome) = true := by decide +kernel
  obtain ⟨s, hs, hpending⟩ := (Option.any_eq_true _ _).1 hheld
  have hempty : Scripted.custody.Holds mixed.driver [] := rfl
  exact ⟨s, hs, hpending, acknowledged_once Scripted.custody mixed hempty (by decide) hs⟩

end Course
end BlockMux
