import BlockMux.Proofs.Replay
import BlockMux.Proofs.Service

/-!
# A session alone with its packets

On a device in memory neither the order in which sessions and device get their turns, nor the depth
of the queue, nor what other sessions do can be seen by a session whose window nobody else writes
to. Whenever it has nothing under way, its bytes and its acknowledgements are those of the
sequential reference.

Main statements:

* `Served.reference` — a session with nothing under way is where the reference is.
* `Undisturbed`, `schedule_independent` — the same from the beginning of a course of events.
-/

namespace BlockMux

/-- Of the settled requests those on bad blocks were refused, and all others taken. -/
theorem Exchange.settled_split {bad : Packet → Bool} {log : List Exchange}
    (h : ∀ e ∈ log, e.outcome = .ioError ↔ bad e.request.packet = true) :
    (takenRequests log).map (·.packet) = (settledPackets log).filter (fun packet => !bad packet) ∧
      refusedPackets log = (settledPackets log).filter bad := by
  -- an exchange that met a full queue counts on neither side
  induction log using List.reverseRecOn with
  | nil => exact ⟨rfl, rfl⟩
  | append_singleton log e ih =>
    obtain ⟨htaken, hrefused⟩ := ih fun e' he' => h e' (List.mem_append_left _ he')
    have hlast := h e (List.mem_append_right _ List.mem_cons_self)
    rw [takenRequests_concat, refusedPackets_concat, settledPackets_concat, List.map_append,
      List.filter_append, List.filter_append, htaken, hrefused]
    cases houtcome : e.outcome with
    | dispatched =>
      have hsound : bad e.request.packet = false := by simpa [houtcome] using hlast
      simp [Request.takenWith, hsound]
    | congested => simp [Request.takenWith]
    | ioError =>
      have hbad : bad e.request.packet = true := hlast.1 houtcome
      simp [Request.takenWith, hbad]

namespace Session

variable {δ : Type} [Device δ]

/-- Without a packet, the driver is not asked. -/
theorem Run.askedFor_eq_nil {driver : δ} {pop : List Packet} {s : Session}
    {b : Backend (Recorded δ)} (run : Run ⟨driver, [], []⟩ [] pop s b) :
    b.askedFor s.mailbox = [] := by
  have horder := run.inOrder
  obtain ⟨hnone, hrest⟩ := List.append_eq_nil_iff.1 horder.settled
  obtain ⟨hpending, -⟩ := List.append_eq_nil_iff.1 hrest
  rcases List.eq_nil_or_concat (b.askedFor s.mailbox) with hnil | ⟨log, e, hlog⟩
  · exact hnil
  · -- the last exchange was settled or is held, and neither is so
    rw [List.concat_eq_append] at hlog
    have hlast : e ∈ (b.askedFor s.mailbox).getLast? := by rw [hlog, List.getLast?_concat]; rfl
    by_cases hcongested : e.outcome = .congested
    · rw [horder.held e hlast hcongested] at hpending
      simp at hpending
    · rw [hlog, Exchange.settledPackets_concat, if_neg hcongested] at hnone
      simp at hnone

/-- A driver that was not asked has neither finished nor holds anything. -/
theorem Books.unasked {custody : Custody δ} {submitted popped hand taken failed : List Packet}
    {held : List Request} {s : Session} {b : Backend (Recorded δ)}
    (h : Books custody submitted popped hand taken failed held s b)
    (hasked : b.askedFor s.mailbox = []) :
    Notice.completionsFor s.mailbox b.driver.notices = [] ∧
      Request.toMailbox s.mailbox held = [] := by
  -- what the driver finished or holds for a mailbox it was asked for on its behalf
  have htaken : Request.toMailbox s.mailbox (Exchange.takenRequests b.driver.exchanges) = [] := by
    refine List.filter_eq_nil_iff.2 fun request hmem hmailbox => ?_
    obtain ⟨e, he, hrequest⟩ := List.mem_flatMap.1 hmem
    have hsame : request = e.request := by
      cases hout : e.outcome <;> simp_all [Request.takenWith]
    have hfor : e ∈ b.askedFor s.mailbox := List.mem_filter.2 ⟨he, by rw [← hsame]; exact hmailbox⟩
    rw [hasked] at hfor
    simp at hfor
  have hcharged := h.charged.filter (·.mailbox == s.mailbox)
  rw [List.filter_append] at hcharged
  rw [Request.toMailbox] at htaken
  rw [htaken] at hcharged
  obtain ⟨hfinished, hheld⟩ := List.append_eq_nil_iff.1 hcharged.eq_nil
  refine ⟨?_, hheld⟩
  have hpackets := Notice.packets_completionsFor s.mailbox b.driver.notices
  rw [Request.toMailbox, hfinished] at hpackets
  exact List.map_eq_nil_iff.1 hpackets

/-- With nothing under way, a session is where the reference is. -/
theorem Served.reference {bad : Option (Nat × Nat)} {init : Bytes} {submitted popped : List Packet}
    {s : Session} {b : Backend (Recorded Ram)} (hserved : s.Served bad init b.driver b.arena)
    (horder : s.InOrder submitted (b.askedFor s.mailbox))
    (hbalanced : Balanced Ram.custody submitted popped s b) (hempty : s.channel.submitted = [])
    (hidle : s.inFlight = 0) :
    s.bytes b.driver.driver.contents b.arena = (Reference.run s bad ⟨init, []⟩ submitted).bytes ∧
      (popped ++ s.channel.acked).Perm (Reference.run s bad ⟨init, []⟩ submitted).acks := by
  obtain ⟨taken, failed, held, hbooks, hcauses⟩ := hbalanced
  obtain rfl : held = b.driver.driver.heldRequests := hbooks.holds
  have htaken : taken = submitted := by
    have hqueue := hbooks.queue
    rw [hempty, List.append_nil] at hqueue
    exact hqueue.symm
  subst htaken
  -- nothing is outstanding
  have hcredit := hbooks.credit
  rw [hidle, List.length_nil, Nat.add_zero] at hcredit
  obtain ⟨hpending, hrest⟩ := List.append_eq_nil_iff.1 (List.length_eq_zero_iff.1 hcredit.symm)
  obtain ⟨hheld, hcompletions⟩ := List.append_eq_nil_iff.1 hrest
  -- so all that passed the checks is settled, and all that was taken is carried out
  have hsettled := horder.settled
  rw [hpending, hempty, List.filter_nil, List.append_nil, List.append_nil] at hsettled
  obtain ⟨hsplit, hrefused⟩ := Exchange.settled_split hserved.refused
  have hfifo := hserved.fifo
  rw [hheld, List.append_nil, hsplit] at hfifo
  change (Exchange.settledPackets (b.askedFor s.mailbox)).filter _ = _ at hfifo
  rw [hsettled, List.filter_filter] at hfifo
  have hdone : (Notice.completionsFor s.mailbox b.driver.notices).map (·.packet) =
      taken.filter (Reference.carries s bad) := by
    rw [← hfifo]
    refine List.filter_congr fun packet _ => ?_
    exact Bool.and_comm _ _
  refine ⟨?_, ?_⟩
  · rw [hserved.bytes, hdone, Reference.bytes_run]
  · have hacks : (Notice.completionsFor s.mailbox b.driver.notices).map Completion.ack =
        (taken.filter (Reference.carries s bad)).map fun packet : Packet =>
          { packet with succeeded := true } := by
      rw [← hdone, List.map_map]
      refine List.map_congr_left fun completion hmem => ?_
      rw [Completion.ack, hserved.success completion hmem]
      rfl
    have hfailed := hcauses.map Packet.unmarked
    rw [show Exchange.refusedPackets (b.askedFor s.mailbox) = _ from hrefused] at hfailed
    change (failed.map Packet.unmarked).Perm (List.map Packet.unmarked
      (_ ++ (Exchange.settledPackets (b.askedFor s.mailbox)).filter _)) at hfailed
    rw [hsettled] at hfailed
    have hmarks := hbooks.marks
    have hboxed : (b.mailbox s.mailbox).completions.map Completion.ack = [] := by
      rw [List.map_eq_nil_iff.1 hcompletions]
      rfl
    rw [hboxed, List.append_nil, hacks] at hmarks
    rw [Reference.acks_run]
    exact (hmarks.trans (hfailed.append_left _)).trans (Reference.acks_perm taken)

end Session

/-! ## Courses of events -/

/-- Equal bytes, and the same acknowledgements in whatever order. -/
structure Reference.Agrees (ref ref' : Reference) : Prop where
  bytes : ref.bytes = ref'.bytes
  acks : ref.acks.Perm ref'.acks

/-- Two sessions to which the same packets mean the same. -/
structure Session.Alike (s s' : Session) : Prop where
  offset : s'.grant.offset = s.grant.offset
  span : s'.grant.span = s.grant.span
  blockSize : s'.blockSize = s.blockSize
  operations : s'.operations = s.operations
  bufferSize : s'.channel.buffer.size = s.channel.buffer.size

theorem Reference.run_congr {s s' : Session} (h : s.Alike s') :
    Reference.run s' = Reference.run s := by
  have hstep : Reference.step s' = Reference.step s := by
    funext bad ref packet
    have haccepts : s'.accepts packet = s.accepts packet := by
      simp only [Session.accepts, h.span, h.operations, h.blockSize, h.bufferSize]
    have htouches : s'.touchesBad bad packet = s.touchesBad bad packet := by
      simp only [Session.touchesBad, h.offset]
    have hcopy : ref.bytes.copy s' packet = ref.bytes.copy s packet := by
      simp only [Bytes.copy, h.blockSize]
    simp only [Reference.step, haccepts, htouches, hcopy]
  funext bad ref packets
  rw [Reference.run, Reference.run, hstep]

namespace Course

open BlockMux.System

/-- The system after some steps. -/
def upTo {δ : Type} [Device δ] (c : Course δ) (steps : List Step) : System δ :=
  (create c.mux).runSteps steps

/-- The bytes of a session after some steps. -/
def bytesAfter (c : Course Ram) (s : Session) (steps : List Step) : Bytes :=
  s.bytes (c.upTo steps).mux.backend.driver.contents (c.upTo steps).mux.backend.arena

/-- The packets that the client on a seat has submitted, in order. -/
def packets (c : Course Ram) (seat : Nat) : List Packet :=
  submittedBy seat ((create c.mux).transcript c.steps)

/-- What a session sees at the end: its bytes, and all its acknowledgements. -/
def seen (c : Course Ram) (seat : Nat) (s : Session) : Reference where
  bytes := c.bytesAfter s c.steps
  acks := poppedBy seat ((create c.mux).transcript c.steps) ++ s.channel.acked

/-- What the sequential reference makes of the packets of a session, from the bytes that it had
after the steps `started`. -/
def reference (c : Course Ram) (seat : Nat) (s : Session) (started : List Step) : Reference :=
  Reference.run s c.driver.badBlocks { bytes := c.bytesAfter s started } (c.packets seat)

/-- A course on a fresh device in memory, in which nobody but the session `s` changes its bytes: no
session is closed, nothing was submitted before the step `first`, and after it neither is a byte of
the device poked nor does the client write into its buffer. -/
structure Undisturbed (c : Course Ram) (seat : Nat) (s : Session) (before : List Step)
    (first : Step) (after : List Step) : Prop where
  steps_eq : c.steps = before ++ first :: after
  queue : c.driver.queue = []
  buffers : c.driver.buffers = []
  bound : c.driver.contents.size ≤ maxWord
  closes : ∀ step ∈ c.steps, step.closes = false
  side : KeepsSide seat c.steps
  unasked : submittedBy seat ((create c.mux).transcript before) = []
  spares : ∀ step ∈ after, step.spares seat = true
  started : ((c.upTo (before ++ [first])).session? seat).isSome = true
  session : (c.upTo c.steps).session? seat = some s
  /-- The windows of other sessions that may write lie elsewhere. -/
  window : ∀ i t, i ≠ seat → (c.upTo c.steps).session? i = some t → t.grant.writeable = true →
    s.grant.overlaps t.grant = false

/-- The course that ends after the given steps. -/
def part {δ : Type} (c : Course δ) (steps : List Step) : Course δ := { c with steps := steps }

theorem upTo_eq {δ : Type} [Device δ] (c : Course δ) (steps : List Step) :
    c.upTo steps = (c.part steps).final.map Recorded.driver :=
  (c.part steps).plain_final.symm

variable {c : Course Ram} {seat : Nat} {s : Session} {before after : List Step} {first : Step}

/-- Before it has submitted a packet and right after it submitted the first one, nothing was asked
for a session. -/
theorem askedFor_part {s₀ : Session} (hside : KeepsSide seat (before ++ [first]))
    (hunasked : submittedBy seat ((create c.mux).transcript before) = [])
    (hs₀ : (c.part (before ++ [first])).final.session? seat = some s₀) :
    (c.part (before ++ [first])).final.mux.backend.askedFor s₀.mailbox = [] := by
  have ho := (Orderly.create (c.mux.map fun driver => (⟨driver, [], []⟩ : Recorded Ram))).runSteps
    before
  have hbefore : (c.part before).submitted seat = [] := by
    rw [plain_submitted]
    exact hunasked
  have hsplit : (c.part (before ++ [first])).final = ((c.part before).final.step first).1 :=
    runSteps_concat _ _ _
  by_cases hown : ∃ client, first = .client seat client
  · -- the client's step leaves the driver as it was when nothing had been submitted
    obtain ⟨client, rfl⟩ := hown
    have hdriver : ((c.part before).final.step (.client seat client)).1.mux.backend.driver =
        (c.part before).final.mux.backend.driver := by
      simp only [System.step, clientStep]
      split <;> rfl
    rw [hsplit] at hs₀ ⊢
    rcases (step_transition ho (.client seat client)).terms_before hs₀ with
      ⟨t, ht, hterms⟩ | ⟨text, changes, -, -, hstep, -⟩
    · have run := (c.part before).run_of_session hside.init ht
      rw [hbefore] at run
      rw [Backend.askedFor, hdriver,
        show s₀.mailbox = t.mailbox from congrArg Session.Terms.mailbox hterms]
      exact run.askedFor_eq_nil
    · simp at hstep
  · have hnone : (c.part (before ++ [first])).submitted seat = [] := by
      have hlast : ofClient seat ClientStep.submissions
          (first, ((c.part before).final.step first).2) = [] :=
        ofClient_eq_nil fun client _ hclient => absurd ⟨client, hclient⟩ hown
      rw [submitted, show (c.part (before ++ [first])).steps = before ++ [first] from rfl,
        transcript_concat, submittedBy_concat]
      exact List.append_eq_nil_iff.2 ⟨hbefore, hlast⟩
    have run := (c.part (before ++ [first])).run_of_session hside hs₀
    rw [hnone] at run
    exact run.askedFor_eq_nil

namespace Undisturbed

variable (h : c.Undisturbed seat s before first after)

include h

theorem steps_split : c.steps = (before ++ [first]) ++ after := by
  rw [h.steps_eq, List.append_assoc]
  rfl

theorem final_eq : c.final = (c.part (before ++ [first])).final.runSteps after := by
  rw [final, h.steps_split, runSteps, List.foldl_append]
  rfl

theorem session_final : c.final.session? seat = some s := by
  have hsession := h.session
  rw [upTo_eq] at hsession
  exact hsession

theorem closes_not_mem {steps : List Step} (hsub : ∀ step ∈ steps, step ∈ c.steps) (i : Nat) :
    .closeSession i ∉ steps := by
  intro hmem
  simpa [Step.closes] using h.closes _ (hsub _ hmem)

theorem housing {steps : List Step} (hsub : ∀ step ∈ steps, step ∈ c.steps) :
    Housing c.driver.shape (c.part steps).final :=
  Housing.runSteps c.config c.table h.queue h.buffers h.bound (h.closes_not_mem hsub)

theorem holds_nothing : Ram.custody.Holds c.driver [] := by
  show [] = c.driver.queue.map (·.request)
  rw [h.queue]
  rfl

/-- Every other session on the device is apart from the undisturbed one. -/
theorem apart_of_guest {u : Session} (hu : c.final.guests u) :
    u.terms = s.terms ∨ s.Apart u := by
  obtain ⟨i, t, ht, hterms⟩ := hu
  by_cases hi : i = seat
  · subst hi
    obtain rfl : t = s := Option.some.inj (ht.symm.trans h.session_final)
    exact .inl hterms
  · refine .inr ⟨?_, ?_, ?_⟩
    · rw [show u.mailbox = t.mailbox from congrArg Session.Terms.mailbox hterms]
      exact fun hsame => hi (c.orderly.mailbox_inj ht h.session_final hsame)
    · rw [show u.channel.buffer = t.channel.buffer from congrArg Session.Terms.buffer hterms]
      exact (h.housing fun _ hstep => hstep).apart ht h.session_final hi
    · rw [show u.grant = t.grant from congrArg Session.Terms.grant hterms]
      refine h.window i t hi ?_
      rw [upTo_eq]
      exact ht

/-- At the start the device has done nothing for the session. -/
theorem served_start {s₀ : Session} (hterms : s.terms = s₀.terms)
    (hs₀ : (c.part (before ++ [first])).final.session? seat = some s₀) :
    s.Served c.driver.badBlocks
      (s.bytes (c.part (before ++ [first])).final.mux.backend.driver.driver.contents
        (c.part (before ++ [first])).final.mux.backend.arena)
      (c.part (before ++ [first])).final.mux.backend.driver
      (c.part (before ++ [first])).final.mux.backend.arena := by
  have hside : KeepsSide seat (before ++ [first]) := by
    intro step hstep
    exact h.side step (by rw [h.steps_split]; exact List.mem_append_left _ hstep)
  have hasked := askedFor_part hside h.unasked hs₀
  obtain ⟨taken, failed, held, hbooks, -⟩ :=
    ((c.part (before ++ [first])).run_of_session hside hs₀).balanced h.holds_nothing
  obtain rfl : held = _ := hbooks.holds
  -- nothing was asked for it, so nothing is kept, waits or is reported
  obtain ⟨hcompletions, hwaiting⟩ := hbooks.unasked hasked
  have hmailbox : s.mailbox = s₀.mailbox := congrArg Session.Terms.mailbox hterms
  rw [← hmailbox] at hasked hcompletions hwaiting
  change Exchange.toMailbox s.mailbox _ = [] at hasked
  refine ⟨?_, ?_, ?_, ?_⟩
  · rw [hasked, hcompletions, hwaiting]
    rfl
  · rw [hcompletions]
    simp
  · rw [hcompletions]
    rfl
  · rw [hasked]
    simp

/-- Whenever an undisturbed session has nothing under way, it sees what the reference makes of its
packets. -/
theorem agrees (hempty : s.channel.submitted = []) (hidle : s.inFlight = 0) :
    (c.seen seat s).Agrees (c.reference seat s (before ++ [first])) := by
  have hstarted := h.started
  rw [upTo_eq] at hstarted
  obtain ⟨s₀, hs₀⟩ := Option.isSome_iff_exists.1 hstarted
  have ho := (c.part (before ++ [first])).orderly
  have hlater : ∀ step ∈ after, step ∈ c.steps := by
    intro step hstep
    rw [h.steps_split]
    exact List.mem_append_right _ hstep
  -- the session has been on the same terms since the start
  obtain ⟨t, ht, hsame⟩ := session?_runSteps ho
    (fun step hstep => h.closes step (hlater step hstep)) hs₀
  rw [← h.final_eq] at ht
  obtain rfl : t = s := Option.some.inj (ht.symm.trans h.session_final)
  have hearlier : ∀ step ∈ before ++ [first], step ∈ c.steps := by
    intro step hstep
    rw [h.steps_split]
    exact List.mem_append_left _ hstep
  have hserved := (h.served_start hsame hs₀).runSteps ho (h.housing hearlier) h.bound hs₀ hsame
    (fun u hu => h.apart_of_guest (by rw [h.final_eq]; exact hu))
    (fun step hstep => h.closes step (hlater step hstep)) h.spares
  rw [← h.final_eq] at hserved
  have run := c.run_of_session h.side h.session_final
  obtain ⟨hbytes, hacks⟩ := hserved.reference run.inOrder (run.balanced h.holds_nothing)
    hempty hidle
  rw [plain_submitted] at hbytes hacks
  rw [plain_popped] at hacks
  refine ⟨?_, ?_⟩
  · rw [reference, seen, bytesAfter, bytesAfter, upTo_eq c c.steps, upTo_eq c (before ++ [first])]
    exact hbytes
  · rw [reference, seen, bytesAfter, bytesAfter, upTo_eq c (before ++ [first])]
    exact hacks

end Undisturbed

/-- On every device in memory and along every course of events that leaves a session undisturbed:
whenever the session has nothing under way, it sees what the sequential reference makes of its
packets. So it sees the same in any two such courses in which it begins with the same bytes and
submits the same packets, whatever the schedule, the queue, the addressing and the other
sessions are. -/
theorem schedule_independent (c : Course Ram) {seat : Nat} {s : Session}
    {before after : List Step} {first : Step} (h : c.Undisturbed seat s before first after)
    (hempty : s.channel.submitted = []) (hidle : s.inFlight = 0) :
    (c.seen seat s).Agrees (c.reference seat s (before ++ [first])) ∧
      ∀ (c' : Course Ram) (seat' : Nat) (s' : Session) (before' after' : List Step) (first' : Step),
        c'.Undisturbed seat' s' before' first' after' → s'.channel.submitted = [] →
        s'.inFlight = 0 → s.Alike s' → c'.driver.badBlocks = c.driver.badBlocks →
        c'.bytesAfter s' (before' ++ [first']) = c.bytesAfter s (before ++ [first]) →
        c'.packets seat' = c.packets seat → (c.seen seat s).Agrees (c'.seen seat' s') := by
  have hagrees := h.agrees hempty hidle
  refine ⟨hagrees, ?_⟩
  intro c' seat' s' before' after' first' h' hempty' hidle' halike hbad hbytes hpackets
  have hagrees' := h'.agrees hempty' hidle'
  -- both courses agree with one reference
  have hsame : c'.reference seat' s' (before' ++ [first']) =
      c.reference seat s (before ++ [first]) := by
    rw [reference, reference, Reference.run_congr halike, hbad, hbytes, hpackets]
  rw [hsame] at hagrees'
  exact ⟨hagrees.bytes.trans hagrees'.bytes.symm, hagrees.acks.trans hagrees'.acks.symm⟩

/-- The first packet of a client, with its payload. -/
def opener : Step := .client 0 (.request ⟨.write, 0, 1, 0, 16, false⟩ (some [1, 2, 3]))

/-- Two sessions that get in each other's way on a queue of one transfer; one of the packets is on a
bad block. -/
def crowded : Course Ram where
  driver :=
    { contents := Memory.zeroed 128
      blockSize := 16
      queueDepth := some 1
      badBlocks := some (2, 3) }
  config := { rules := [{}], queueSize := 4 }
  steps := [.openSession "ram_quota=8192,tx_buf_size=32,span=4" [],
    .openSession "ram_quota=8192,tx_buf_size=32,offset=4" [],
    .client 1 (.submit ⟨.write, 0, 1, 0, 16, false⟩), opener, .process 1 .submitted,
    .process 0 .submitted, .client 0 (.submit ⟨.read, 2, 1, 16, 16, false⟩),
    .client 0 (.submit ⟨.read, 0, 1, 16, 16, false⟩), .device .completeNext,
    .process 0 .completion, .device .completeNext, .process 0 .completion, .client 0 .popAck,
    .device .completeNext, .process 0 .completion]

/-- The first of the two sessions alone, on a device with addresses and without a queue. -/
def alone : Course Ram where
  driver :=
    { contents := Memory.zeroed 128
      blockSize := 16
      usesAddresses := true
      badBlocks := some (2, 3) }
  config := { rules := [{}], queueSize := 8 }
  steps := [.openSession "ram_quota=8192,tx_buf_size=32,span=4" [], opener,
    .client 0 (.submit ⟨.read, 2, 1, 16, 16, false⟩),
    .client 0 (.submit ⟨.read, 0, 1, 16, 16, false⟩), .run 0]

/-- Only seats that were taken have windows. -/
theorem window_of_taken {sys : System Ram} {seat : Nat} {s : Session}
    (h : ∀ i < sys.seats.length, i ≠ seat → ((sys.session? i).all fun t =>
      !t.grant.writeable || !s.grant.overlaps t.grant) = true) :
    ∀ i t, i ≠ seat → sys.session? i = some t → t.grant.writeable = true →
      s.grant.overlaps t.grant = false := by
  intro i t hi ht hwrite
  have hlt : i < sys.seats.length := (List.getElem?_eq_some_iff.1 (seat_of_session? ht)).1
  have hcheck := h i hlt hi
  rw [ht] at hcheck
  simpa [hwrite] using hcheck

/-- The session on the first seat of the crowded device. -/
def crowdedSession : Session :=
  ((crowded.upTo crowded.steps).session? 0).get (by decide +kernel)

/-- The session on the only seat of the other one. -/
def aloneSession : Session := ((alone.upTo alone.steps).session? 0).get (by decide +kernel)

theorem schedule_independent_crowded :
    (crowded.packets 0).length = 3 ∧
      (crowded.seen 0 crowdedSession).Agrees
        (crowded.reference 0 crowdedSession (crowded.steps.take 4)) ∧
      (crowded.seen 0 crowdedSession).Agrees (alone.seen 0 aloneSession) := by
  have h : crowded.Undisturbed 0 crowdedSession (crowded.steps.take 3) opener
      (crowded.steps.drop 4) :=
    ⟨rfl, rfl, rfl, by decide, by decide, by decide, by decide +kernel, by decide,
      by decide +kernel, (Option.some_get _).symm, window_of_taken (by decide +kernel)⟩
  have h' : alone.Undisturbed 0 aloneSession (alone.steps.take 1) opener (alone.steps.drop 2) :=
    ⟨rfl, rfl, rfl, by decide, by decide, by decide, by decide +kernel, by decide,
      by decide +kernel, (Option.some_get _).symm, window_of_taken (by decide +kernel)⟩
  have hquiet : (crowdedSession.channel.submitted = [] ∧ crowdedSession.inFlight = 0) ∧
      aloneSession.channel.submitted = [] ∧ aloneSession.inFlight = 0 := by decide +kernel
  have hlike : aloneSession.grant = crowdedSession.grant ∧
      aloneSession.blockSize = crowdedSession.blockSize ∧
      aloneSession.operations = crowdedSession.operations ∧
      aloneSession.channel.buffer.size = crowdedSession.channel.buffer.size := by decide +kernel
  obtain ⟨⟨hempty, hidle⟩, hempty', hidle'⟩ := hquiet
  obtain ⟨hgrant, hblock, hops, hbuffer⟩ := hlike
  have halike : crowdedSession.Alike aloneSession :=
    ⟨congrArg Grant.offset hgrant, congrArg Grant.span hgrant, hblock, hops, hbuffer⟩
  obtain ⟨hagrees, hsame⟩ := schedule_independent crowded h hempty hidle
  exact ⟨by decide +kernel, hagrees, hsame alone 0 aloneSession _ _ _ h' hempty' hidle' halike rfl
    (by decide +kernel) (by decide +kernel)⟩

end Course
end BlockMux
