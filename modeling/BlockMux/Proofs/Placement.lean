import BlockMux.Proofs.Acts
import BlockMux.Session.System

/-!
# Where buffers lie

A device in memory hands out buffers at addresses of their own; an image hands them all out at
address 0. Nothing else tells the buffers of the two apart: what clients do on a channel, and how a
session acknowledges, is the same wherever the buffer lies.

Main statements:

* `Session.unplaced`, `Answer.unplaced` — what is left when placement is taken away.
* `Channel.perform_unplaced` — a client is answered the same, unless it asks for an address.
* `Session.acknowledgeAll_unplaced` — sessions acknowledge alike.
* `Session.transfer?_unplaced` — the transfer that a packet stands for, named by a view.
-/

namespace BlockMux

/-! ## Without placement -/

/-- The same buffer at address 0. -/
def SharedBuffer.unplaced (buffer : SharedBuffer) : SharedBuffer := { buffer with base := 0 }

/-- The payload in the buffer at address 0. -/
def PayloadView.unplaced (view : PayloadView) : PayloadView :=
  { view with buffer := view.buffer.unplaced }

/-- The channel on the buffer at address 0. -/
def Channel.unplaced (ch : Channel) : Channel := { ch with buffer := ch.buffer.unplaced }

/-- The session on the buffer at address 0, which it does not name by addresses. -/
def Session.unplaced (s : Session) : Session :=
  { s with channel := s.channel.unplaced, usesAddresses := false }

/-- The seat without the placement of its buffer. -/
def Seat.unplaced : Seat → Seat
  | active s => active s.unplaced
  | retired ch => retired ch.unplaced

/-- The answer without the placement of buffers. -/
def ClientAnswer.unplaced : ClientAnswer → ClientAnswer
  | view payload => view payload.unplaced
  | answer => answer

/-- The answer without the placement of buffers. -/
def Answer.unplaced : Answer → Answer
  | opened s => opened s.unplaced
  | client result => client (result.map ClientAnswer.unplaced)
  | answer => answer

theorem Seat.channel_unplaced (client : Seat) :
    client.unplaced.channel = client.channel.unplaced := by
  cases client <;> rfl

theorem Seat.withChannel_unplaced (client : Seat) (ch : Channel) :
    client.unplaced.withChannel ch.unplaced = (client.withChannel ch).unplaced := by
  cases client <;> rfl

theorem Seat.session?_unplaced (client : Seat) :
    client.unplaced.session? = client.session?.map Session.unplaced := by
  cases client <;> rfl

theorem Seat.unplaced_unplaced (client : Seat) : client.unplaced.unplaced = client.unplaced := by
  cases client <;> rfl

theorem ClientAnswer.unplaced_unplaced (answer : ClientAnswer) :
    answer.unplaced.unplaced = answer.unplaced := by
  cases answer <;> rfl

theorem Answer.unplaced_unplaced (answer : Answer) :
    answer.unplaced.unplaced = answer.unplaced := by
  cases answer with
  | client result =>
    cases result with
    | error e => rfl
    | ok answer => exact congrArg (fun answer => client (.ok answer)) answer.unplaced_unplaced
  | _ => rfl

/-! ## Channels -/

namespace Channel

@[simp] theorem size_unplaced (ch : Channel) : ch.unplaced.buffer.size = ch.buffer.size := rfl
@[simp] theorem capacity_unplaced (ch : Channel) : ch.unplaced.capacity = ch.capacity := rfl
@[simp] theorem submitted_unplaced (ch : Channel) : ch.unplaced.submitted = ch.submitted := rfl
@[simp] theorem acked_unplaced (ch : Channel) : ch.unplaced.acked = ch.acked := rfl
@[simp] theorem allocations_unplaced (ch : Channel) :
    ch.unplaced.allocations = ch.allocations := rfl

theorem create_unplaced (buffer : SharedBuffer) (capacity : Nat) :
    create buffer.unplaced capacity = (create buffer capacity).map unplaced := by
  unfold create
  split <;> rfl

theorem view_unplaced (ch : Channel) (packet : Packet) :
    ch.unplaced.view packet = (ch.view packet).map PayloadView.unplaced := by
  unfold view
  rw [size_unplaced]
  split <;> rfl

theorem writeContent_unplaced (ch : Channel) (arena : Arena) (packet : Packet)
    (bytes : List UInt8) :
    ch.unplaced.writeContent arena packet bytes = ch.writeContent arena packet bytes := by
  unfold writeContent
  rw [view_unplaced]
  cases ch.view packet <;> rfl

theorem readContent_unplaced (ch : Channel) (arena : Arena) (packet : Packet) (len : Nat) :
    ch.unplaced.readContent arena packet len = ch.readContent arena packet len := by
  unfold readContent
  rw [view_unplaced]
  cases ch.view packet <;> rfl

theorem allocate_unplaced (ch : Channel) (size : Nat) :
    ch.unplaced.allocate size =
      (ch.allocate size).map fun (ch, offset) => (ch.unplaced, offset) := by
  unfold allocate
  rw [size_unplaced, allocations_unplaced]
  dsimp only
  split <;> rfl

theorem submit_unplaced (ch : Channel) (packet : Packet) :
    ch.unplaced.submit packet = (ch.submit packet).map unplaced := by
  unfold submit
  rw [capacity_unplaced, submitted_unplaced]
  split <;> rfl

theorem acknowledge_unplaced (ch : Channel) (packet : Packet) :
    ch.unplaced.acknowledge packet = (ch.acknowledge packet).map unplaced := by
  unfold acknowledge
  rw [capacity_unplaced, acked_unplaced]
  split <;> rfl

theorem popAcksOf_unplaced (ch : Channel) (acked : List Packet) :
    ch.unplaced.popAcksOf acked = (ch.popAcksOf acked).unplaced := by
  -- on the queue: every acknowledgement taken leaves a channel of which the same holds
  induction acked generalizing ch with
  | nil => rfl
  | cons packet rest ih =>
    exact ih (({ ch with
      acked := rest
      signals.ackFreed := ch.signals.ackFreed + 1 } : Channel).release packet.offset)

theorem request_unplaced (ch : Channel) (arena : Arena) (packet : Packet)
    (bytes : Option (List UInt8)) :
    ch.unplaced.request arena packet bytes =
      ((ch.request arena packet bytes).1.unplaced, (ch.request arena packet bytes).2) := by
  unfold request
  rw [allocate_unplaced]
  rcases ch.allocate packet.size with e | ⟨ch, offset⟩
  · rfl
  · simp only [Except.map, writeContent_unplaced, submit_unplaced]
    -- the payload may not be reachable, and then the submit queue may be full
    split
    · rfl
    · cases ch.submit { packet with offset := offset } <;> rfl

/-- Wherever the buffer lies, a client is answered the same, unless it asks for an address. -/
theorem perform_unplaced (ch : Channel) (arena : Arena) {step : ClientStep}
    (h : ∀ packet, step ≠ .address packet) :
    ch.unplaced.perform arena step =
      ((ch.perform arena step).1.unplaced, (ch.perform arena step).2.1,
        (ch.perform arena step).2.2.map ClientAnswer.unplaced) := by
  cases step with
  | allocate size =>
    simp only [perform, allocate_unplaced]
    rcases ch.allocate size with e | ⟨ch, offset⟩ <;> rfl
  | submit packet =>
    simp only [perform, submit_unplaced]
    cases ch.submit packet <;> rfl
  | acknowledge packet =>
    simp only [perform, acknowledge_unplaced]
    cases ch.acknowledge packet <;> rfl
  | takeSubmitted =>
    simp only [perform, takeSubmitted, submitted_unplaced]
    cases ch.submitted <;> rfl
  | popAck =>
    simp only [perform, popAck, acked_unplaced]
    cases ch.acked <;> rfl
  | popAcks =>
    simp only [perform, popAcks, acked_unplaced, popAcksOf_unplaced]
    rfl
  -- memories are found by their numbers, so reading and writing go to the same ones
  | write packet bytes =>
    simp only [perform, writeContent_unplaced]
    rcases ch.writeContent arena packet bytes with e | ⟨arena, count⟩ <;> rfl
  | read packet len =>
    simp only [perform, readContent_unplaced]
    cases ch.readContent arena packet len <;> rfl
  | view packet =>
    simp only [perform, view_unplaced]
    cases ch.view packet <;> rfl
  | address packet => exact absurd rfl (h packet)
  | request packet bytes =>
    simp only [perform, request_unplaced]
    rcases ch.request arena packet bytes with ⟨ch, arena, e | offset⟩ <;> rfl
  | release packet => rfl
  | readSignals => rfl

end Channel

/-! ## Sessions -/

namespace Session

theorem accepts_unplaced (s : Session) (packet : Packet) :
    s.unplaced.accepts packet = s.accepts packet := rfl

theorem acknowledge_unplaced (s : Session) (packet : Packet) (success : Bool) :
    s.unplaced.acknowledge packet success = (s.acknowledge packet success).unplaced := by
  unfold acknowledge
  rw [show s.unplaced.channel = s.channel.unplaced from rfl, Channel.acknowledge_unplaced]
  cases s.channel.acknowledge { packet with succeeded := success } <;> rfl

theorem acknowledgeAll_unplaced (s : Session) (completions : List Completion) :
    s.unplaced.acknowledgeAll completions = (s.acknowledgeAll completions).unplaced := by
  unfold acknowledgeAll
  induction completions generalizing s with
  | nil => rfl
  | cons completion completions ih =>
    rw [List.foldl_cons, List.foldl_cons, acknowledge_unplaced]
    exact ih _

/-- The transfer of an accepted packet, with the payload named by a view. -/
theorem transfer?_unplaced (s : Session) (packet : Packet) :
    s.unplaced.transfer? packet =
      match direction? packet.operation, s.channel.unplaced.view packet with
      | some direction, .ok payload =>
        some ⟨direction, s.grant.offset + packet.block, packet.count, .view payload⟩
      | _, _ => none := by
  unfold transfer? target?
  -- whatever the session was opened with, without placement it names the payload by a view
  rw [show s.unplaced.usesAddresses = false from rfl,
    show s.unplaced.channel = s.channel.unplaced from rfl]
  cases direction? packet.operation with
  | none => cases s.channel.unplaced.view packet <;> rfl
  | some direction => cases s.channel.unplaced.view packet <;> rfl

end Session
end BlockMux
