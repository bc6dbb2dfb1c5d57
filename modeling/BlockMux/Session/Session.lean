import BlockMux.Access.Grant
import BlockMux.Device.Backend
import BlockMux.Transport.Channel

/-!
# Sessions

A session takes packets off the submit queue of its channel, checks them against its grant, asks
the driver for the transfers, and acknowledges every packet once. Two conditions keep it from
taking further packets: the driver refused a transfer because its queue is full, which is then
tried again before anything else, or every free acknowledgement slot is spoken for by a packet in
flight.
-/

namespace BlockMux

/-- One client's session on the shared device. -/
structure Session where
  grant : Grant
  /-- The session's ticket on the roster. -/
  ticket : Nat
  /-- The mailbox that the driver reports to. -/
  mailbox : Nat
  channel : Channel
  blockSize : Nat
  /-- What both the device and the grant allow. -/
  operations : Operations
  usesAddresses : Bool
  /-- Packets taken and not acknowledged yet. -/
  inFlight : Nat := 0
  /-- Whether a refused transfer waits to be tried again. -/
  driverCongested : Bool := false
  /-- Whether another packet could overrun the acknowledgement queue. -/
  ackQueueFull : Bool := false
  /-- The packet whose transfer was refused. -/
  pending : Option Packet := none
  deriving DecidableEq, Repr

namespace Session

variable {δ : Type}

/-! ## Acknowledging -/

/-- Acknowledges a packet. Were the queue full, the acknowledgement would be lost. -/
def acknowledge (s : Session) (packet : Packet) (success : Bool) : Session :=
  let channel :=
    match s.channel.acknowledge { packet with succeeded := success } with
    | .ok channel => channel
    | .error _ => s.channel
  { s with channel := channel, inFlight := s.inFlight - 1 }

/-- Acknowledges finished requests in order. -/
def acknowledgeAll (s : Session) (completions : List Completion) : Session :=
  completions.foldl (fun s completion => s.acknowledge completion.packet completion.success) s

/-- Acknowledges what the driver has finished. -/
def collect (s : Session) (b : Backend δ) : Session × Backend δ :=
  (s.acknowledgeAll (b.mailbox s.mailbox).completions, b.modifyMailbox s.mailbox Mailbox.empty)

/-! ## Checking and dispatching -/

/-- Whether a packet asks for blocks of the window, with a permitted operation and a payload of
the buffer that is large enough. -/
def accepts (s : Session) (packet : Packet) : Bool :=
  packet.size != 0 && packet.count != 0 &&
    packet.block + packet.count ≤ s.grant.span &&
    s.operations.supports packet.operation &&
    packet.count * s.blockSize ≤ packet.size &&
    packet.offset + packet.size ≤ s.channel.buffer.size

/-- Which way the bytes of an operation go. -/
def direction? : Operation → Option Direction
  | .read => some .read
  | .write => some .write
  | .unsupported _ => none

/-- Where the payload of a packet is, for the device. -/
def target? (s : Session) (packet : Packet) : Option Target :=
  if s.usesAddresses then some (.address (s.channel.address packet))
  else
    match s.channel.view packet with
    | .ok payload => some (.view payload)
    | .error _ => none

/-- The transfer in device blocks that a packet asks for. -/
def transfer? (s : Session) (packet : Packet) : Option Transfer :=
  match direction? packet.operation, s.target? packet with
  | some direction, some target =>
    some ⟨direction, s.grant.offset + packet.block, packet.count, target⟩
  | _, _ => none

/-- Asks the driver for the transfer of a packet. A congested driver leaves the packet pending,
and a packet that cannot be carried out is acknowledged as failed. -/
def dispatch [Driver δ] (s : Session) (b : Backend δ) (packet : Packet) : Session × Backend δ :=
  match s.transfer? packet with
  | none => (s.acknowledge packet false, b)
  | some transfer =>
    match b.submit transfer ⟨packet, s.mailbox⟩ with
    | (b, .dispatched) => (s, b)
    | (b, .congested) => ({ s with driverCongested := true, pending := some packet }, b)
    | (b, .ioError) => (s.acknowledge packet false, b)

/-! ## Working through the submit queue -/

/-- Acknowledges what is finished and tells whether a packet may be taken. -/
def prepare (s : Session) (b : Backend δ) : Session × Backend δ × Bool :=
  let (s, b) := s.collect b
  -- while a transfer waits to be tried again, the state of the queues is not looked at
  if s.driverCongested then (s, b, false)
  else
    let full : Bool := s.channel.ackSlotsFree ≤ s.inFlight
    ({ s with ackQueueFull := full }, b, !full)

/-- Takes `packet`, the first of the submit queue, where `rest` comes after it. -/
def take [Driver δ] (s : Session) (b : Backend δ) (packet : Packet) (rest : List Packet) :
    Session × Backend δ :=
  let s := { s with channel.submitted := rest, inFlight := s.inFlight + 1 }
  if s.accepts packet then s.dispatch b packet else (s.acknowledge packet false, b)

/-- Works through the packets of the submit queue until one may not be taken. -/
def drainQueue [Driver δ] : List Packet → Session → Backend δ → Session × Backend δ
  | [], s, b =>
    -- what the last packet completed at once is collected here
    let (s, b, _) := s.prepare b
    (s, b)
  | packet :: rest, s, b =>
    match s.prepare b with
    | (s, b, false) => (s, b)
    | (s, b, true) =>
      let (s, b) := s.take b packet rest
      drainQueue rest s b

/-- Takes as many submitted packets as may be taken. -/
def drain [Driver δ] (s : Session) (b : Backend δ) : Session × Backend δ :=
  drainQueue s.channel.submitted s b

/-- Tries a refused transfer again, and goes on with the submit queue unless it is refused
again. -/
def resume [Driver δ] (s : Session) (b : Backend δ) : Session × Backend δ :=
  let (s, b) := s.collect b
  match s.pending with
  | none => s.drain b
  | some packet =>
    let (s, b) := { s with pending := none, driverCongested := false }.dispatch b packet
    if s.driverCongested then (s, b) else s.drain b

/-! ## Events -/

/-- What a session is woken for. -/
inductive Event where
  /-- The client submitted a packet. -/
  | submitted
  /-- The client took an acknowledgement. -/
  | ackFreed
  /-- The driver finished a request, or has room again. -/
  | completion
  deriving DecidableEq, Repr

/-- Does the work of an event, whether it was signalled or not. -/
def process [Driver δ] (s : Session) (b : Backend δ) : Event → Session × Backend δ
  | .submitted => s.drain b
  | .ackFreed => s.resume b
  | .completion => s.resume b

/-- How often an event was signalled since it was last read. -/
def signals (s : Session) (b : Backend δ) : Event → Nat
  | .submitted => s.channel.signals.submitted
  | .ackFreed => s.channel.signals.ackFreed
  | .completion => (b.mailbox s.mailbox).signals

/-- Reads an event, which clears it. -/
def clear (s : Session) (b : Backend δ) : Event → Session × Backend δ
  | .submitted => ({ s with channel.signals.submitted := 0 }, b)
  | .ackFreed => ({ s with channel.signals.ackFreed := 0 }, b)
  | .completion => (s, b.modifyMailbox s.mailbox Mailbox.clearSignals)

/-- Handles an event: clears it and does its work. -/
def handle [Driver δ] (s : Session) (b : Backend δ) (event : Event) : Session × Backend δ :=
  let (s, b) := s.clear b event
  s.process b event

/-- Handles an event if it was signalled. -/
def handleSignalled [Driver δ] (s : Session) (b : Backend δ) (event : Event) :
    Session × Backend δ :=
  if s.signals b event = 0 then (s, b) else s.handle b event

/-- Whether no event was signalled. -/
def isQuiet (s : Session) (b : Backend δ) : Bool :=
  s.signals b .submitted == 0 && s.signals b .ackFreed == 0 && s.signals b .completion == 0

/-- Handles the three events in turn. -/
def handleRound [Driver δ] (s : Session) (b : Backend δ) : Session × Backend δ :=
  let (s, b) := s.handleSignalled b .submitted
  let (s, b) := s.handleSignalled b .ackFreed
  s.handleSignalled b .completion

/-- Handles rounds of events until none was signalled, at most `limit` of them. -/
def handleRounds [Driver δ] : (limit : Nat) → Session → Backend δ → Session × Backend δ
  | 0, s, b => (s, b)
  | limit + 1, s, b =>
    if s.isQuiet b then (s, b)
    else
      let (s, b) := s.handleRound b
      handleRounds limit s b

/-- Handles events until none is left. With a driver that wakes a session only for finished
requests, a round leaves an event behind only if it settled a packet, so there are at most two
rounds more than packets queued or pending. -/
def run [Driver δ] (s : Session) (b : Backend δ) : Session × Backend δ :=
  handleRounds (s.channel.submitted.length + s.pending.toList.length + 2) s b

end Session
end BlockMux
