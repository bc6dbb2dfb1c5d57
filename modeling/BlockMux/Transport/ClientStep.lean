import BlockMux.Transport.Channel

/-!
# Steps on a channel

Everything that can be done with a channel from outside a session, as one type of steps with one
function that carries them out.
-/

namespace BlockMux

/-- A step on a channel. -/
inductive ClientStep where
  | allocate (size : Nat)
  /-- Gives up the reservation where the payload of a packet starts. -/
  | release (packet : Packet)
  | submit (packet : Packet)
  /-- Takes a submitted packet, as a session does. -/
  | takeSubmitted
  /-- Acknowledges a packet, as a session does. -/
  | acknowledge (packet : Packet)
  | popAck
  /-- Takes all acknowledgements and gives up their reservations. -/
  | popAcks
  | write (packet : Packet) (bytes : List UInt8)
  | read (packet : Packet) (len : Nat)
  | view (packet : Packet)
  | address (packet : Packet)
  /-- Reads all events, which clears them. -/
  | readSignals
  /-- Reserves a payload of `packet.size` bytes, fills it, and submits the packet. -/
  | request (packet : Packet) (bytes : Option (List UInt8))
  deriving DecidableEq, Repr

/-- What a step on a channel yields. -/
inductive ClientAnswer where
  | done
  | number (n : Nat)
  | packet (packet : Option Packet)
  | packets (packets : List Packet)
  | bytes (bytes : List UInt8)
  | view (payload : PayloadView)
  | signals (signals : ChannelSignals)
  deriving DecidableEq, Repr

namespace Channel

/-- Takes the acknowledgements of `acked`, the queue of the channel, one after the other. -/
def popAcksOf (ch : Channel) : List Packet → Channel
  | [] => ch
  | packet :: rest =>
    let ch := { ch with acked := rest, signals.ackFreed := ch.signals.ackFreed + 1 }
    (ch.release packet.offset).popAcksOf rest

/-- Takes all acknowledgements and gives up their reservations. -/
def popAcks (ch : Channel) : List Packet × Channel := (ch.acked, ch.popAcksOf ch.acked)

/-- Reserves a payload, fills it if there are bytes for it, and submits the packet. What was done
before a failing step stays done. -/
def request (ch : Channel) (arena : Arena) (packet : Packet) (bytes : Option (List UInt8)) :
    Channel × Arena × Except ChannelError Nat :=
  match ch.allocate packet.size with
  | .error e => (ch, arena, .error e)
  | .ok (ch, offset) =>
    let packet := { packet with offset := offset }
    match bytes.mapM fun bytes => ch.writeContent arena packet bytes with
    | .error e => (ch, arena, .error e)
    | .ok written =>
      let arena := (written.map (·.1)).getD arena
      match ch.submit packet with
      | .error e => (ch, arena, .error e)
      | .ok ch => (ch, arena, .ok offset)

/-- Carries a step out. -/
def perform (ch : Channel) (arena : Arena) :
    ClientStep → Channel × Arena × Except ChannelError ClientAnswer
  | .allocate size =>
    match ch.allocate size with
    | .error e => (ch, arena, .error e)
    | .ok (ch, offset) => (ch, arena, .ok (.number offset))
  | .release packet => (ch.release packet.offset, arena, .ok .done)
  | .submit packet =>
    match ch.submit packet with
    | .error e => (ch, arena, .error e)
    | .ok ch => (ch, arena, .ok .done)
  | .takeSubmitted =>
    match ch.takeSubmitted with
    | none => (ch, arena, .ok (.packet none))
    | some (packet, ch) => (ch, arena, .ok (.packet (some packet)))
  | .acknowledge packet =>
    match ch.acknowledge packet with
    | .error e => (ch, arena, .error e)
    | .ok ch => (ch, arena, .ok .done)
  | .popAck =>
    match ch.popAck with
    | none => (ch, arena, .ok (.packet none))
    | some (packet, ch) => (ch, arena, .ok (.packet (some packet)))
  | .popAcks =>
    let (packets, ch) := ch.popAcks
    (ch, arena, .ok (.packets packets))
  | .write packet bytes =>
    match ch.writeContent arena packet bytes with
    | .error e => (ch, arena, .error e)
    | .ok (arena, count) => (ch, arena, .ok (.number count))
  | .read packet len => (ch, arena, (ch.readContent arena packet len).map .bytes)
  | .view packet => (ch, arena, (ch.view packet).map .view)
  | .address packet => (ch, arena, .ok (.number (ch.address packet)))
  | .readSignals => ({ ch with signals := {} }, arena, .ok (.signals ch.signals))
  | .request packet bytes =>
    let (ch, arena, result) := ch.request arena packet bytes
    (ch, arena, result.map .number)

theorem acked_popAcksOf (ch : Channel) (acked : List Packet) (h : ch.acked = acked) :
    (ch.popAcksOf acked).acked = [] := by
  induction acked generalizing ch with
  | nil => exact h
  | cons packet rest ih => exact ih _ rfl

end Channel
end BlockMux
