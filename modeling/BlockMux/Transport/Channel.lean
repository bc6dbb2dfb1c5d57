import BlockMux.Transport.Buffer
import BlockMux.Transport.Packet

/-!
# Channels

A channel joins a client and its session: a queue of submitted packets, a queue of
acknowledgements of the same capacity, and the buffer that holds the payloads. The client divides
the buffer among its packets by first fit. Each queue has an event that counts the signals to the
other side since it was last looked at.
-/

namespace BlockMux

/-- Why an operation on a channel fails. -/
inductive ChannelError where
  /-- The submit queue has no free slot. -/
  | submitQueueFull
  /-- The acknowledgement queue has no free slot. -/
  | ackQueueFull
  /-- No free range of the buffer is large enough. -/
  | bufferExhausted
  /-- The payload does not lie in the buffer. -/
  | outOfBounds
  /-- The payload starts at the end of the buffer. -/
  | accessFailed
  /-- The queues must hold at least one packet. -/
  | noQueue
  deriving DecidableEq, Repr

namespace ChannelError

/-- The text of the error. -/
def message : ChannelError → String
  | submitQueueFull => "submit queue is full"
  | ackQueueFull => "acknowledgement queue is full"
  | bufferExhausted => "packet buffer exhausted"
  | outOfBounds => "packet payload outside of the packet buffer"
  | accessFailed => "packet buffer access failed"
  | noQueue => "queue size must not be zero"

end ChannelError

/-- A range of the buffer that the client has reserved. -/
structure Allocation where
  offset : Nat
  size : Nat
  deriving DecidableEq, Repr

namespace Allocation

/-- One past the last byte. -/
def stop (a : Allocation) : Nat := a.offset + a.size

/-- The first offset from `candidate` on where `size` bytes fit between allocations, which are
ordered by offset. -/
def firstFit (size candidate : Nat) : List Allocation → Nat
  | [] => candidate
  | a :: live => if candidate + size ≤ a.offset then candidate else firstFit size a.stop live

/-- Puts an allocation among others, ordered by offset. -/
def insert (new : Allocation) : List Allocation → List Allocation
  | [] => [new]
  | a :: live => if new.offset < a.offset then new :: a :: live else a :: insert new live

end Allocation

/-- How often each event was signalled since it was last read. -/
structure ChannelSignals where
  submitted : Nat := 0
  ackFreed : Nat := 0
  ackAvailable : Nat := 0
  deriving DecidableEq, Repr

/-- The queues, the payload buffer and the events between a client and its session. -/
structure Channel where
  buffer : SharedBuffer
  capacity : Nat
  /-- Submitted packets, the oldest first. -/
  submitted : List Packet := []
  /-- Acknowledgements, the oldest first. -/
  acked : List Packet := []
  /-- The client's reservations, ordered by offset. -/
  allocations : List Allocation := []
  signals : ChannelSignals := {}
  deriving DecidableEq, Repr

namespace Channel

/-- A channel over `buffer` with `capacity` slots in each queue. -/
def create (buffer : SharedBuffer) (capacity : Nat) : Except ChannelError Channel :=
  if capacity = 0 then .error .noQueue else .ok { buffer := buffer, capacity := capacity }

/-! ## The client's side -/

/-- Reserves `size` bytes at the lowest offset where they fit. -/
def allocate (ch : Channel) (size : Nat) : Except ChannelError (Channel × Nat) :=
  -- the last gap is open, so a candidate may lie beyond the end of the buffer
  let offset := Allocation.firstFit size 0 ch.allocations
  if size = 0 ∨ ch.buffer.size < offset + size then .error .bufferExhausted
  else .ok ({ ch with allocations := Allocation.insert ⟨offset, size⟩ ch.allocations }, offset)

/-- Gives up the reservation at `offset`, if there is one. -/
def release (ch : Channel) (offset : Nat) : Channel :=
  { ch with allocations := ch.allocations.filter (·.offset != offset) }

/-- Puts a packet into the submit queue. -/
def submit (ch : Channel) (packet : Packet) : Except ChannelError Channel :=
  if ch.capacity ≤ ch.submitted.length then .error .submitQueueFull
  else .ok { ch with
    submitted := ch.submitted ++ [packet]
    signals.submitted := ch.signals.submitted + 1 }

/-- Takes the oldest acknowledgement. -/
def popAck (ch : Channel) : Option (Packet × Channel) :=
  match ch.acked with
  | [] => none
  | packet :: rest =>
    some (packet, { ch with acked := rest, signals.ackFreed := ch.signals.ackFreed + 1 })

/-- Whether an acknowledgement waits for the client. -/
def hasAck (ch : Channel) : Bool := !ch.acked.isEmpty

/-- The payload of a packet. -/
def view (ch : Channel) (packet : Packet) : Except ChannelError PayloadView :=
  if ch.buffer.size < packet.offset + packet.size then .error .outOfBounds
  else .ok ⟨ch.buffer, packet.offset, packet.size⟩

/-- The device address of the payload of a packet. -/
def address (ch : Channel) (packet : Packet) : Nat := ch.buffer.base + packet.offset

/-- Copies as much of `bytes` as fits into the payload of a packet, and tells how much. -/
def writeContent (ch : Channel) (arena : Arena) (packet : Packet) (bytes : List UInt8) :
    Except ChannelError (Arena × Nat) :=
  match ch.view packet with
  | .error e => .error e
  | .ok view =>
    match view.store arena bytes with
    | none => .error .accessFailed
    | some result => .ok result

/-- The first bytes of the payload of a packet, `len` of them or all. -/
def readContent (ch : Channel) (arena : Arena) (packet : Packet) (len : Nat) :
    Except ChannelError (List UInt8) :=
  match ch.view packet with
  | .error e => .error e
  | .ok view =>
    match view.fetch arena len with
    | none => .error .accessFailed
    | some bytes => .ok bytes

/-! ## The session's side -/

/-- Whether a submitted packet waits for the session. -/
def hasSubmitted (ch : Channel) : Bool := !ch.submitted.isEmpty

/-- Takes the oldest submitted packet. -/
def takeSubmitted (ch : Channel) : Option (Packet × Channel) :=
  match ch.submitted with
  | [] => none
  | packet :: rest => some (packet, { ch with submitted := rest })

/-- The number of free acknowledgement slots. -/
def ackSlotsFree (ch : Channel) : Nat := ch.capacity - ch.acked.length

/-- Whether a packet can be acknowledged. -/
def readyToAck (ch : Channel) : Bool := 0 < ch.ackSlotsFree

/-- Puts a packet into the acknowledgement queue. -/
def acknowledge (ch : Channel) (packet : Packet) : Except ChannelError Channel :=
  if ch.capacity ≤ ch.acked.length then .error .ackQueueFull
  else .ok { ch with
    acked := ch.acked ++ [packet]
    signals.ackAvailable := ch.signals.ackAvailable + 1 }

end Channel
end BlockMux
