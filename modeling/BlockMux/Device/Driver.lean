import BlockMux.Transport.Buffer
import BlockMux.Transport.Packet

/-!
# Drivers and devices

A driver is asked for one transfer at a time. It takes the request and completes it later, or
before it answers, or it refuses, because its queue is full or because it cannot carry the
transfer out; a refused request stays with its session. What a driver tells sessions, it tells
by notices: that a request is complete, or that there is room again. A device is a driver together
with the steps it takes on its own.
-/

namespace BlockMux

/-- Which way the bytes go. -/
inductive Direction where
  /-- From the device into the payload. -/
  | read
  /-- From the payload to the device. -/
  | write
  deriving DecidableEq, Repr

/-- Where the payload of a transfer is. -/
inductive Target where
  | view (payload : PayloadView)
  /-- At a device address, for a device that accesses memory by itself. -/
  | address (address : Nat)
  deriving DecidableEq, Repr

/-- A transfer of `count` device blocks from block `block` on. -/
structure Transfer where
  direction : Direction
  block : Nat
  count : Nat
  target : Target
  deriving DecidableEq, Repr

/-- A packet on its way through a driver, with the mailbox to report to. -/
structure Request where
  packet : Packet
  mailbox : Nat
  deriving DecidableEq, Repr

/-- What a driver answers to a transfer. -/
inductive Outcome where
  /-- The request was taken and will be completed, or is already. -/
  | dispatched
  /-- The queue is full; the transfer can be tried again after progress. -/
  | congested
  /-- The transfer cannot be carried out. -/
  | ioError
  deriving DecidableEq, Repr

/-- What a driver tells a session. -/
inductive Notice where
  /-- A request is finished. -/
  | completed (request : Request) (success : Bool)
  /-- A driver that was congested has room again. -/
  | ready (mailbox : Nat)
  deriving DecidableEq, Repr

/-- The answer to a transfer, with the state after it and the notices sent meanwhile. -/
structure Reply (δ : Type) where
  driver : δ
  arena : Arena
  outcome : Outcome
  notices : List Notice := []

namespace Arena

/-- A buffer at address 0, as handed out where addresses do not matter. -/
def mapAtZero (arena : Arena) (size : Nat) : Option (Arena × SharedBuffer) := arena.map 0 size

end Arena

/-- A driver with states in `δ`. Blocks are device blocks. -/
class Driver (δ : Type) where
  blockCount : δ → Nat
  blockSize : δ → Nat
  /-- The operations that the device allows. -/
  operations : δ → Operations := fun _ => .readWrite
  /-- Whether transfers name device addresses rather than views. -/
  usesAddresses : δ → Bool := fun _ => false
  /-- Asks for a transfer. -/
  submit : δ → Arena → Transfer → Request → Reply δ
  /-- Flushes the write cache. -/
  sync : δ → δ := id
  /-- Hands out a buffer for a new session. -/
  allocate : δ → Arena → Nat → Option (δ × Arena × SharedBuffer) := fun driver arena size =>
    (arena.mapAtZero size).map fun (arena, buffer) => (driver, arena, buffer)
  /-- Takes a buffer back. -/
  release : δ → SharedBuffer → δ := fun driver _ => driver

/-! ## Steps of a device -/

/-- What happens to a device besides being asked for transfers. -/
inductive DeviceStep where
  /-- Someone looks at bytes of the device. -/
  | peek (pos len : Nat)
  /-- Someone changes bytes of the device. -/
  | poke (pos : Nat) (bytes : List UInt8)
  /-- The oldest waiting transfer is carried out. -/
  | completeNext
  /-- All waiting transfers are carried out. -/
  | completeAll
  /-- A held request is completed. -/
  | finish (position : Nat) (success : Bool)
  /-- Everyone who was refused is woken. -/
  | wakeAll
  deriving DecidableEq, Repr

/-- What a step of a device yields. -/
inductive DeviceAnswer where
  | done
  | bytes (bytes : List UInt8)
  | truth (b : Bool)
  | number (n : Nat)
  /-- The device takes no such step. -/
  | notSupported
  deriving DecidableEq, Repr

/-- A step of a device: the state after it, and the notices sent meanwhile. -/
structure Progress (δ : Type) where
  driver : δ
  arena : Arena
  notices : List Notice := []
  answer : DeviceAnswer

/-- A driver with the steps that its device takes. -/
class Device (δ : Type) extends Driver δ where
  advance : δ → Arena → DeviceStep → Progress δ

/-! ## Changing the type of states -/

namespace Reply

/-- The reply with another type of states. -/
def map {δ ε : Type} (f : δ → ε) (reply : Reply δ) : Reply ε :=
  ⟨f reply.driver, reply.arena, reply.outcome, reply.notices⟩

end Reply

namespace Progress

/-- The progress with another type of states. -/
def map {δ ε : Type} (f : δ → ε) (progress : Progress δ) : Progress ε :=
  ⟨f progress.driver, progress.arena, progress.notices, progress.answer⟩

end Progress
end BlockMux
