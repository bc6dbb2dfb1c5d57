import BlockMux.Device.Driver
import BlockMux.Disk.Image

/-!
# Devices on a medium

A device whose blocks are the bytes of anything that can be read and written at a position, such as
a file. What the medium does when it is used is its own affair: it may fail, and it may change with
every use. The device asks it for whole ranges only, carries every transfer out before the answer,
and refuses one that fails. It counts its blocks once, when it is made. A disk image is such a
medium.

* `submit_ne_congested` — a device on a medium is never congested.
-/

namespace BlockMux

/-- A medium with states in `μ`, whose bytes can be read and written at a position. -/
class Medium (μ : Type) where
  contents : μ → Memory
  /-- Goes to the end, which tells how many bytes there are. -/
  length : μ → Except IoError Nat × μ
  /-- Goes to `pos` and reads exactly `len` bytes. -/
  read : μ → (pos len : Nat) → Except IoError (List UInt8) × μ
  /-- Goes to `pos` and writes all of `bytes`. -/
  write : μ → (pos : Nat) → (bytes : List UInt8) → Except IoError Unit × μ
  /-- Flushes the write cache; a failure is of no consequence. -/
  flush : μ → μ
  /-- Someone else changes bytes. -/
  poke : μ → (pos : Nat) → (bytes : List UInt8) → μ

/-- A device on a medium. -/
structure StreamDevice (μ : Type) where
  medium : μ
  blockSize : Nat
  blockCount : Nat
  deriving DecidableEq, Repr

namespace StreamDevice

variable {μ : Type} [Medium μ]

/-- Divides a medium into blocks. -/
def create (medium : μ) (blockSize : Nat) : Except IoError (StreamDevice μ) :=
  if blockSize = 0 then .error .blockEmpty
  else
    match Medium.length medium with
    | (.error e, _) => .error e
    | (.ok size, medium) => .ok ⟨medium, blockSize, size / blockSize⟩

/-- Reads `len` bytes from `pos` on into the payload: the memories after it, unless it failed, and the
medium. -/
def readIn (device : StreamDevice μ) (arena : Arena) (pos len : Nat) (payload : PayloadView) :
    Option Arena × μ :=
  match Medium.read device.medium pos len with
  | (.error _, medium) => (none, medium)
  -- the payload is touched only when all bytes have been read
  | (.ok bytes, medium) => ((payload.store arena bytes).map fun (arena, _) => arena, medium)

/-- Writes the first `len` bytes of the payload from `pos` on. -/
def writeOut (device : StreamDevice μ) (arena : Arena) (pos len : Nat) (payload : PayloadView) :
    Option Arena × μ :=
  match payload.fetch arena len with
  | none => (none, device.medium)
  | some bytes =>
    match Medium.write device.medium pos bytes with
    | (.error _, medium) => (none, medium)
    | (.ok _, medium) => (some arena, medium)

/-- Carries a transfer out, if the device has the blocks and the payload can hold them. -/
def transfer (device : StreamDevice μ) (arena : Arena) (t : Transfer) (payload : PayloadView) :
    Option Arena × μ :=
  let pos := t.block * device.blockSize
  let len := t.count * device.blockSize
  if device.blockCount < t.block + t.count ∨ payload.length < len then (none, device.medium)
  else
    match t.direction with
    | .read => device.readIn arena pos len payload
    | .write => device.writeOut arena pos len payload

/-- Carries a transfer out and completes it, or refuses it. Device addresses are not served. -/
def submit (device : StreamDevice μ) (arena : Arena) (t : Transfer) (request : Request) :
    Reply (StreamDevice μ) :=
  match t.target with
  | .address _ => ⟨device, arena, .ioError, []⟩
  | .view payload =>
    match device.transfer arena t payload with
    | (none, medium) => ⟨{ device with medium := medium }, arena, .ioError, []⟩
    | (some arena, medium) =>
      ⟨{ device with medium := medium }, arena, .dispatched, [.completed request true]⟩

/-- Flushes the medium. -/
def sync (device : StreamDevice μ) : StreamDevice μ :=
  { device with medium := Medium.flush device.medium }

/-- The steps of a device on a medium; it has none waiting. -/
def advance (device : StreamDevice μ) (arena : Arena) : DeviceStep → Progress (StreamDevice μ)
  | .peek pos len => ⟨device, arena, [], .bytes ((Medium.contents device.medium).read pos len)⟩
  | .poke pos bytes =>
    ⟨{ device with medium := Medium.poke device.medium pos bytes }, arena, [], .done⟩
  | _ => ⟨device, arena, [], .notSupported⟩

instance : Device (StreamDevice μ) where
  blockCount := StreamDevice.blockCount
  blockSize := StreamDevice.blockSize
  submit := submit
  sync := sync
  advance := advance

theorem submit_ne_congested (device : StreamDevice μ) (arena : Arena) (t : Transfer)
    (request : Request) : (device.submit arena t request).outcome ≠ .congested := by
  unfold submit
  split
  · simp
  · split <;> simp

end StreamDevice

/-- A disk image is a medium, and a failing access changes nothing of it. -/
instance : Medium Image where
  contents := Image.contents
  length image := (.ok image.contents.size, image)
  read image pos len := (image.read pos len, image)
  write image pos bytes :=
    match image.write pos bytes with
    | .error e => (.error e, image)
    | .ok image => (.ok (), image)
  flush image := { image with flushes := image.flushes + 1 }
  poke image pos bytes := { image with contents := image.contents.write pos bytes }

/-- A device on a disk image. -/
abbrev ImageDevice := StreamDevice Image

end BlockMux
