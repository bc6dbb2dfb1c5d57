import BlockMux.Data.Memory
import BlockMux.Data.Word

/-!
# Shared buffers

A session shares a buffer with its client and the device. A buffer is known by the memory that
backs it, and lies at a run of device addresses. The arena keeps every memory ever mapped, so a
transfer that still holds a view of a payload finds it after the session is gone.

* `map_isSome` — mapping fails only for no bytes and for addresses beyond a 64-bit word.
-/

namespace BlockMux

/-- A buffer of `size` bytes at device address `base`, backed by a memory of the arena. -/
structure SharedBuffer where
  memory : Nat
  base : Nat
  size : Nat
  deriving DecidableEq, Repr

namespace SharedBuffer

/-- One past the last address. -/
def stop (buffer : SharedBuffer) : Nat := buffer.base + buffer.size

/-- Whether `len` bytes at `address` lie in the buffer. -/
def contains (buffer : SharedBuffer) (address len : Nat) : Bool :=
  buffer.base ≤ address && address + len ≤ buffer.stop

end SharedBuffer

/-- All memories mapped so far, in the order they were mapped. -/
structure Arena where
  memories : List Memory := []
  deriving DecidableEq, Repr

namespace Arena

/-- Maps a zeroed buffer of `size` bytes at `base`. -/
def map (arena : Arena) (base size : Nat) : Option (Arena × SharedBuffer) :=
  if size = 0 ∨ maxWord < base + size then none
  else some (⟨arena.memories ++ [Memory.zeroed size]⟩, ⟨arena.memories.length, base, size⟩)

/-- Whether `len` bytes from `offset` on can be accessed. Even of no bytes, an access has to start
inside the buffer. -/
def accessible (buffer : SharedBuffer) (offset len : Nat) : Bool :=
  offset < buffer.size && offset + len ≤ buffer.size

/-- Reads `len` bytes of a buffer from `offset` on. -/
def read (arena : Arena) (buffer : SharedBuffer) (offset len : Nat) : Option (List UInt8) :=
  if accessible buffer offset len then
    arena.memories[buffer.memory]?.map fun memory => memory.read offset len
  else none

/-- Overwrites a buffer with `bytes` from `offset` on. -/
def write (arena : Arena) (buffer : SharedBuffer) (offset : Nat) (bytes : List UInt8) :
    Option Arena :=
  if accessible buffer offset bytes.length then
    some ⟨arena.memories.modify buffer.memory fun memory => memory.write offset bytes⟩
  else none

theorem map_isSome (arena : Arena) (base size : Nat) :
    (arena.map base size).isSome = true ↔ 1 ≤ size ∧ base + size ≤ maxWord := by
  unfold map
  split <;> simp <;> omega

end Arena

/-- The payload of one packet: `length` bytes of a buffer from `offset` on. -/
structure PayloadView where
  buffer : SharedBuffer
  offset : Nat
  length : Nat
  deriving DecidableEq, Repr

namespace PayloadView

/-- The first bytes of the payload, `len` of them or all. -/
def fetch (view : PayloadView) (arena : Arena) (len : Nat) : Option (List UInt8) :=
  arena.read view.buffer view.offset (min len view.length)

/-- Fills the start of the payload with as many of `bytes` as fit, and tells how many. -/
def store (view : PayloadView) (arena : Arena) (bytes : List UInt8) : Option (Arena × Nat) :=
  -- even when nothing fits, the payload has to start inside the buffer
  let fitting := bytes.take view.length
  (arena.write view.buffer view.offset fitting).map fun arena => (arena, fitting.length)

end PayloadView
end BlockMux
