import BlockMux.Device.Driver

/-!
# Memory-backed devices

A device whose blocks are in memory. It carries transfers out at once, or, given a queue depth,
when it is told to, one after the other. Requests that find the queue full are refused, and their
sessions are woken after the next completion. Buffers get page-aligned addresses that are never
used again.

* `completeNext_eq_none_iff` — there is nothing to complete exactly when the queue is empty.
-/

namespace BlockMux

/-- A transfer that waits in the queue of a device. -/
structure Job where
  transfer : Transfer
  request : Request
  deriving DecidableEq, Repr

/-- A device in memory. -/
structure Ram where
  contents : Memory
  blockSize : Nat
  /-- Whether transfers name device addresses. -/
  usesAddresses : Bool := false
  /-- How many transfers can wait; without a queue they are carried out at once. -/
  queueDepth : Option Nat := none
  /-- The blocks `[first, end)` that cannot be transferred. -/
  badBlocks : Option (Nat × Nat) := none
  /-- The transfers that wait, the oldest first. -/
  queue : List Job := []
  /-- The buffers handed out. -/
  buffers : List SharedBuffer := []
  /-- The address of the next buffer. -/
  nextBase : Nat := 0x10000000
  /-- All transfers taken so far. -/
  accepted : List Transfer := []
  /-- The mailboxes of requests refused since the last completion. -/
  waiters : List Nat := []
  deriving DecidableEq, Repr

namespace Ram

/-- The number of whole blocks. -/
def blockCount (ram : Ram) : Nat := ram.contents.size / ram.blockSize

/-- Whether a transfer stays on the device. The block after it needs a number even where blocks
hold no bytes. -/
def inRange (ram : Ram) (t : Transfer) : Bool :=
  t.block + t.count ≤ maxWord && (t.block + t.count) * ram.blockSize ≤ ram.contents.size

/-- Whether a transfer touches a bad block. -/
def isBad (ram : Ram) (t : Transfer) : Bool :=
  match ram.badBlocks with
  | none => false
  | some (first, stop) => t.block < stop && first < t.block + t.count

/-! ## Carrying transfers out -/

/-- Moves bytes between the device and a payload view. A view shorter than the blocks moves what
it has, and the transfer fails. -/
def moveView (ram : Ram) (arena : Arena) (direction : Direction) (pos len : Nat)
    (payload : PayloadView) : Memory × Arena × Bool :=
  match direction with
  | .write =>
    match payload.fetch arena len with
    | none => (ram.contents, arena, false)
    | some bytes => (ram.contents.write pos bytes, arena, bytes.length == len)
  | .read =>
    match payload.store arena (ram.contents.read pos len) with
    | none => (ram.contents, arena, false)
    | some (arena, moved) => (ram.contents, arena, moved == len)

/-- Moves bytes between the device and the buffer at a device address. -/
def moveAddress (ram : Ram) (arena : Arena) (direction : Direction) (pos len address : Nat) :
    Memory × Arena × Bool :=
  -- a transfer that waited may find its buffer gone
  match ram.buffers.find? (·.contains address len) with
  | none => (ram.contents, arena, false)
  | some buffer =>
    match direction with
    | .write =>
      match arena.read buffer (address - buffer.base) len with
      | none => (ram.contents, arena, false)
      | some bytes => (ram.contents.write pos bytes, arena, true)
    | .read =>
      match arena.write buffer (address - buffer.base) (ram.contents.read pos len) with
      | none => (ram.contents, arena, false)
      | some arena => (ram.contents, arena, true)

/-- Carries a transfer out: the contents and memories after it, and whether it succeeded. -/
def move (ram : Ram) (arena : Arena) (t : Transfer) : Memory × Arena × Bool :=
  if ram.inRange t then
    let pos := t.block * ram.blockSize
    let len := t.count * ram.blockSize
    match t.target with
    | .view payload => ram.moveView arena t.direction pos len payload
    | .address address => ram.moveAddress arena t.direction pos len address
  else (ram.contents, arena, false)

/-- Carries a job out and reports it. -/
def execute (ram : Ram) (arena : Arena) (job : Job) : Ram × Arena × Notice :=
  let (contents, arena, success) := ram.move arena job.transfer
  ({ ram with contents := contents }, arena, .completed job.request success)

/-- Takes a transfer, or refuses it. -/
def submit (ram : Ram) (arena : Arena) (t : Transfer) (request : Request) : Reply Ram :=
  if !ram.inRange t || ram.isBad t then ⟨ram, arena, .ioError, []⟩
  else
    match ram.queueDepth with
    | some depth =>
      if depth ≤ ram.queue.length then
        -- one entry for each refusal: whoever was refused twice is woken twice
        ⟨{ ram with waiters := ram.waiters ++ [request.mailbox] }, arena, .congested, []⟩
      else
        let ram := { ram with
          queue := ram.queue ++ [⟨t, request⟩]
          accepted := ram.accepted ++ [t] }
        ⟨ram, arena, .dispatched, []⟩
    | none =>
      let (ram, arena, notice) := ram.execute arena ⟨t, request⟩
      ⟨{ ram with accepted := ram.accepted ++ [t] }, arena, .dispatched, [notice]⟩

/-- Carries the oldest waiting transfer out and wakes everyone who was refused. -/
def completeNext (ram : Ram) (arena : Arena) : Option (Ram × Arena × List Notice) :=
  match ram.queue with
  | [] => none
  | job :: queue =>
    let (next, arena, notice) := { ram with queue := queue }.execute arena job
    some ({ next with waiters := [] }, arena, notice :: next.waiters.map .ready)

/-- Carries up to `limit` waiting transfers out, and tells how many there were. -/
def completeUpTo (ram : Ram) (arena : Arena) : (limit : Nat) → Ram × Arena × List Notice × Nat
  | 0 => (ram, arena, [], 0)
  | limit + 1 =>
    match ram.completeNext arena with
    | none => (ram, arena, [], 0)
    | some (ram, arena, notices) =>
      let (ram, arena, more, count) := completeUpTo ram arena limit
      (ram, arena, notices ++ more, count + 1)

/-- Carries all waiting transfers out, and tells how many there were. -/
def completeAll (ram : Ram) (arena : Arena) : Ram × Arena × List Notice × Nat :=
  ram.completeUpTo arena ram.queue.length

/-! ## Buffers -/

/-- Buffers start at multiples of this address. -/
def pageSize : Nat := 0x1000

/-- The size of the pages that hold `size` bytes. -/
def pages (size : Nat) : Nat := (size + pageSize - 1) / pageSize * pageSize

/-- Hands out a buffer at an address of its own. -/
def allocate (ram : Ram) (arena : Arena) (size : Nat) : Option (Ram × Arena × SharedBuffer) :=
  (arena.map ram.nextBase size).map fun (arena, buffer) =>
    ({ ram with
        nextBase := ram.nextBase + pages size
        buffers := ram.buffers ++ [buffer] }, arena, buffer)

/-- Takes a buffer back. -/
def release (ram : Ram) (buffer : SharedBuffer) : Ram :=
  { ram with buffers := ram.buffers.filter (·.base != buffer.base) }

/-- The steps of a device in memory. -/
def advance (ram : Ram) (arena : Arena) : DeviceStep → Progress Ram
  | .peek pos len => ⟨ram, arena, [], .bytes (ram.contents.read pos len)⟩
  | .poke pos bytes => ⟨{ ram with contents := ram.contents.write pos bytes }, arena, [], .done⟩
  | .completeNext =>
    match ram.completeNext arena with
    | none => ⟨ram, arena, [], .truth false⟩
    | some (ram, arena, notices) => ⟨ram, arena, notices, .truth true⟩
  | .completeAll =>
    let (ram, arena, notices, count) := ram.completeAll arena
    ⟨ram, arena, notices, .number count⟩
  | _ => ⟨ram, arena, [], .notSupported⟩

instance : Device Ram where
  blockCount := blockCount
  blockSize := Ram.blockSize
  usesAddresses := Ram.usesAddresses
  submit := submit
  allocate := allocate
  release := release
  advance := advance

theorem completeNext_eq_none_iff (ram : Ram) (arena : Arena) :
    ram.completeNext arena = none ↔ ram.queue = [] := by
  unfold completeNext
  split <;> simp_all

end Ram
end BlockMux
