import BlockMux.Device.Driver

/-!
# Scripted devices

A device without blocks that answers each transfer as its script says. It shows how sessions
behave with a device that answers in any order.
-/

namespace BlockMux

/-- What a scripted device does with a transfer. -/
inductive Cue where
  /-- Completes it with success at once. -/
  | ok
  /-- Completes it without success at once. -/
  | fail
  /-- Takes it, to be completed later. -/
  | hold
  /-- Refuses it because of a full queue. -/
  | busy
  /-- Refuses it for good. -/
  | reject
  deriving DecidableEq, Repr

/-- A transfer that was asked for, and the cue it met. -/
structure Call where
  transfer : Transfer
  cue : Cue
  deriving DecidableEq, Repr

/-- A device that follows a script; after its end every cue is `ok`. -/
structure Scripted where
  blockCount : Nat
  blockSize : Nat
  operations : Operations := .readWrite
  usesAddresses : Bool := false
  /-- Whether the device serves addresses, buffers and flushes itself. -/
  isFull : Bool := true
  /-- Whether no buffer is to be had. -/
  allocationFails : Bool := false
  script : List Cue := []
  /-- All transfers asked for. -/
  calls : List Call := []
  /-- The requests taken for later, `none` once completed. -/
  held : List (Option Request) := []
  /-- The mailboxes of refused requests. -/
  waiters : List Nat := []
  /-- How often the device was flushed. -/
  syncs : Nat := 0
  deriving DecidableEq, Repr

namespace Scripted

/-- Answers a transfer as the next cue says. -/
def follow (device : Scripted) (arena : Arena) (t : Transfer) (request : Request) :
    Reply Scripted :=
  let cue := device.script.headD .ok
  let device := { device with
    script := device.script.tail
    calls := device.calls ++ [⟨t, cue⟩] }
  match cue with
  | .ok => ⟨device, arena, .dispatched, [.completed request true]⟩
  | .fail => ⟨device, arena, .dispatched, [.completed request false]⟩
  | .hold => ⟨{ device with held := device.held ++ [some request] }, arena, .dispatched, []⟩
  | .busy =>
    ⟨{ device with waiters := device.waiters ++ [request.mailbox] }, arena, .congested, []⟩
  | .reject => ⟨device, arena, .ioError, []⟩

/-- Answers a transfer. A device that is not full refuses device addresses out of hand. -/
def submit (device : Scripted) (arena : Arena) (t : Transfer) (request : Request) :
    Reply Scripted :=
  match t.target with
  | .view _ => device.follow arena t request
  | .address _ =>
    if device.isFull then device.follow arena t request else ⟨device, arena, .ioError, []⟩

/-- Completes the held request at a position, unless there is none or it is done. -/
def finish (device : Scripted) (position : Nat) (success : Bool) : Option (Scripted × Notice) :=
  match device.held[position]? with
  | some (some request) =>
    some ({ device with held := device.held.set position none }, .completed request success)
  | _ => none

/-- Wakes everyone who was refused. -/
def wakeAll (device : Scripted) : Scripted × List Notice :=
  ({ device with waiters := [] }, device.waiters.map .ready)

/-- Counts a flush. -/
def sync (device : Scripted) : Scripted :=
  if device.isFull then { device with syncs := device.syncs + 1 } else device

/-- Hands out a buffer, always at the same address. -/
def allocate (device : Scripted) (arena : Arena) (size : Nat) :
    Option (Scripted × Arena × SharedBuffer) :=
  if device.allocationFails then none
  else
    (arena.map (if device.isFull then 0x4000 else 0) size).map fun (arena, buffer) =>
      (device, arena, buffer)

/-- The steps of a scripted device. -/
def advance (device : Scripted) (arena : Arena) : DeviceStep → Progress Scripted
  | .finish position success =>
    match device.finish position success with
    | none => ⟨device, arena, [], .truth false⟩
    | some (device, notice) => ⟨device, arena, [notice], .truth true⟩
  | .wakeAll =>
    let (device, notices) := device.wakeAll
    ⟨device, arena, notices, .number notices.length⟩
  | _ => ⟨device, arena, [], .notSupported⟩

instance : Device Scripted where
  blockCount := Scripted.blockCount
  blockSize := Scripted.blockSize
  operations := Scripted.operations
  usesAddresses := Scripted.usesAddresses
  submit := submit
  sync := sync
  allocate := allocate
  advance := advance

end Scripted
end BlockMux
