import BlockMux.Access.Arguments
import BlockMux.Access.Rule
import BlockMux.Disk.Table

/-!
# Grants

A grant is a window of device blocks with the rights of one session in it. It comes from the
window a client asks for and the rule for its label: the rule may bind the window to a partition
and take rights away, but never gives more than was asked for.
-/

namespace BlockMux

/-- Why a session is refused. -/
inductive Denial where
  /-- No rule matches the label. -/
  | noRule
  /-- The rule names a partition, but the device has no partition table. -/
  | noTable
  /-- The rule names a partition that the table does not have. -/
  | noPartition (index : Nat)
  /-- The window starts at or after the `limit` blocks there are. -/
  | offsetOutOfBounds (offset limit : Nat)
  /-- The window is longer than the `limit` blocks left. -/
  | spanOutOfBounds (span limit : Nat)
  /-- The session `other` may already write to part of the window. -/
  | writeConflict (other : String)
  /-- An argument has no proper value. -/
  | arguments (cause : ArgumentError)
  /-- The first block of the window is no word. This is not reported: the program stops. -/
  | overflow
  deriving DecidableEq, Repr

namespace Denial

/-- The text of the refusal. -/
def message : Denial → String
  | noRule => "no matching policy"
  | noTable => "device has no partition table"
  | noPartition index => s!"partition {index} unavailable"
  | offsetOutOfBounds offset limit => s!"offset {offset} exceeds block count {limit}"
  | spanOutOfBounds span limit => s!"span {span} exceeds the {limit} blocks available"
  | writeConflict other => s!"would conflict with write session '{other}'"
  | arguments cause => cause.message
  | overflow => "attempt to add with overflow"

end Denial

/-- A window of `span` device blocks from block `offset` on, and the rights in it. -/
structure Grant where
  label : String
  offset : Nat
  span : Nat
  readable : Bool
  writeable : Bool
  deriving DecidableEq, Repr

namespace Grant

/-- One past the last block of the window. -/
def stop (g : Grant) : Nat := g.offset + g.span

/-- Whether the two windows share a block. -/
def overlaps (g h : Grant) : Bool := g.offset < h.stop && h.offset < g.stop

end Grant

/-- The window a client asks for; a span of 0 stands for all blocks from the offset on. -/
structure WindowRequest where
  offset : Nat
  span : Nat
  readable : Bool
  writeable : Bool
  /-- The partition that the window is bound to. -/
  partition : Option Nat
  deriving DecidableEq, Repr

namespace WindowRequest

/-- What the arguments of a client ask for. -/
def ofArguments (args : Arguments) : Except ArgumentError WindowRequest := do
  let offset ← args.quantity "offset" 0
  let span ← args.quantity "span" 0
  let readable ← args.boolean "readable" true
  let writeable ← args.boolean "writeable" true
  return ⟨offset, span, readable, writeable, none⟩

/-- The request with the rights that a rule leaves, bound to the rule's partition. -/
def restrict (request : WindowRequest) (rule : Rule) : WindowRequest :=
  { request with
    readable := rule.readable && request.readable
    writeable := rule.writeable && request.writeable
    partition := rule.partition }

/-- The requested window inside a run of blocks: its first block and length. -/
def within (request : WindowRequest) (start count : Nat) : Except Denial (Nat × Nat) :=
  if count ≤ request.offset then .error (.offsetOutOfBounds request.offset count)
  else if count - request.offset < request.span then
    .error (.spanOutOfBounds request.span (count - request.offset))
  -- nothing has been said yet about the end of the run
  else if maxWord < start + request.offset then .error .overflow
  else
    .ok (start + request.offset,
      if request.span = 0 then count - request.offset else request.span)

/-- The requested window in device blocks, before it is checked against the device. -/
def window (request : WindowRequest) (table : Option PartitionTable) (blockCount : Nat) :
    Except Denial (Nat × Nat) :=
  match request.partition, table with
  -- an offset beyond the device leaves a span of 0 here, and is refused with the offset later
  | none, _ =>
    .ok (request.offset, if request.span = 0 then blockCount - request.offset else request.span)
  | some _, none => .error .noTable
  | some index, some table =>
    match table.partition? index with
    | none => .error (.noPartition index)
    | some p => request.within p.start p.count

/-- The grant for a request on a device of `blockCount` blocks. -/
def grant (request : WindowRequest) (label : String) (table : Option PartitionTable)
    (blockCount : Nat) : Except Denial Grant :=
  match request.window table blockCount with
  | .error e => .error e
  | .ok (offset, span) =>
    if blockCount ≤ offset then .error (.offsetOutOfBounds offset blockCount)
    else if blockCount - offset < span then .error (.spanOutOfBounds span (blockCount - offset))
    else .ok ⟨label, offset, span, request.readable, request.writeable⟩

end WindowRequest

namespace Grant

/-- The grant that a configuration gives for the arguments of a client. -/
def resolve (config : Config) (args : Arguments) (table : Option PartitionTable)
    (blockCount : Nat) : Except Denial Grant :=
  match Rule.bestRule? config.rules args.label with
  | none => .error .noRule
  | some rule =>
    match WindowRequest.ofArguments args with
    | .error e => .error (.arguments e)
    | .ok request => (request.restrict rule).grant args.label table blockCount

end Grant
end BlockMux
