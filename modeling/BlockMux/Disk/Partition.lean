import BlockMux.Data.Word
import BlockMux.Text.Hex

/-!
# Partitions

A partition is a numbered run of blocks of the device, with what its table says about the
contents.
-/

namespace BlockMux

/-- A 16-byte identifier as stored on disk. -/
structure Guid where
  bytes : List UInt8
  deriving DecidableEq, Repr

namespace Guid

/-- The identifier of unused entries. -/
def isNil (guid : Guid) : Bool := guid.bytes.all (· == 0)

/-- Five groups of digits; the first three are stored least significant byte first. -/
def print (guid : Guid) : String :=
  let group (pos width : Nat) := (guid.bytes.drop pos).take width
  let groups :=
    [(group 0 4).reverse, (group 4 2).reverse, (group 6 2).reverse, group 8 2, group 10 6]
  "-".intercalate (groups.map fun bytes => String.ofList (Hex.ofBytes bytes))

end Guid

/-- What a table says about the contents of a partition. -/
inductive PartitionKind where
  /-- The type byte of a boot record entry. -/
  | classic (type : UInt8)
  /-- The type and the name of a GUID table entry. -/
  | gpt (type : Guid) (name : String)
  deriving DecidableEq, Repr

/-- A run of `count` blocks from block `start` on, addressed by `index`. -/
structure Partition where
  index : Nat
  start : Nat
  count : Nat
  kind : PartitionKind
  deriving DecidableEq, Repr

namespace Partition

/-- One past the last block, as far as a 64-bit word can tell. -/
def stop (p : Partition) : Nat := satAdd p.start p.count

/-- Whether the two partitions share a block. -/
def overlaps (p q : Partition) : Bool := p.start < q.stop && q.start < p.stop

end Partition
end BlockMux
