import BlockMux.Disk.Image
import BlockMux.Disk.Partition

/-!
# Partition tables

A table keeps the partitions that lie on the device, ordered by index, and exists only when no
two of them share a block.

* `mem_of_ofPartitions` — a table holds only partitions of the list it was made from that are not
  empty and end on the device.
-/

namespace BlockMux

/-- The on-disk format that a table was read from. -/
inductive TableFormat where
  /-- A boot record with extended records. -/
  | classic
  /-- A GUID partition table. -/
  | gpt
  deriving DecidableEq, Repr

/-- Why a device has no usable partition table. -/
inductive TableError where
  | io (cause : IoError)
  /-- No format was recognised. -/
  | noTable
  /-- The boot record only guards a GUID table that is not to be used. -/
  | protective
  /-- The chain of extended records comes back to, or is too long at, block `lba`. -/
  | badChain (lba : Nat)
  /-- Two partitions share a block. -/
  | overlap (first second : Nat)
  /-- The length of entry `index` of a GUID table is no word. This is not reported: the program
  stops. -/
  | overflow (index : Nat)
  deriving DecidableEq, Repr

namespace TableError

/-- The text of the error. -/
def message : TableError → String
  | io cause => "failed to read the device image: " ++ cause.message
  | noTable => "no partition table found"
  | protective => "found protective MBR but GPT usage was not requested"
  | badChain lba => s!"malformed extended partition chain at LBA {lba}"
  | overlap first second => s!"partitions {first} and {second} overlap"
  | overflow _ => "attempt to add with overflow"

end TableError

/-- Partitions of one device, ordered by index. -/
structure PartitionTable where
  format : TableFormat
  partitions : List Partition
  deriving DecidableEq, Repr

namespace PartitionTable

/-- Whether a partition is not empty and ends on a device of `blockCount` blocks. -/
def fits (blockCount : Nat) (p : Partition) : Bool := 0 < p.count && p.stop ≤ blockCount

/-- The first two neighbours of a list that share a block. -/
def firstClash? : List Partition → Option (Partition × Partition)
  | p :: q :: ps => if p.overlaps q then some (p, q) else firstClash? (q :: ps)
  | _ => none

/-- The partitions that fit on the device, in the order of their first blocks. -/
def placed (blockCount : Nat) (ps : List Partition) : List Partition :=
  (ps.filter (fits blockCount)).mergeSort fun p q => p.start ≤ q.start

/-- Makes a table. Partitions that are empty or reach beyond the device are left out, and
overlapping ones are an error. -/
def ofPartitions (format : TableFormat) (ps : List Partition) (blockCount : Nat) :
    Except TableError PartitionTable :=
  -- if any two share a block, then two neighbours in the order of first blocks do
  match firstClash? (placed blockCount ps) with
  | some (p, q) => .error (.overlap p.index q.index)
  | none => .ok ⟨format, (placed blockCount ps).mergeSort fun p q => p.index ≤ q.index⟩

/-- The partition that `index` addresses. -/
def partition? (table : PartitionTable) (index : Nat) : Option Partition :=
  table.partitions.find? (·.index == index)

theorem mem_placed {blockCount : Nat} {ps : List Partition} {p : Partition} :
    p ∈ placed blockCount ps ↔ p ∈ ps ∧ fits blockCount p = true := by
  simp [placed, List.mem_mergeSort]

theorem mem_of_ofPartitions {format : TableFormat} {ps : List Partition} {blockCount : Nat}
    {table : PartitionTable} (h : ofPartitions format ps blockCount = .ok table)
    {p : Partition} (hp : p ∈ table.partitions) : p ∈ ps ∧ fits blockCount p = true := by
  unfold ofPartitions at h
  split at h
  · simp at h
  · simp only [Except.ok.injEq] at h
    subst h
    exact mem_placed.1 (List.mem_mergeSort.1 hp)

end PartitionTable
end BlockMux
