import BlockMux.Disk.BootRecord
import BlockMux.Disk.Gpt

/-!
# Finding the partition table of a device

A GUID table is looked for only where that is asked for; it counts before the boot record.
-/

namespace BlockMux.PartitionTable

/-- The number of whole blocks of an image. -/
def blockCount (image : Image) (blockSize : Nat) : Nat := image.contents.size / blockSize

/-- The table of the boot record. -/
def ofBootRecord (image : Image) (blockSize : Nat) : Except TableError PartitionTable :=
  match BootRecord.read image blockSize with
  | .error e => .error e
  | .ok none => .error .noTable
  | .ok (some ps) => ofPartitions .classic ps (blockCount image blockSize)

/-- Reads the table of an image. With `useGpt` a GUID table is looked for first, and the boot
record only counts where there is none. -/
def discover (image : Image) (blockSize : Nat) (useGpt : Bool) :
    Except TableError PartitionTable :=
  if blockSize < 512 then .error (.io .blockTooSmall)
  else if useGpt then
    match Gpt.read image blockSize with
    | .error e => .error e
    | .ok none => ofBootRecord image blockSize
    | .ok (some ps) => ofPartitions .gpt ps (blockCount image blockSize)
  else ofBootRecord image blockSize

end BlockMux.PartitionTable
