import BlockMux.Data.Crc32
import BlockMux.Data.LittleEndian
import BlockMux.Disk.Table
import BlockMux.Text.Utf16

/-!
# GUID partition tables

The primary header in block 1 says where the array of entries lies; both carry a checksum. A
header or array that fails any check means that there is no such table, so that a caller can go
on to the boot record. Errors are a failing medium, and an entry whose length is no word.

* `Header.ofBlock?_limits` — an accepted header keeps the limits on count and size of entries.
-/

namespace BlockMux.Gpt

open LittleEndian (field)

/-! ## Header -/

/-- What the header says about the array of entries. -/
structure Header where
  entriesLba : Nat
  entryCount : Nat
  entrySize : Nat
  entriesCrc : Nat
  deriving DecidableEq, Repr

/-- The characters `EFI PART`. -/
def signature : List UInt8 := [0x45, 0x46, 0x49, 0x20, 0x50, 0x41, 0x52, 0x54]

/-- The bytes of a header of `size` bytes with its checksum set to zero. -/
def withoutChecksum (block : List UInt8) (size : Nat) : List UInt8 :=
  block.take 16 ++ [0, 0, 0, 0] ++ (block.drop 20).take (size - 20)

/-- Whether a block starts with a header: signature, size and checksum are right. -/
def isHeader (block : List UInt8) : Bool :=
  let size := field block 12 4
  block.take 8 == signature && 92 ≤ size && size ≤ block.length &&
    (Crc32.checksum (withoutChecksum block size)).toNat == field block 16 4

namespace Header

/-- The fields of a header block. -/
def ofFields (block : List UInt8) : Header :=
  { entriesLba := field block 72 8
    entryCount := field block 80 4
    entrySize := field block 84 4
    entriesCrc := field block 88 4 }

/-- Whether the array has entries of a sound size, not too many, and lies after the header. -/
def isSound (h : Header) : Bool :=
  128 ≤ h.entrySize && h.entrySize % 8 == 0 && h.entryCount ≤ 1024 && 1 < h.entriesLba

/-- Reads a header block. -/
def ofBlock? (block : List UInt8) : Option Header :=
  if isHeader block && (ofFields block).isSound then some (ofFields block) else none

/-- The length of the array in bytes. -/
def arrayLength (h : Header) : Nat := h.entryCount * h.entrySize

theorem ofBlock?_limits {block : List UInt8} {h : Header} (eq : ofBlock? block = some h) :
    128 ≤ h.entrySize ∧ h.entryCount ≤ 1024 ∧ 1 < h.entriesLba := by
  unfold ofBlock? at eq
  split at eq
  · rename_i hs
    simp only [Option.some.injEq] at eq
    subst eq
    simp only [Bool.and_eq_true, isSound, decide_eq_true_eq] at hs
    omega
  · simp at eq

end Header

/-! ## Entries -/

/-- The 16-bit units of a name, up to the first zero. -/
def nameUnits (entry : List UInt8) : List Nat :=
  ((List.range 36).map fun i => field entry (56 + 2 * i) 2).takeWhile (· ≠ 0)

/-- The partition of entry `index`, counted from 1. An entry of nil type is unused, and one that
ends before it starts is ignored. -/
def partition? (index : Nat) (entry : List UInt8) : Except TableError (Option Partition) :=
  let type : Guid := ⟨entry.take 16⟩
  let first := field entry 32 8
  let last := field entry 40 8
  if type.isNil then .ok none
  else if last < first then .ok none
  -- the first and the last block are words, but not the number of all blocks that have words
  else if maxWord < last - first + 1 then .error (.overflow index)
  else .ok (some ⟨index, first, last - first + 1,
    .gpt type (String.ofList (Utf16.decode (nameUnits entry)))⟩)

/-- The partitions of `count` entries of `size` bytes, numbered from `index` on. -/
def partitions (size : Nat) :
    (index count : Nat) → List UInt8 → Except TableError (List Partition)
  | _, 0, _ => .ok []
  | index, count + 1, bytes =>
    match partition? index (bytes.take size) with
    | .error e => .error e
    | .ok p => (partitions size (index + 1) count (bytes.drop size)).map (p.toList ++ ·)

/-! ## The table -/

/-- The number of blocks that hold the array. -/
def arrayBlocks (h : Header) (blockSize : Nat) : Nat :=
  (h.arrayLength + blockSize - 1) / blockSize

/-- The partitions of the GUID table, `none` where there is no such table. -/
def read (image : Image) (blockSize : Nat) : Except TableError (Option (List Partition)) :=
  match image.readBlocks? 1 1 blockSize with
  | .error e => .error (.io e)
  | .ok none => .ok none
  | .ok (some block) =>
    match Header.ofBlock? block with
    | none => .ok none
    | some header =>
      -- an array of no entries is read as no blocks, wherever it lies
      match image.readBlocks? header.entriesLba (arrayBlocks header blockSize) blockSize with
      | .error e => .error (.io e)
      | .ok none => .ok none
      | .ok (some blocks) =>
        let array := blocks.take header.arrayLength
        if (Crc32.checksum array).toNat = header.entriesCrc then
          (partitions header.entrySize 1 header.entryCount array).map some
        else .ok none

end BlockMux.Gpt
