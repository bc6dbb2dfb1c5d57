import BlockMux.Data.LittleEndian
import BlockMux.Disk.Table

/-!
# Boot record tables

The boot record in block 0 has four entries. An entry of an extended type is a container: it
leads to a chain of further records, each of which describes one logical partition and links to
the next record. Logical partitions are numbered from 5 on, across all containers.

* `walkChain_zero` — a chain that uses up its links is an error at the record it would go on to.
* `walkChain_visited` — so is one that comes back to a record, which is then not read again.
-/

namespace BlockMux.BootRecord

/-! ## Records -/

/-- One entry of a record: its type, first block and number of blocks. -/
structure Entry where
  kind : Nat
  lba : Nat
  sectors : Nat
  deriving DecidableEq, Repr

/-- The entry in a slot of a record. -/
def entry (record : List UInt8) (slot : Nat) : Entry :=
  let pos := 446 + 16 * slot
  { kind := LittleEndian.field record (pos + 4) 1
    lba := LittleEndian.field record (pos + 8) 4
    sectors := LittleEndian.field record (pos + 12) 4 }

/-- Whether a record carries the boot signature. -/
def isSigned (record : List UInt8) : Bool := (record.drop 510).take 2 == [0x55, 0xAA]

namespace Entry

/-- Whether the entry describes anything. -/
def isUsed (e : Entry) : Bool := e.kind != 0 && e.sectors != 0

/-- Whether the entry is a container of logical partitions. -/
def isExtended (e : Entry) : Bool := e.kind == 0x05 || e.kind == 0x0F || e.kind == 0x85

/-- Whether the entry only guards a GUID table. -/
def isProtective (e : Entry) : Bool := e.kind == 0xEE

/-- Whether the entry, as a link of a chain, leads to a further record. -/
def isLink (e : Entry) : Bool := e.lba != 0 && e.kind != 0

/-- The entry as a partition; its first block counts from block `origin`. -/
def toPartition (e : Entry) (index origin : Nat) : Partition :=
  ⟨index, origin + e.lba, e.sectors, .classic (UInt8.ofNat e.kind)⟩

end Entry

/-! ## Chains -/

/-- The most records a chain may have. -/
def maxLinks : Nat := 256

/-- The number of the first logical partition. -/
def firstLogical : Nat := 5

/-- Follows a chain from the record at `lba`, with `left` more records allowed and those of
`visited` seen before. Links count from block `base`. Yields each used logical entry with the
block of its record. -/
def walkChain (image : Image) (blockSize base : Nat) :
    (left : Nat) → (visited : List Nat) → (lba : Nat) → Except TableError (List (Nat × Entry))
  | 0, _, lba => .error (.badChain lba)
  | left + 1, visited, lba =>
    if lba ∈ visited then .error (.badChain lba)
    else
      match image.readBlocks lba 1 blockSize with
      | .error e => .error (.io e)
      | .ok record =>
        if isSigned record then
          -- an unused first entry keeps no one from following the link
          let logical := if (entry record 0).isUsed then [(lba, entry record 0)] else []
          if (entry record 1).isLink then
            (walkChain image blockSize base left (lba :: visited) (base + (entry record 1).lba)).map
              (logical ++ ·)
          else .ok logical
        -- a record without signature cuts the chain short
        else .ok []

/-- Numbers logical entries from `index` on. -/
def numberLogicals (index : Nat) : List (Nat × Entry) → List Partition
  | [] => []
  | (origin, e) :: rest => e.toPartition index origin :: numberLogicals (index + 1) rest

/-! ## The table -/

/-- The partitions of the entries from `slot` on, where `next` is the number of the next logical
partition. -/
def readEntries (image : Image) (blockSize : Nat) :
    (slot next : Nat) → List Entry → Except TableError (List Partition)
  | _, _, [] => .ok []
  | slot, next, e :: entries =>
    if !e.isUsed then readEntries image blockSize (slot + 1) next entries
    -- the container itself is no partition; its length does not bound the chain
    else if e.isExtended then do
      let logicals ← walkChain image blockSize e.lba maxLinks [] e.lba
      let rest ← readEntries image blockSize (slot + 1) (next + logicals.length) entries
      return numberLogicals next logicals ++ rest
    else do
      let rest ← readEntries image blockSize (slot + 1) next entries
      return e.toPartition (slot + 1) 0 :: rest

/-- The partitions of the boot record, `none` where block 0 is none. -/
def read (image : Image) (blockSize : Nat) : Except TableError (Option (List Partition)) :=
  match image.readBlocks? 0 1 blockSize with
  | .error e => .error (.io e)
  | .ok none => .ok none
  | .ok (some record) =>
    let entries := (List.range 4).map (entry record)
    if !isSigned record then .ok none
    else if entries.any Entry.isProtective then .error .protective
    else (readEntries image blockSize 0 firstLogical entries).map some

theorem walkChain_zero (image : Image) (blockSize base : Nat) (visited : List Nat) (lba : Nat) :
    walkChain image blockSize base 0 visited lba = .error (.badChain lba) := rfl

theorem walkChain_visited (image : Image) (blockSize base left : Nat) {visited : List Nat}
    {lba : Nat} (h : lba ∈ visited) :
    walkChain image blockSize base left visited lba = .error (.badChain lba) := by
  cases left <;> simp [walkChain, h]

end BlockMux.BootRecord
