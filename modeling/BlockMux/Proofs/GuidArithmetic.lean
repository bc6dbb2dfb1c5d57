import BlockMux.Proofs.GuidLayout
import BlockMux.Proofs.TableSoundness

/-!
# The numbers of a GUID table

All numbers of a GUID table come from the device, so that whoever writes the device chooses them.
The checks of the header keep the length of the array far from the end of the words it is worked out
in, and a block that was read twice from the start on keeps the rounding there. The length of a
partition is kept in its word by the order of its two ends, but for one entry: that which goes from
block 0 to the last number there is has one block more than a word can say, and no table is read
from an array with such an entry.

Main statements:

* `Header.InWords`, `Header.inWords_of_found` — the length of the array, and its rounding to blocks.
* `Spans`, `spans_of_partition?` — what a partition has to do with the ends that its entry gives.
* `Whole`, `partition?_eq_error_iff` — the only entry whose length is no word.
* `read_arithmetic` — all of this for a table that is read.
* `whole_device_overflows` — there is a table with such an entry.
-/

namespace BlockMux.Gpt

open LittleEndian (field toBytes)

-- powers are those of the core library, as for the layout
attribute [local instance (high)] instPowNat

/-! ## The array -/

/-- The length of the array is worked out in words, and rounded up to whole blocks in words: the
largest number on the way is the length plus a block. The blocks are as many as needed and no more.
Each number of an entry is one of 32 bits. -/
structure Header.InWords (header : Header) (blockSize : Nat) : Prop where
  length : header.arrayLength ≤ maxWord
  rounding : header.arrayLength + blockSize ≤ maxWord
  enough : header.arrayLength ≤ arrayBlocks header blockSize * blockSize
  least : arrayBlocks header blockSize * blockSize < header.arrayLength + blockSize
  numbers : header.entryCount < 2 ^ (32 : Nat)

/-- The header of the image's table, checked but for the array. -/
def HeaderFound (image : Image) (blockSize : Nat) (header : Header) : Prop :=
  ∃ block, image.readBlocks 1 1 blockSize = .ok block ∧ Header.ofBlock? block = some header

/-- The array takes up no more than 1024 times the largest size of an entry. -/
theorem Header.arrayLength_lt {block : List UInt8} {header : Header}
    (h : ofBlock? block = some header) : header.arrayLength ≤ 1024 * 2 ^ (32 : Nat) := by
  obtain ⟨-, rfl, hsound⟩ := ofBlock?_eq_some_iff.1 h
  have hsize : (ofFields block).entrySize < 2 ^ (32 : Nat) := LittleEndian.field_lt block 84 4
  exact Nat.mul_le_mul (isSound_iff.1 hsound).2.2.1 (Nat.le_of_lt hsize)

theorem Header.lt_arrayLength_add (header : Header) {blockSize : Nat} (hsize : 0 < blockSize) :
    arrayBlocks header blockSize * blockSize < header.arrayLength + blockSize := by
  have := Nat.div_mul_le_self (header.arrayLength + blockSize - 1) blockSize
  rw [arrayBlocks]
  omega

theorem Header.inWords_of_found {image : Image} {blockSize : Nat} {header : Header}
    (hsize : 512 ≤ blockSize) (bound : image.contents.size ≤ maxWord)
    (found : HeaderFound image blockSize header) : header.InWords blockSize := by
  obtain ⟨block, hblock, hheader⟩ := found
  have hmax : maxWord = 18446744073709551615 := rfl
  have hlength := arrayLength_lt hheader
  -- block 1 lies on the image, and so does block 0
  have hinside := ((Image.readBlocks_eq_ok_iff.1 hblock).2.2.1 (by omega)).2
  have hcount := (ofBlock?_limits hheader).2.1
  exact
    { length := by omega
      rounding := by omega
      enough := header.arrayLength_le (by omega)
      least := header.lt_arrayLength_add (by omega)
      numbers := by omega }

/-! ## Partitions -/

/-- The first block that an entry gives. -/
def firstBlock (entry : List UInt8) : Nat := field entry 32 8

/-- The last block that an entry gives. -/
def lastBlock (entry : List UInt8) : Nat := field entry 40 8

theorem lastBlock_le (entry : List UInt8) : lastBlock entry ≤ maxWord :=
  Nat.le_of_lt_succ (LittleEndian.field_lt entry 40 8)

/-- A partition goes exactly from the first to the last block that the entry gives. -/
structure Spans (entry : List UInt8) (p : Partition) : Prop where
  start : p.start = firstBlock entry
  stop : p.start + p.count = lastBlock entry + 1
  nonempty : 1 ≤ p.count

theorem spans_of_partition? {index : Nat} {entry : List UInt8} {p : Partition}
    (h : partition? index entry = .ok (some p)) : Spans entry p ∧ p.count ≤ maxWord := by
  unfold partition? at h
  simp only at h
  split at h
  · simp at h
  · split at h
    · simp at h
    · -- the entry does not end before it starts
      rename_i hordered
      split at h
      · simp at h
      · rename_i hlength
        obtain rfl := Option.some.inj (Except.ok.inj h)
        have hle : firstBlock entry ≤ lastBlock entry := Nat.not_lt.1 hordered
        refine ⟨⟨rfl, ?_, Nat.succ_pos _⟩, Nat.not_lt.1 hlength⟩
        show firstBlock entry + (lastBlock entry - firstBlock entry + 1) = lastBlock entry + 1
        omega

/-- An entry that is used for all the blocks that words can name. -/
structure Whole (entry : List UInt8) : Prop where
  used : (Guid.mk (entry.take 16)).isNil = false
  first : firstBlock entry = 0
  last : lastBlock entry = maxWord

/-- The only length that is no word is that of all these blocks. -/
theorem partition?_eq_error_iff {index : Nat} {entry : List UInt8} {e : TableError} :
    partition? index entry = .error e ↔ Whole entry ∧ e = .overflow index := by
  have hlast : field entry 40 8 ≤ maxWord := lastBlock_le entry
  unfold partition?
  dsimp only
  split
  case isTrue hnil =>
    refine iff_of_false (by simp) ?_
    rintro ⟨hwhole, -⟩
    exact Bool.false_ne_true (hwhole.used.symm.trans hnil)
  case isFalse hused =>
    split
    case isTrue hordered =>
      refine iff_of_false (by simp) ?_
      rintro ⟨⟨-, hfirst, -⟩, -⟩
      rw [firstBlock] at hfirst
      omega
    case isFalse hordered =>
      split
      case isTrue hlarge =>
        have hwhole : Whole entry :=
          ⟨by simpa using hused, by rw [firstBlock]; omega, by rw [lastBlock]; omega⟩
        simp [hwhole, eq_comm]
      case isFalse hlength =>
        refine iff_of_false (by simp) ?_
        rintro ⟨⟨-, hfirst, hend⟩, -⟩
        rw [firstBlock] at hfirst
        rw [lastBlock] at hend
        omega

/-- The first of some numbers that has a property is 0, or else it is the first of the others. -/
theorem exists_first_succ {count : Nat} {P Q : Nat → Prop} :
    (∃ number, number < count + 1 ∧ Q number ∧ P number ∧ ∀ earlier < number, ¬P earlier) ↔
      Q 0 ∧ P 0 ∨ ¬P 0 ∧ ∃ number, number < count ∧ Q (number + 1) ∧ P (number + 1) ∧
        ∀ earlier < number, ¬P (earlier + 1) := by
  constructor
  · rintro ⟨number, hlt, hq, hp, hearlier⟩
    cases number with
    | zero => exact .inl ⟨hq, hp⟩
    | succ number =>
      refine .inr ⟨hearlier 0 (Nat.succ_pos number), number, Nat.lt_of_succ_lt_succ hlt, hq, hp, ?_⟩
      intro earlier hle
      exact hearlier (earlier + 1) (Nat.succ_lt_succ hle)
  · rintro (⟨hq, hp⟩ | ⟨hzero, number, hlt, hq, hp, hearlier⟩)
    · exact ⟨0, Nat.succ_pos count, hq, hp, fun _ hlt => absurd hlt (Nat.not_lt_zero _)⟩
    · refine ⟨number + 1, Nat.succ_lt_succ hlt, hq, hp, ?_⟩
      intro earlier hle
      cases earlier with
      | zero => exact hzero
      | succ earlier => exact hearlier earlier (Nat.lt_of_succ_lt_succ hle)

/-- Reading stops at the first entry that is too long, and at no other. -/
theorem partitions_eq_error_iff {size index count : Nat} {bytes : List UInt8} {e : TableError} :
    partitions size index count bytes = .error e ↔
      ∃ number, number < count ∧ e = .overflow (index + number) ∧
        Whole ((bytes.drop (number * size)).take size) ∧
        ∀ earlier < number, ¬Whole ((bytes.drop (earlier * size)).take size) := by
  -- on the number of entries, which are read from the front
  induction count generalizing index bytes with
  | zero => simp [partitions]
  | succ count ih =>
    have hhead : (bytes.drop (0 * size)).take size = bytes.take size := by simp
    -- the rest of the array starts one entry further on
    have hshift : ∀ number, ((bytes.drop size).drop (number * size)).take size =
        (bytes.drop ((number + 1) * size)).take size := by
      intro number
      rw [List.drop_drop, Nat.add_comm size, ← Nat.succ_mul]
    have hrest : partitions size (index + 1) count (bytes.drop size) = .error e ↔
        ∃ number, number < count ∧ e = .overflow (index + (number + 1)) ∧
          Whole ((bytes.drop ((number + 1) * size)).take size) ∧
          ∀ earlier < number, ¬Whole ((bytes.drop ((earlier + 1) * size)).take size) := by
      rw [ih]
      simp only [hshift, Nat.add_assoc, Nat.add_comm 1]
    rw [partitions, exists_first_succ, hhead]
    cases hfirst : partition? index (bytes.take size) with
    | error cause =>
      obtain ⟨hwhole, rfl⟩ := partition?_eq_error_iff.1 hfirst
      simp [hwhole, eq_comm]
    | ok found =>
      have hfine : ¬Whole (bytes.take size) := by
        intro hwhole
        rw [partition?_eq_error_iff.2 ⟨hwhole, rfl⟩] at hfirst
        cases hfirst
      have hlater : (partitions size (index + 1) count (bytes.drop size)).map (found.toList ++ ·) =
          .error e ↔ partitions size (index + 1) count (bytes.drop size) = .error e := by
        cases partitions size (index + 1) count (bytes.drop size) <;> simp [Except.map]
      simp only [hlater, hrest, hfine, and_false, not_false_iff, true_and, false_or]

/-! ## The table -/

/-- The entry of the array with a number, counted from 0. -/
def slot (header : Header) (array : List UInt8) (number : Nat) : List UInt8 :=
  (array.drop (number * header.entrySize)).take header.entrySize

theorem EntryArray.length_array {image : Image} {blockSize : Nat} {header : Header}
    {array : List UInt8} (h : EntryArray image blockSize header array) (hsize : 0 < blockSize) :
    array.length = header.arrayLength := by
  obtain ⟨blocks, hblocks, rfl⟩ := h.array_found
  have hlength := (Image.readBlocks_eq_ok_iff.1 hblocks).2.2.2
  have henough := header.arrayLength_le hsize
  rw [List.length_take, ← hlength, Memory.length_read]
  omega

/-- An entry is never cut short. -/
theorem length_slot {header : Header} {array : List UInt8} {number : Nat}
    (harray : array.length = header.arrayLength) (hnumber : number < header.entryCount) :
    (slot header array number).length = header.entrySize := by
  -- the entry ends where the next one starts, or else at the end of the array
  have hfits : (number + 1) * header.entrySize ≤ header.arrayLength :=
    Nat.mul_le_mul_right header.entrySize hnumber
  rw [Nat.succ_mul] at hfits
  rw [slot, List.length_take, List.length_drop]
  omega

theorem read_eq_overflow_iff {image : Image} {blockSize index : Nat} :
    read image blockSize = .error (.overflow index) ↔ ∃ header array,
      EntryArray image blockSize header array ∧ ∃ number, number < header.entryCount ∧
        index = number + 1 ∧ Whole (slot header array number) ∧
        ∀ earlier < number, ¬Whole (slot header array earlier) := by
  -- with the array found, the table is read from its entries
  have hentries : ∀ {header array}, EntryArray image blockSize header array →
      (read image blockSize = .error (.overflow index) ↔ ∃ number, number < header.entryCount ∧
        index = number + 1 ∧ Whole (slot header array number) ∧
        ∀ earlier < number, ¬Whole (slot header array earlier)) := by
    intro header array entries
    have herror : (partitions header.entrySize 1 header.entryCount array).map some =
        .error (.overflow index) ↔
          partitions header.entrySize 1 header.entryCount array = .error (.overflow index) := by
      cases partitions header.entrySize 1 header.entryCount array <;> simp [Except.map]
    rw [entries.read_eq, herror, partitions_eq_error_iff]
    simp only [TableError.overflow.injEq, Nat.add_comm 1, slot]
  constructor
  · intro h
    rcases entries_or_none image blockSize with ⟨header, array, entries⟩ | hnone | ⟨e, herror⟩
    · exact ⟨header, array, entries, (hentries entries).1 h⟩
    · simp [hnone] at h
    · simp [herror] at h
  · rintro ⟨header, array, entries, hwhole⟩
    exact (hentries entries).2 hwhole

/-- Wherever the header is found, the length of the array and its rounding to blocks are words. If
there is a table, then the array has this length, each partition comes from a whole entry of it,
has the number of the entry plus 1 and goes exactly from its first to its last block, and its
length is a word. The sum for a length overflows exactly if some entry of the array is used for all
blocks from 0 to the largest word; reading stops at the first one. -/
theorem read_arithmetic {image : Image} {blockSize : Nat} (hsize : 512 ≤ blockSize)
    (bound : image.contents.size ≤ maxWord) :
    (∀ header, HeaderFound image blockSize header → header.InWords blockSize) ∧
      (∀ ps, read image blockSize = .ok (some ps) → ∃ header array,
        EntryArray image blockSize header array ∧ array.length = header.arrayLength ∧
          ∀ p ∈ ps, ∃ number, number < header.entryCount ∧ p.index = number + 1 ∧
            (slot header array number).length = header.entrySize ∧
            Spans (slot header array number) p ∧ p.count ≤ maxWord) ∧
      ∀ index, read image blockSize = .error (.overflow index) ↔ ∃ header array,
        EntryArray image blockSize header array ∧ ∃ number, number < header.entryCount ∧
          index = number + 1 ∧ Whole (slot header array number) ∧
          ∀ earlier < number, ¬Whole (slot header array earlier) := by
  refine ⟨?_, ?_, ?_⟩
  · intro header found
    exact Header.inWords_of_found hsize bound found
  · intro ps hread
    obtain ⟨header, array, entries, hpartitions⟩ := read_eq_ok hread
    have harray := entries.length_array (by omega)
    refine ⟨header, array, entries, harray, ?_⟩
    intro p hp
    -- whatever is in the table was read from one entry
    obtain ⟨number, hnumber, hentry⟩ := mem_partitions hpartitions hp
    obtain ⟨hspans, hcount⟩ := spans_of_partition? hentry
    refine ⟨number, hnumber, ?_, length_slot harray hnumber, hspans, hcount⟩
    rw [partition?_index hentry, Nat.add_comm]
  · intro index
    exact read_eq_overflow_iff

/-- In the table that is written above, the entry with two blocks. -/
theorem read_arithmetic_written :
    512 ≤ 512 ∧ writtenImage.contents.size ≤ maxWord ∧
      read writtenImage 512 = .ok (some writtenLayout.partitions) ∧
      ∃ entry, Spans entry ⟨1, 4, 2, .gpt bootEntry.type "boot"⟩ ∧
        firstBlock entry = 4 ∧ lastBlock entry = 5 := by
  have hread : read writtenImage 512 = .ok (some writtenLayout.partitions) :=
    Layout.read_of_holds writtenImage_holds (Nat.le_refl _) (by decide)
  obtain ⟨-, hspans, -⟩ := read_arithmetic (Nat.le_refl 512) (show writtenImage.contents.size ≤
    maxWord by decide)
  obtain ⟨header, array, -, -, hentries⟩ := hspans _ hread
  have hmem : ⟨1, 4, 2, .gpt bootEntry.type "boot"⟩ ∈ writtenLayout.partitions :=
    List.mem_cons_self
  obtain ⟨number, -, -, -, hentry, -⟩ := hentries _ hmem
  exact ⟨Nat.le_refl _, by decide, hread, _, hentry, hentry.start.symm,
    (Nat.succ.inj hentry.stop).symm⟩

/-! ## The entry that is too long -/

/-- A header block for an array of one entry in block 2. -/
def wholeHeader : List UInt8 :=
  [0x45, 0x46, 0x49, 0x20, 0x50, 0x41, 0x52, 0x54] ++ toBytes 4 0x10000 ++ toBytes 4 92 ++
    toBytes 4 0x07AE2938 ++ List.replicate 52 0 ++ toBytes 8 2 ++ toBytes 4 1 ++ toBytes 4 128 ++
    toBytes 4 0xAE101B0F ++ List.replicate 420 0

/-- An entry from block 0 to the last number there is. -/
def wholeEntry : List UInt8 :=
  bootEntry.type.bytes ++ List.replicate 16 0 ++ toBytes 8 0 ++ toBytes 8 maxWord ++
    List.replicate 80 0

/-- A device of four blocks with such a table, and no boot record. -/
def wholeImage : Image where
  contents := ⟨2048, (List.replicate 512 0 ++ (wholeHeader ++ wholeEntry)).toArray⟩

theorem wholeHeader_found : Header.ofBlock? wholeHeader = some ⟨2, 1, 128, 0xAE101B0F⟩ := by
  have hsize : field wholeHeader 12 4 = 92 := by decide +kernel
  refine Header.ofBlock?_eq_some_iff.2 ⟨isHeader_iff.2 ?_, by decide +kernel, by decide⟩
  rw [hsize, toNat_checksum]
  exact ⟨by decide +kernel, by decide, by decide +kernel, by decide +kernel⟩

/-- All checks are passed, and the sum for the length of the only entry overflows. -/
theorem read_whole : read wholeImage 512 = .error (.overflow 1) := by
  have hheader : wholeImage.contents.read 512 512 = wholeHeader :=
    read_of_append List.length_replicate (by decide +kernel)
  have hentry : wholeImage.contents.read 1024 128 = wholeEntry := by
    have hbefore : (List.replicate 512 (0 : UInt8) ++ wholeHeader).length = 1024 := by
      decide +kernel
    have happend : (Memory.mk 2048 (List.replicate 512 0 ++ wholeHeader ++
        (wholeEntry ++ [])).toArray).read 1024 128 = wholeEntry :=
      read_of_append hbefore (by decide +kernel)
    rwa [List.append_nil, List.append_assoc] at happend
  have hfound : Header.ofBlock? (wholeImage.contents.read 512 512) =
      some ⟨2, 1, 128, 0xAE101B0F⟩ := by rw [hheader, wholeHeader_found]
  -- the two checksums are right, so that the array is read
  have hread := read_of_found (by decide)
    (Image.readBlocks_eq_ok_iff.2 ⟨by decide, by decide, fun _ => ⟨rfl, by decide⟩, rfl⟩) hfound
    (Image.readBlocks_eq_ok_iff.2 ⟨by decide, by decide, fun _ => ⟨rfl, by decide⟩, rfl⟩)
  have hsum : (Crc32.checksum wholeEntry).toNat = 0xAE101B0F := by
    rw [toNat_checksum]
    decide +kernel
  have hpartitions : partitions 128 1 1 wholeEntry = .error (.overflow 1) := by decide +kernel
  refine hread.trans ?_
  change (if (Crc32.checksum (wholeImage.contents.read 1024 128)).toNat = 0xAE101B0F then
    (partitions 128 1 1 (wholeImage.contents.read 1024 128)).map some else .ok none) = _
  rw [hentry, if_pos hsum, hpartitions]
  rfl

/-- Not every length is a word, also where all checksums are right. -/
theorem whole_device_overflows :
    PartitionTable.discover wholeImage 512 true = .error (.overflow 1) ∧
      ¬∀ (image : Image) (blockSize : Nat), 512 ≤ blockSize → image.contents.size ≤ maxWord →
        ∀ index, read image blockSize ≠ .error (.overflow index) := by
  constructor
  · rw [PartitionTable.discover, if_neg (by decide), if_pos rfl, read_whole]
  · intro h
    exact h wholeImage 512 (Nat.le_refl _) (by decide) 1 read_whole

end BlockMux.Gpt
