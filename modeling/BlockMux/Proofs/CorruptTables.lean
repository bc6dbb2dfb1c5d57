import BlockMux.Proofs.BurstErrors
import BlockMux.Proofs.GuidLayout
import BlockMux.Proofs.TableSoundness

/-!
# A corrupt GUID table is not used

Every byte of a GUID table's header but the size, and every byte of its array, is covered by the
signature or by a checksum, the checksum of the header by the comparison with it. A damaged table
is therefore taken for no table at all, and never for another one or for a failing medium.

Main statements:

* `Corrupted` — the damage: one byte of the header, or bytes of the array that lie close together.
* `not_isHeader_of_changed` — no header is left after a change of one of its bytes.
* `corrupted_unused` — a corrupted table is not found, so that the boot record decides.
-/

namespace BlockMux

/-- Two images of one size that can be read in the same places. -/
structure Image.SameMedium (image image' : Image) : Prop where
  size : image'.contents.size = image.contents.size
  badRead : image'.badRead = image.badRead

theorem Image.SameMedium.readBlocks {image image' : Image} (medium : image.SameMedium image')
    {lba count blockSize : Nat} {bytes : List UInt8}
    (h : image.readBlocks lba count blockSize = .ok bytes) :
    image'.readBlocks lba count blockSize =
      .ok (image'.contents.read (lba * blockSize) (count * blockSize)) := by
  obtain ⟨hpos, hlen, hrange, -⟩ := Image.readBlocks_eq_ok_iff.1 h
  refine Image.readBlocks_eq_ok_iff.2 ⟨hpos, hlen, fun hsome => ?_, rfl⟩
  rw [medium.badRead, medium.size]
  exact hrange hsome

namespace Gpt

open LittleEndian (field)

/-! ## Headers -/

theorem getElem?_withoutChecksum {block : List UInt8} {size : Nat} (hmin : 20 ≤ size)
    (hmax : size ≤ block.length) (j : Nat) :
    (withoutChecksum block size)[j]? =
      if 16 ≤ j ∧ j < 20 then some 0 else if j < size then block[j]? else none := by
  have hfirst : (block.take 16).length = 16 := by
    rw [List.length_take]
    omega
  rw [withoutChecksum, List.append_assoc]
  by_cases h16 : j < 16
  · rw [List.getElem?_append_left (by omega), List.getElem?_take, if_pos h16, if_neg (by omega),
      if_pos (by omega)]
  · rw [List.getElem?_append_right (by omega), hfirst]
    by_cases h20 : j < 20
    · -- one of the four zeros
      have hzeros : ([0, 0, 0, 0] : List UInt8) = List.replicate 4 0 := rfl
      rw [hzeros, List.getElem?_append_left (by rw [List.length_replicate]; omega),
        List.getElem?_replicate, if_pos (by omega), if_pos (by omega)]
    · have hzeros : ([0, 0, 0, 0] : List UInt8).length = 4 := rfl
      rw [List.getElem?_append_right (by omega), hzeros,
        if_neg (show ¬(16 ≤ j ∧ j < 20) by omega), List.getElem?_take, List.getElem?_drop,
        show 20 + (j - 16 - 4) = j by omega]
      by_cases hj : j < size
      · rw [if_pos (by omega), if_pos hj]
      · rw [if_neg (by omega), if_neg hj]

/-- What does not contain the one changed byte is as it was. -/
theorem slice_of_kept {bytes bytes' : List UInt8} {i pos width : Nat}
    (kept : ∀ j, j ≠ i → bytes'[j]? = bytes[j]?) (outside : i < pos ∨ pos + width ≤ i) :
    (bytes'.drop pos).take width = (bytes.drop pos).take width := by
  refine List.ext_getElem? fun j => ?_
  simp only [List.getElem?_take, List.getElem?_drop]
  split
  · exact kept _ (by omega)
  · rfl

theorem getElem?_of_slice {bytes bytes' : List UInt8} {i pos width : Nat}
    (h : (bytes'.drop pos).take width = (bytes.drop pos).take width)
    (inside : pos ≤ i ∧ i < pos + width) : bytes'[i]? = bytes[i]? := by
  have hbyte := congrArg (·[i - pos]?) h
  simp only [List.getElem?_take, List.getElem?_drop] at hbyte
  rwa [if_pos (by omega), if_pos (by omega), Nat.add_sub_cancel' inside.1] at hbyte

/-- A header that has lost one byte, other than one of its size, is no header any more. -/
theorem not_isHeader_of_changed {block block' : List UInt8} {i : Nat}
    (hheader : isHeader block = true) (hlength : block'.length = block.length)
    (inside : i < field block 12 4) (notSize : ¬(12 ≤ i ∧ i < 16))
    (changed : block'[i]? ≠ block[i]?) (kept : ∀ j, j ≠ i → block'[j]? = block[j]?) :
    ¬isHeader block' = true := by
  intro hheader'
  have hsize : field block' 12 4 = field block 12 4 :=
    congrArg LittleEndian.ofBytes (slice_of_kept kept (by omega))
  obtain ⟨hsignature, hmin, hmax, hsum⟩ := isHeader_iff.1 hheader
  obtain ⟨hsignature', -, -, hsum'⟩ := isHeader_iff.1 hheader'
  rw [hsize] at hsum'
  by_cases hfirst : i < 8
  · -- a byte of the signature
    have hslice : (block'.drop 0).take 8 = (block.drop 0).take 8 :=
      hsignature'.trans hsignature.symm
    exact changed (getElem?_of_slice hslice (by omega))
  · by_cases hcrc : 16 ≤ i ∧ i < 20
    · -- a byte of the checksum, which is not part of what it is made over
      have htext : withoutChecksum block' (field block 12 4) =
          withoutChecksum block (field block 12 4) := by
        have hbefore : (block'.drop 0).take 16 = (block.drop 0).take 16 :=
          slice_of_kept kept (by omega)
        rw [List.drop_zero, List.drop_zero] at hbefore
        rw [withoutChecksum, withoutChecksum, hbefore, slice_of_kept kept (by omega)]
      rw [htext, hsum] at hsum'
      have hslice : (block'.drop 16).take 4 = (block.drop 16).take 4 := by
        refine LittleEndian.ofBytes_injective ?_ hsum'.symm
        simp [hlength]
      exact changed (getElem?_of_slice hslice hcrc)
    · -- any other byte is under the checksum, and the checksum is as it was
      have hstored : field block' 16 4 = field block 16 4 :=
        congrArg LittleEndian.ofBytes (slice_of_kept kept (by omega))
      have htext := getElem?_withoutChecksum (by omega) hmax
      have htext' := getElem?_withoutChecksum (by omega) (hlength.symm ▸ hmax)
      have hlengths : (withoutChecksum block' (field block 12 4)).length =
          (withoutChecksum block (field block 12 4)).length := by
        simp [withoutChecksum, hlength]
      have hburst : Crc32.checksum (withoutChecksum block' (field block 12 4)) ≠
          Crc32.checksum (withoutChecksum block (field block 12 4)) := by
        refine Crc32.checksum_ne_of_burst i hlengths (fun j hj => ?_) fun heq => ?_
        · rw [htext, htext', kept j (by omega)]
        · have hbyte := congrArg (·[i]?) heq
          simp only [htext, htext', if_neg hcrc, if_pos inside] at hbyte
          exact changed hbyte
      exact hburst (UInt32.toNat_inj.1 (by rw [hsum', hstored, hsum]))

/-! ## Tables -/

/-- The size of the header that stands in an image. -/
def headerSize (image : Image) (blockSize : Nat) : Nat :=
  field (image.contents.read blockSize blockSize) 12 4

/-- What the header that stands in an image says about the array. -/
def tableHeader (image : Image) (blockSize : Nat) : Header :=
  Header.ofFields (image.contents.read blockSize blockSize)

/-- The other image differs from the first one by damage to its GUID table: in one byte of the
header that is none of its size, or else in some of four consecutive bytes of the array. -/
inductive Corrupted (image : Image) (blockSize : Nat) (image' : Image) : Prop
  | header (i : Nat) (inside : i < headerSize image blockSize) (notSize : ¬(12 ≤ i ∧ i < 16))
      (changed : image'.contents.byte (blockSize + i) ≠ image.contents.byte (blockSize + i))
      (kept : ∀ pos < image.contents.size, pos ≠ blockSize + i →
        image'.contents.byte pos = image.contents.byte pos)
  | array (first pos : Nat)
      (first_ge : (tableHeader image blockSize).entriesLba * blockSize ≤ first)
      (inside : first + 4 ≤ (tableHeader image blockSize).entriesLba * blockSize +
        (tableHeader image blockSize).entryCount * (tableHeader image blockSize).entrySize)
      (pos_ge : first ≤ pos) (pos_lt : pos < first + 4)
      (changed : image'.contents.byte pos ≠ image.contents.byte pos)
      (kept : ∀ pos < image.contents.size, pos < first ∨ first + 4 ≤ pos →
        image'.contents.byte pos = image.contents.byte pos)

variable {image image' : Image} {blockSize : Nat} {ps : List Partition}

/-- Where a table is found, its header has passed the checks, and the array can be read and has its
checksum. -/
theorem read_eq_some (found : read image blockSize = .ok (some ps)) :
    image.readBlocks 1 1 blockSize = .ok (image.contents.read blockSize blockSize) ∧
      Header.ofBlock? (image.contents.read blockSize blockSize) =
        some (tableHeader image blockSize) ∧
      (∃ blocks, image.readBlocks (tableHeader image blockSize).entriesLba
        (arrayBlocks (tableHeader image blockSize) blockSize) blockSize = .ok blocks) ∧
      (Crc32.checksum (image.contents.read ((tableHeader image blockSize).entriesLba * blockSize)
        (tableHeader image blockSize).arrayLength)).toNat =
          (tableHeader image blockSize).entriesCrc := by
  obtain ⟨header, array, entries, -⟩ := read_eq_ok found
  obtain ⟨block, hblock, hheader⟩ := entries.header_found
  obtain ⟨blocks, hblocks, rfl⟩ := entries.array_found
  have htext := (Image.readBlocks_eq_ok_iff.1 hblock).2.2.2
  rw [Nat.one_mul] at htext
  subst htext
  obtain ⟨hisHeader, rfl, -⟩ := Header.ofBlock?_eq_some_iff.1 hheader
  refine ⟨hblock, hheader, ⟨blocks, hblocks⟩, ?_⟩
  -- a block holds the header, so it is not empty
  have hsize : 0 < blockSize := by
    have := (isHeader_iff.1 hisHeader).2
    rw [Memory.length_read] at this
    omega
  have harray : blocks.take (tableHeader image blockSize).arrayLength =
      image.contents.read ((tableHeader image blockSize).entriesLba * blockSize)
        (tableHeader image blockSize).arrayLength := by
    rw [← (Image.readBlocks_eq_ok_iff.1 hblocks).2.2.2]
    exact image.contents.take_read ((tableHeader image blockSize).arrayLength_le hsize)
  rw [← harray]
  exact entries.checksum

/-- Bytes that lie close together are under the checksum of what is read around them. -/
theorem checksum_read_ne {m m' : Memory} {base len first pos : Nat} (first_ge : base ≤ first)
    (inside : first + 4 ≤ base + len) (pos_ge : first ≤ pos) (pos_lt : pos < first + 4)
    (changed : m'.byte pos ≠ m.byte pos)
    (kept : ∀ p < base + len, p < first ∨ first + 4 ≤ p → m'.byte p = m.byte p) :
    Crc32.checksum (m'.read base len) ≠ Crc32.checksum (m.read base len) := by
  refine Crc32.checksum_ne_of_burst (first - base) ?_ (fun j hj => ?_) fun heq => ?_
  · rw [Memory.length_read, Memory.length_read]
  · rw [Memory.getElem?_read, Memory.getElem?_read]
    split
    · rw [kept _ (by omega) (by omega)]
    · rfl
  · have hbyte := congrArg (·[pos - base]?) heq
    simp only [Memory.getElem?_read] at hbyte
    rw [if_pos (by omega), if_pos (by omega), Nat.add_sub_cancel' (by omega)] at hbyte
    exact changed (Option.some.inj hbyte)

/-- A block whose header has lost one byte holds no header. -/
theorem ofBlock?_of_changed {m m' : Memory} {header : Header} {i : Nat}
    (found : Header.ofBlock? (m.read blockSize blockSize) = some header)
    (inside : i < field (m.read blockSize blockSize) 12 4) (notSize : ¬(12 ≤ i ∧ i < 16))
    (changed : m'.byte (blockSize + i) ≠ m.byte (blockSize + i))
    (kept : ∀ p < blockSize + blockSize, p ≠ blockSize + i → m'.byte p = m.byte p) :
    Header.ofBlock? (m'.read blockSize blockSize) = none := by
  have hheader := (Header.ofBlock?_eq_some_iff.1 found).1
  have hfits := (isHeader_iff.1 hheader).2.2.1
  rw [Memory.length_read] at hfits
  have hno : ¬isHeader (m'.read blockSize blockSize) = true := by
    refine not_isHeader_of_changed hheader ?_ inside notSize ?_ fun j hj => ?_
    · rw [Memory.length_read, Memory.length_read]
    · rw [Memory.getElem?_read, Memory.getElem?_read, if_pos (by omega), if_pos (by omega)]
      exact fun heq => changed (Option.some.inj heq)
    · rw [Memory.getElem?_read, Memory.getElem?_read]
      split
      · rw [kept _ (by omega) (by omega)]
      · rfl
  rw [Header.ofBlock?, if_neg]
  exact fun h => hno (Bool.and_eq_true .. ▸ h).1

theorem read_of_corrupted (found : read image blockSize = .ok (some ps))
    (medium : image.SameMedium image') (corrupted : Corrupted image blockSize image') :
    read image' blockSize = .ok none := by
  obtain ⟨hblock, hheader, ⟨blocks, harray⟩, hsum⟩ := read_eq_some found
  have hpos : 0 < blockSize := by
    have hfits := (isHeader_iff.1 (Header.ofBlock?_eq_some_iff.1 hheader).1).2
    rw [Memory.length_read] at hfits
    omega
  have hinside := ((Image.readBlocks_eq_ok_iff.1 hblock).2.2.1 (by omega)).2
  rw [Nat.one_mul] at hinside
  -- the other image can be read in the same two places
  have hblock' := medium.readBlocks hblock
  rw [Nat.one_mul] at hblock'
  have harray' := medium.readBlocks harray
  cases corrupted with
  | header i inside notSize changed kept =>
    have hnone : Header.ofBlock? (image'.contents.read blockSize blockSize) = none :=
      ofBlock?_of_changed hheader inside notSize changed fun p hp => kept p (by omega)
    rw [read, Image.readBlocks?_of_found hblock']
    simp only [hnone]
  | array first pos first_ge inside pos_ge pos_lt changed kept =>
    -- the array lies behind the header, which is as it was
    have hlba := Nat.mul_le_mul_right blockSize (Header.ofBlock?_limits hheader).2.2
    have hsame : image'.contents.read blockSize blockSize =
        image.contents.read blockSize blockSize :=
      Memory.read_congr fun p h₁ h₂ => kept p (by omega) (by omega)
    have hspan := (tableHeader image blockSize).arrayLength_le hpos
    have hlength : (tableHeader image blockSize).arrayLength =
        (tableHeader image blockSize).entryCount * (tableHeader image blockSize).entrySize := rfl
    have hwhole := ((Image.readBlocks_eq_ok_iff.1 harray).2.2.1 (by omega)).2
    have hburst : Crc32.checksum (image'.contents.read
        ((tableHeader image blockSize).entriesLba * blockSize)
          (tableHeader image blockSize).arrayLength) ≠
        Crc32.checksum (image.contents.read ((tableHeader image blockSize).entriesLba * blockSize)
          (tableHeader image blockSize).arrayLength) :=
      checksum_read_ne first_ge inside pos_ge pos_lt changed fun p hp => kept p (by omega)
    rw [read_of_found hpos hblock' (hsame ▸ hheader) harray']
    refine if_neg fun heq => hburst (UInt32.toNat_inj.1 ?_)
    rw [heq, hsum]

/-- A GUID table that was corrupted is not found, and a caller who wanted it gets what is had
without it. -/
theorem corrupted_unused (found : read image blockSize = .ok (some ps))
    (medium : image.SameMedium image') (corrupted : Corrupted image blockSize image') :
    read image' blockSize = .ok none ∧
      PartitionTable.discover image' blockSize true =
        PartitionTable.discover image' blockSize false := by
  have hnone := read_of_corrupted found medium corrupted
  refine ⟨hnone, ?_⟩
  simp only [PartitionTable.discover, hnone]
  rfl

/-- The written table after two bytes of its first entry have been overwritten, so that the first
block of the entry is another one. -/
def scratchedImage : Image :=
  { writtenImage with contents := writtenImage.contents.write 1060 [9, 7] }

theorem corrupted_unused_scratched :
    read writtenImage 512 = .ok (some writtenLayout.partitions) ∧
      writtenImage.SameMedium scratchedImage ∧ Corrupted writtenImage 512 scratchedImage ∧
      read scratchedImage 512 = .ok none ∧
      PartitionTable.discover scratchedImage 512 true =
        PartitionTable.discover scratchedImage 512 false := by
  have found : read writtenImage 512 = .ok (some writtenLayout.partitions) :=
    Layout.read_of_holds writtenImage_holds (Nat.le_refl _) (by decide)
  have medium : writtenImage.SameMedium scratchedImage := ⟨rfl, rfl⟩
  have hheader : writtenLayout.header writtenImage 512 = tableHeader writtenImage 512 :=
    (Header.ofBlock?_eq_some_iff.1
      (Layout.header_of_holds writtenImage_holds (Nat.le_refl _) (by decide))).2.1
  have hsize : writtenImage.contents.size = 4096 := rfl
  have hbyte : ∀ pos, scratchedImage.contents.byte pos =
      if 1060 ≤ pos ∧ pos < 1060 + 2 ∧ pos < 4096 then [9, 7].getD (pos - 1060) 0
      else writtenImage.contents.byte pos :=
    Memory.byte_write writtenImage.contents 1060 [9, 7]
  have corrupted : Corrupted writtenImage 512 scratchedImage := by
    refine .array 1058 1060 ?_ ?_ (by decide) (by decide) ?_ fun pos _ hpos => ?_
    · rw [← hheader]
      decide
    · rw [← hheader]
      decide
    · rw [hbyte, if_pos (by decide)]
      decide +kernel
    · rw [hbyte, if_neg (by omega)]
  exact ⟨found, medium, corrupted, corrupted_unused found medium corrupted⟩

end Gpt
end BlockMux
