import BlockMux.Disk.Discovery
import BlockMux.Proofs.Encodings
import BlockMux.Proofs.TableExactness

/-!
# Written GUID tables are read back

The layout of a GUID table leaves a writer much freedom: how long the header is, where the array
lies and how large its entries are, and whatever stands in bytes that mean nothing. Here a layout
says what is written and where, an image holds it when the right bytes are in the right places,
and such an image is read as exactly what the layout describes.

Main statements:

* `Layout`, `Layout.Holds` — a table, and the bytes of an image that have to do with it.
* `nameUnits_of_written`, `partition?_of_writes` — an entry reads as what was written into it.
* `header_of_holds` — the header passes all checks, and says where the array is.
* `discover_layout` — an image that holds a layout has the table that the layout describes.
-/

namespace BlockMux.Gpt

open LittleEndian (field toBytes)

-- as for the bytes of numbers: powers are those of the core library, which needs the type of an
-- exponent that is a numeral
attribute [local instance (high)] instPowNat

/-! ## Entries -/

/-- What a used entry says: a type that is not nil, the first and the last block, and a name that
finds room in an entry. -/
structure Described where
  type : Guid
  first : Nat
  last : Nat
  name : String
  type_length : type.bytes.length = 16
  type_used : ∃ b ∈ type.bytes, b ≠ 0
  ordered : first ≤ last
  name_short : (Utf16.encode name.toList).length ≤ 36
  name_unbroken : Char.ofNat 0 ∉ name.toList

namespace Described

/-- The units that are written for the name: a zero follows them unless they take all the room. -/
def units (d : Described) : List Nat :=
  if (Utf16.encode d.name.toList).length < 36 then Utf16.encode d.name.toList ++ [0]
  else Utf16.encode d.name.toList

/-- The bytes of the entry that say what is described; all others may be anything. -/
structure Writes (d : Described) (entry : List UInt8) : Prop where
  type : entry.take 16 = d.type.bytes
  first : (entry.drop 32).take 8 = toBytes 8 d.first
  last : (entry.drop 40).take 8 = toBytes 8 d.last
  name : (entry.drop 56).take (2 * d.units.length) = d.units.flatMap (toBytes 2)

/-- The partition that is described, under a number. -/
def partition (d : Described) (number : Nat) : Partition :=
  ⟨number, d.first, d.last - d.first + 1, .gpt d.type d.name⟩

end Described

/-- What stands in a slot of the array. Of an unused one only the type is looked at. -/
def Written : Option Described → List UInt8 → Prop
  | none, entry => entry.take 16 = List.replicate 16 0
  | some d, entry => d.Writes entry

/-- Units that were written one after the other are read one after the other. -/
theorem fields_of_written {units : List Nat} {n : Nat} (hlength : units.length ≤ n)
    (hunits : ∀ unit ∈ units, unit < 0x10000) (rest : List UInt8) :
    ∃ others, (List.range n).map (fun i => field (units.flatMap (toBytes 2) ++ rest) (2 * i) 2) =
      units ++ others := by
  induction units generalizing n with
  | nil => exact ⟨_, rfl⟩
  | cons unit units ih =>
    cases n with
    | zero => simp at hlength
    | succ n =>
      obtain ⟨others, hothers⟩ := ih (Nat.le_of_succ_le_succ hlength)
        fun u hu => hunits u (List.mem_cons_of_mem unit hu)
      refine ⟨others, ?_⟩
      have hbytes : (unit :: units).flatMap (toBytes 2) ++ rest =
          toBytes 2 unit ++ (units.flatMap (toBytes 2) ++ rest) := by
        rw [List.flatMap_cons, List.append_assoc]
      have hfirst : field (toBytes 2 unit ++ (units.flatMap (toBytes 2) ++ rest)) (2 * 0) 2 =
          unit :=
        LittleEndian.field_of_written
          (List.take_left' (LittleEndian.length_toBytes 2 unit)) (hunits unit (List.mem_cons_self ..))
      -- every later unit lies two bytes further on
      have hlater : ∀ i, field (toBytes 2 unit ++ (units.flatMap (toBytes 2) ++ rest))
          (2 * (i + 1)) 2 = field (units.flatMap (toBytes 2) ++ rest) (2 * i) 2 := by
        intro i
        rw [field, field, show 2 * (i + 1) = 2 + 2 * i by omega, ← List.drop_drop,
          List.drop_left' (LittleEndian.length_toBytes 2 unit)]
      rw [List.range_succ_eq_map, List.map_cons, List.map_map, hbytes, hfirst, List.cons_append,
        ← hothers]
      exact congrArg (unit :: ·) (List.map_congr_left fun i _ => hlater i)

theorem Described.units_lt (d : Described) {unit : Nat} (h : unit ∈ d.units) : unit < 0x10000 := by
  unfold units at h
  split at h
  · rcases List.mem_append.1 h with h | h
    · exact Utf16.encode_lt h
    · rw [List.mem_singleton.1 h]
      decide
  · exact Utf16.encode_lt h

theorem Described.length_units_le (d : Described) : d.units.length ≤ 36 := by
  have := d.name_short
  unfold units
  split
  · rw [List.length_append, List.length_singleton]
    omega
  · exact this

theorem nameUnits_of_written {d : Described} {entry : List UInt8} (h : d.Writes entry) :
    nameUnits entry = Utf16.encode d.name.toList := by
  have hshift : ∀ i, field entry (56 + 2 * i) 2 = field (entry.drop 56) (2 * i) 2 := by
    intro i
    rw [field, field, List.drop_drop]
  have hbytes : entry.drop 56 =
      d.units.flatMap (toBytes 2) ++ (entry.drop 56).drop (2 * d.units.length) := by
    rw [← h.name, List.take_append_drop]
  obtain ⟨others, hothers⟩ := fields_of_written d.length_units_le (fun _ => d.units_lt)
    ((entry.drop 56).drop (2 * d.units.length))
  rw [← hbytes] at hothers
  have hnonzero : ∀ unit ∈ Utf16.encode d.name.toList, decide (unit ≠ 0) = true :=
    fun unit hunit => decide_eq_true (Utf16.encode_ne_zero d.name_unbroken hunit)
  simp only [nameUnits, hshift, hothers]
  -- the name stops at the zero behind it, or else at the end of its room
  by_cases hroom : (Utf16.encode d.name.toList).length < 36
  · rw [Described.units, if_pos hroom, List.append_assoc, List.takeWhile_append_of_pos hnonzero]
    simp
  · have hall := congrArg List.length hothers
    rw [Described.units, if_neg hroom, List.length_append, List.length_map, List.length_range] at hall
    have hothers : others = [] := List.eq_nil_of_length_eq_zero (by omega)
    rw [Described.units, if_neg hroom, hothers, List.takeWhile_append_of_pos hnonzero,
      List.takeWhile_nil, List.append_nil]

theorem partition?_of_writes {d : Described} {entry : List UInt8} (h : d.Writes entry)
    (hlast : d.last < maxWord) (number : Nat) :
    partition? number entry = .ok (some (d.partition number)) := by
  have hbytes : d.last < 256 ^ (8 : Nat) := Nat.lt_trans hlast (by decide)
  have hfirst : field entry 32 8 = d.first :=
    LittleEndian.field_of_written h.first (Nat.lt_of_le_of_lt d.ordered hbytes)
  have hlast' : field entry 40 8 = d.last := LittleEndian.field_of_written h.last hbytes
  have hused : ¬d.type.isNil = true := by
    intro hnil
    obtain ⟨b, hb, hne⟩ := d.type_used
    exact hne (by simpa using List.all_eq_true.1 hnil b hb)
  have hordered : ¬d.last < d.first := Nat.not_lt.2 d.ordered
  -- nobody can describe all blocks that have words, because one of them is behind the last one
  have hlength : ¬maxWord < d.last - d.first + 1 := by omega
  have hname : String.ofList (Utf16.decode (nameUnits entry)) = d.name := by
    rw [nameUnits_of_written h, Utf16.decode_encode, String.ofList_toList]
  simp only [partition?, h.type, hfirst, hlast', hname, if_neg hused, if_neg hordered,
    if_neg hlength]
  rfl

theorem partition?_of_unused {entry : List UInt8} (h : Written none entry) (number : Nat) :
    partition? number entry = .ok none := by
  have hentry : entry.take 16 = List.replicate 16 0 := h
  have hnil : (Guid.mk (List.replicate 16 0)).isNil = true := by decide
  simp only [partition?, hentry, hnil, if_true]

/-- The array is read slot by slot. -/
theorem partitions_of_written {size number : Nat} {slots : List (Option Described)}
    {bytes : List UInt8}
    (hwritten : ∀ slot s, slots[slot]? = some s → Written s ((bytes.drop (slot * size)).take size))
    (hlast : ∀ d, some d ∈ slots → d.last < maxWord) :
    partitions size number slots.length bytes =
      .ok ((slots.zipIdx number).filterMap fun (s, n) => s.map (·.partition n)) := by
  induction slots generalizing number bytes with
  | nil => rfl
  | cons s slots ih =>
    have hrest : partitions size (number + 1) slots.length (bytes.drop size) =
        .ok ((slots.zipIdx (number + 1)).filterMap fun (s, n) => s.map (·.partition n)) := by
      refine ih (fun slot t ht => ?_) fun d hd => hlast d (List.mem_cons_of_mem s hd)
      have hnext := hwritten (slot + 1) t (by rwa [List.getElem?_cons_succ])
      rwa [List.drop_drop, Nat.add_comm size, ← Nat.succ_mul]
    have hfirst : Written s (bytes.take size) := by
      have := hwritten 0 s rfl
      rwa [Nat.zero_mul, List.drop_zero] at this
    rw [List.length_cons, partitions, hrest, List.zipIdx_cons, List.filterMap_cons]
    cases s with
    | none =>
      rw [partition?_of_unused hfirst]
      rfl
    | some d =>
      rw [partition?_of_writes hfirst (hlast d (List.mem_cons_self ..))]
      rfl

/-! ## Tables -/

/-- A GUID table as it is written: the size of its header, the block where its array starts, the
size of an entry and what the slots describe. -/
structure Layout where
  headerSize : Nat
  entriesLba : Nat
  entrySize : Nat
  slots : List (Option Described)
  headerSize_ge : 92 ≤ headerSize
  entriesLba_ge : 2 ≤ entriesLba
  entrySize_ge : 128 ≤ entrySize
  entrySize_dvd : 8 ∣ entrySize
  slots_pos : 1 ≤ slots.length
  slots_le : slots.length ≤ 1024
  /-- The header has 32 bits for each of the two sizes. -/
  sizes_lt : headerSize < 2 ^ (32 : Nat) ∧ entrySize < 2 ^ (32 : Nat)
  apart : slots.Pairwise fun s t => ∀ d ∈ s, ∀ e ∈ t, d.last < e.first ∨ e.last < d.first

namespace Layout

/-- The length of the array in bytes. -/
def arrayLength (layout : Layout) : Nat := layout.slots.length * layout.entrySize

/-- The length of the blocks that hold the array. -/
def arraySpan (layout : Layout) (blockSize : Nat) : Nat :=
  (layout.arrayLength + blockSize - 1) / blockSize * blockSize

/-- The partitions that the layout describes: each used slot is numbered by its place. -/
def partitions (layout : Layout) : List Partition :=
  (layout.slots.zipIdx 1).filterMap fun (s, number) => s.map (·.partition number)

/-- The bytes over which the checksum of the header is made, with zeros in its own place. -/
def headerText (layout : Layout) (image : Image) (blockSize : Nat) : List UInt8 :=
  image.contents.read blockSize 16 ++ [0, 0, 0, 0] ++
    image.contents.read (blockSize + 20) (layout.headerSize - 20)

/-- The bytes of the array. -/
def arrayText (layout : Layout) (image : Image) (blockSize : Nat) : List UInt8 :=
  image.contents.read (layout.entriesLba * blockSize) layout.arrayLength

/-- The image consists of whole blocks and holds the table: the header in block 1, the array in its
blocks, both with their checksums. Nothing is said of any other byte. -/
structure Holds (layout : Layout) (image : Image) (blockSize : Nat) : Prop where
  whole : blockSize ∣ image.contents.size
  header_inside : layout.headerSize ≤ blockSize
  array_inside : layout.entriesLba * blockSize + layout.arrayLength ≤ image.contents.size
  header_readable : Image.touches image.badRead blockSize blockSize = false
  array_readable : Image.touches image.badRead (layout.entriesLba * blockSize)
    (layout.arraySpan blockSize) = false
  signature : image.contents.read blockSize 8 = "EFI PART".toList.map fun c => UInt8.ofNat c.toNat
  headerSize : image.contents.read (blockSize + 12) 4 = toBytes 4 layout.headerSize
  headerCrc : image.contents.read (blockSize + 16) 4 =
    toBytes 4 (Crc32.checksum (layout.headerText image blockSize)).toNat
  entriesLba : image.contents.read (blockSize + 72) 8 = toBytes 8 layout.entriesLba
  entryCount : image.contents.read (blockSize + 80) 4 = toBytes 4 layout.slots.length
  entrySize : image.contents.read (blockSize + 84) 4 = toBytes 4 layout.entrySize
  arrayCrc : image.contents.read (blockSize + 88) 4 =
    toBytes 4 (Crc32.checksum (layout.arrayText image blockSize)).toNat
  entries : ∀ slot s, layout.slots[slot]? = some s → Written s
    (image.contents.read (layout.entriesLba * blockSize + slot * layout.entrySize) layout.entrySize)
  last_inside : ∀ d, some d ∈ layout.slots → d.last < image.contents.size / blockSize

end Layout

/-! ## The header -/

theorem isHeader_iff {block : List UInt8} :
    isHeader block = true ↔ block.take 8 = signature ∧ 92 ≤ field block 12 4 ∧
      field block 12 4 ≤ block.length ∧
      (Crc32.checksum (withoutChecksum block (field block 12 4))).toNat = field block 16 4 := by
  simp only [isHeader, Bool.and_eq_true, beq_iff_eq, decide_eq_true_eq, and_assoc]

theorem Header.isSound_iff {header : Header} :
    header.isSound = true ↔ 128 ≤ header.entrySize ∧ header.entrySize % 8 = 0 ∧
      header.entryCount ≤ 1024 ∧ 1 < header.entriesLba := by
  simp only [isSound, Bool.and_eq_true, beq_iff_eq, decide_eq_true_eq, and_assoc]

theorem Header.ofBlock?_eq_some_iff {block : List UInt8} {header : Header} :
    ofBlock? block = some header ↔
      isHeader block = true ∧ header = ofFields block ∧ header.isSound = true := by
  unfold ofBlock?
  constructor
  · intro h
    split at h
    · rename_i hsound
      rw [Bool.and_eq_true] at hsound
      obtain rfl := Option.some.inj h
      exact ⟨hsound.1, rfl, hsound.2⟩
    · cases h
  · rintro ⟨hheader, rfl, hsound⟩
    rw [hheader, hsound]
    rfl

/-- A field of a block reads as the number that was written there. -/
theorem field_read {m : Memory} {pos len off width n : Nat} (hfits : off + width ≤ len)
    (written : m.read (pos + off) width = toBytes width n) (h : n < 256 ^ width) :
    field (m.read pos len) off width = n :=
  LittleEndian.field_of_written ((m.take_drop_read hfits).trans written) h

theorem withoutChecksum_read (m : Memory) {pos len size : Nat} (hsize : 20 ≤ size)
    (hfits : size ≤ len) :
    withoutChecksum (m.read pos len) size =
      m.read pos 16 ++ [0, 0, 0, 0] ++ m.read (pos + 20) (size - 20) := by
  rw [withoutChecksum, m.take_read (by omega), m.take_drop_read (by omega)]

/-- The blocks of an array hold all of it. -/
theorem Header.arrayLength_le (header : Header) {blockSize : Nat} (hsize : 0 < blockSize) :
    header.arrayLength ≤ arrayBlocks header blockSize * blockSize := by
  have hrest := Nat.div_add_mod (header.arrayLength + blockSize - 1) blockSize
  have hlt := Nat.mod_lt (header.arrayLength + blockSize - 1) hsize
  rw [arrayBlocks, Nat.mul_comm]
  omega

/-- Once the header and the blocks of the array are found, only the checksum of the array decides
whether there is a table. -/
theorem read_of_found {image : Image} {blockSize : Nat} {header : Header} (hsize : 0 < blockSize)
    (hblock : image.readBlocks 1 1 blockSize = .ok (image.contents.read blockSize blockSize))
    (hheader : Header.ofBlock? (image.contents.read blockSize blockSize) = some header)
    (harray : image.readBlocks header.entriesLba (arrayBlocks header blockSize) blockSize =
      .ok (image.contents.read (header.entriesLba * blockSize)
        (arrayBlocks header blockSize * blockSize))) :
    read image blockSize =
      let array := image.contents.read (header.entriesLba * blockSize) header.arrayLength
      if (Crc32.checksum array).toNat = header.entriesCrc then
        (partitions header.entrySize 1 header.entryCount array).map some
      else .ok none := by
  have htext : (image.contents.read (header.entriesLba * blockSize)
      (arrayBlocks header blockSize * blockSize)).take header.arrayLength =
        image.contents.read (header.entriesLba * blockSize) header.arrayLength :=
    image.contents.take_read (header.arrayLength_le hsize)
  rw [read, Image.readBlocks?_of_found hblock]
  simp only [hheader, Image.readBlocks?_of_found harray, htext]

namespace Layout

variable {layout : Layout} {image : Image} {blockSize : Nat}

/-- The fields of the header that say where the array is. -/
def header (layout : Layout) (image : Image) (blockSize : Nat) : Header :=
  { entriesLba := layout.entriesLba
    entryCount := layout.slots.length
    entrySize := layout.entrySize
    entriesCrc := (Crc32.checksum (layout.arrayText image blockSize)).toNat }

/-- In an image of whole blocks the last block of the array is not cut off. -/
theorem Holds.arraySpan_inside (holds : layout.Holds image blockSize) (hsize : 0 < blockSize) :
    layout.entriesLba * blockSize + layout.arraySpan blockSize ≤ image.contents.size := by
  obtain ⟨count, hcount⟩ := holds.whole
  have hinside := holds.array_inside
  rw [hcount, Nat.mul_comm blockSize] at hinside ⊢
  have hlba : layout.entriesLba ≤ count :=
    Nat.le_of_mul_le_mul_right (Nat.le_trans (Nat.le_add_right _ _) hinside) hsize
  -- the array ends by the end of a block of the image
  have hblocks : layout.arrayLength ≤ (count - layout.entriesLba) * blockSize := by
    rw [Nat.sub_mul]
    omega
  have hspan : (layout.arrayLength + blockSize - 1) / blockSize ≤ count - layout.entriesLba := by
    refine Nat.le_of_lt_succ ((Nat.div_lt_iff_lt_mul hsize).2 ?_)
    rw [Nat.succ_mul]
    omega
  calc layout.entriesLba * blockSize + layout.arraySpan blockSize
      = (layout.entriesLba + (layout.arrayLength + blockSize - 1) / blockSize) * blockSize := by
        rw [arraySpan, Nat.add_mul]
    _ ≤ count * blockSize := Nat.mul_le_mul_right blockSize (by omega)

theorem Holds.blocks_inside (holds : layout.Holds image blockSize) (hsize : 0 < blockSize) :
    2 * blockSize ≤ image.contents.size := by
  have hlba := Nat.mul_le_mul_right blockSize layout.entriesLba_ge
  have := holds.arraySpan_inside hsize
  omega

/-- The header is one, passes the checks and says where the array is. -/
theorem header_of_holds (holds : layout.Holds image blockSize) (hsize : 512 ≤ blockSize)
    (bound : image.contents.size ≤ maxWord) :
    Header.ofBlock? (image.contents.read blockSize blockSize) =
      some (layout.header image blockSize) := by
  have hmax : maxWord = 18446744073709551615 := rfl
  have hge := layout.headerSize_ge
  have hlba : layout.entriesLba < 256 ^ 8 := by
    have hfirst := Nat.le_mul_of_pos_right layout.entriesLba (show 0 < blockSize by omega)
    have := holds.array_inside
    omega
  have hfield : field (image.contents.read blockSize blockSize) 12 4 = layout.headerSize :=
    field_read (by omega) holds.headerSize layout.sizes_lt.1
  have hheader : isHeader (image.contents.read blockSize blockSize) = true := by
    rw [isHeader_iff, hfield, Memory.length_read, withoutChecksum_read _ (by omega)
      holds.header_inside]
    refine ⟨?_, hge, holds.header_inside, ?_⟩
    · exact (image.contents.take_read (by omega)).trans holds.signature
    · exact (field_read (by omega) holds.headerCrc (UInt32.toNat_lt _)).symm
  have hfields : Header.ofFields (image.contents.read blockSize blockSize) =
      layout.header image blockSize := by
    have hcount : layout.slots.length < 256 ^ 4 := Nat.lt_of_le_of_lt layout.slots_le (by decide)
    rw [Header.ofFields, field_read (by omega) holds.entriesLba hlba,
      field_read (by omega) holds.entryCount hcount,
      field_read (by omega) holds.entrySize layout.sizes_lt.2,
      field_read (by omega) holds.arrayCrc (UInt32.toNat_lt _)]
    rfl
  refine Header.ofBlock?_eq_some_iff.2 ⟨hheader, hfields.symm, ?_⟩
  exact Header.isSound_iff.2 ⟨layout.entrySize_ge, Nat.mod_eq_zero_of_dvd layout.entrySize_dvd,
    layout.slots_le, layout.entriesLba_ge⟩

/-! ## Reading -/

theorem read_of_holds (holds : layout.Holds image blockSize) (hsize : 512 ≤ blockSize)
    (bound : image.contents.size ≤ maxWord) :
    read image blockSize = .ok (some layout.partitions) := by
  have hpos : 0 < blockSize := by omega
  have hspan := holds.arraySpan_inside hpos
  have hinside := holds.blocks_inside hpos
  have hblock : image.readBlocks 1 1 blockSize = .ok (image.contents.read blockSize blockSize) := by
    refine Image.readBlocks_eq_ok_iff.2 ?_
    rw [Nat.one_mul]
    exact ⟨by omega, by omega, fun _ => ⟨holds.header_readable, by omega⟩, rfl⟩
  have harray : image.readBlocks layout.entriesLba
      (arrayBlocks (layout.header image blockSize) blockSize) blockSize =
        .ok (image.contents.read (layout.entriesLba * blockSize) (layout.arraySpan blockSize)) :=
    Image.readBlocks_eq_ok_iff.2
      ⟨by omega, (by omega : layout.arraySpan blockSize ≤ maxWord),
        fun _ => ⟨holds.array_readable, hspan⟩, rfl⟩
  -- an entry of the array is read where the slot is written
  have hentries : ∀ slot s, layout.slots[slot]? = some s →
      Written s (((layout.arrayText image blockSize).drop (slot * layout.entrySize)).take
        layout.entrySize) := by
    intro slot s hs
    have hslot : slot < layout.slots.length := (List.getElem?_eq_some_iff.1 hs).1
    have hfits : slot * layout.entrySize + layout.entrySize ≤ layout.arrayLength := by
      rw [← Nat.succ_mul]
      exact Nat.mul_le_mul_right layout.entrySize hslot
    rw [arrayText, image.contents.take_drop_read hfits]
    exact holds.entries slot s hs
  have hlast : ∀ d, some d ∈ layout.slots → d.last < maxWord := by
    intro d hd
    have := holds.last_inside d hd
    have := Nat.div_le_self image.contents.size blockSize
    omega
  rw [read_of_found hpos hblock (header_of_holds holds hsize bound) harray]
  -- the checksum in the header is that of the array
  exact (if_pos rfl).trans (congrArg (Except.map some) (partitions_of_written hentries hlast))

/-- A partition of the layout is that of a used slot. -/
theorem mem_partitions {p : Partition} (h : p ∈ layout.partitions) :
    ∃ d number, some d ∈ layout.slots ∧ p = d.partition number := by
  obtain ⟨⟨s, number⟩, hs, hp⟩ := List.mem_filterMap.1 h
  obtain ⟨d, rfl, rfl⟩ := Option.map_eq_some_iff.1 hp
  exact ⟨d, number, List.fst_mem_of_mem_zipIdx hs, rfl⟩

/-- Later slots have higher numbers and share no block with earlier ones. -/
theorem pairwise_partitions (layout : Layout) : layout.partitions.Pairwise fun p q =>
    p.index < q.index ∧ ¬p.SharesBlock q := by
  have hnumbers : (layout.slots.zipIdx 1).Pairwise fun s t => s.2 < t.2 := by
    have hmapped : ((layout.slots.zipIdx 1).map Prod.snd).Pairwise (· < ·) := by
      rw [List.zipIdx_map_snd]
      exact List.pairwise_lt_range' 1
    exact List.pairwise_map.1 hmapped
  have hblocks : (layout.slots.zipIdx 1).Pairwise fun s t =>
      ∀ d ∈ s.1, ∀ e ∈ t.1, d.last < e.first ∨ e.last < d.first := by
    have hmapped : ((layout.slots.zipIdx 1).map Prod.fst).Pairwise
        fun s t => ∀ d ∈ s, ∀ e ∈ t, d.last < e.first ∨ e.last < d.first := by
      rw [List.zipIdx_map_fst]
      exact layout.apart
    exact List.pairwise_map.1 hmapped
  refine List.pairwise_filterMap.2 ((hnumbers.and hblocks).imp ?_)
  rintro ⟨s, m⟩ ⟨t, n⟩ ⟨hmn, hapart⟩ p hp q hq
  obtain ⟨d, rfl, rfl⟩ := Option.map_eq_some_iff.1 hp
  obtain ⟨e, rfl, rfl⟩ := Option.map_eq_some_iff.1 hq
  refine ⟨hmn, ?_⟩
  intro hshares
  rw [Partition.sharesBlock_iff] at hshares
  have hd := d.ordered
  have he := e.ordered
  have := hapart d rfl e rfl
  simp only [Described.partition] at hshares
  omega

/-- An image that holds a layout is read as a GUID table of exactly the partitions that the layout
describes, whatever else the image holds. -/
theorem discover_layout (hsize : 512 ≤ blockSize) (bound : image.contents.size ≤ maxWord)
    (holds : layout.Holds image blockSize) :
    PartitionTable.discover image blockSize true = .ok ⟨.gpt, layout.partitions⟩ := by
  have hcount : PartitionTable.blockCount image blockSize < maxWord := by
    refine Nat.lt_of_le_of_lt (Nat.div_le_div_right bound) (Nat.div_lt_self (by decide) ?_)
    omega
  rw [PartitionTable.discover, if_neg (Nat.not_lt.2 hsize), if_pos rfl,
    read_of_holds holds hsize bound]
  refine PartitionTable.ofPartitions_of_increasing hcount (fun p hp => ?_)
    (layout.pairwise_partitions.imp And.right) (layout.pairwise_partitions.imp And.left)
  obtain ⟨d, number, hd, rfl⟩ := mem_partitions hp
  have hlast : d.last < PartitionTable.blockCount image blockSize := holds.last_inside d hd
  have hordered := d.ordered
  simp only [Described.partition]
  omega

end Layout

/-! ## A written table -/

/-- A partition with a name that leaves room. -/
def bootEntry : Described where
  type := ⟨[0xAF, 0x3D, 0xC6, 0x0F, 0x83, 0x84, 0x72, 0x47, 0x8E, 0x79, 0x3D, 0x69, 0xD8, 0x47,
    0x7D, 0xE4]⟩
  first := 4
  last := 5
  name := "boot"
  type_length := rfl
  type_used := by decide
  ordered := by decide
  name_short := by decide
  name_unbroken := by decide

/-- A partition of one block, with a name that needs a pair of halves. -/
def dataEntry : Described where
  type := bootEntry.type
  first := 6
  last := 6
  name := "d😀"
  type_length := rfl
  type_used := bootEntry.type_used
  ordered := by decide
  name_short := by decide
  name_unbroken := by decide

/-- Three entries, the middle one unused, of more than the usual size. -/
def writtenLayout : Layout where
  headerSize := 96
  entriesLba := 2
  entrySize := 136
  slots := [some bootEntry, none, some dataEntry]
  headerSize_ge := by decide
  entriesLba_ge := by decide
  entrySize_ge := by decide
  entrySize_dvd := by decide
  slots_pos := by decide
  slots_le := by decide
  sizes_lt := by decide
  apart := by decide

/-- The header of the table; its last four bytes mean nothing. -/
def writtenHeader : List UInt8 :=
  [0x45, 0x46, 0x49, 0x20, 0x50, 0x41, 0x52, 0x54] ++ toBytes 4 0x10000 ++ toBytes 4 96 ++
    toBytes 4 0x7AE95BD1 ++ List.replicate 52 0 ++ toBytes 8 2 ++ toBytes 4 3 ++ toBytes 4 136 ++
    toBytes 4 0x31B13E82 ++ [1, 2, 3, 4]

/-- The array of the table; where an entry means nothing it holds some other byte. -/
def writtenArray : List UInt8 :=
  let entry (d : Described) (filler other : UInt8) : List UInt8 :=
    d.type.bytes ++ List.replicate 16 filler ++ toBytes 8 d.first ++ toBytes 8 d.last ++
      List.replicate 8 0 ++ d.units.flatMap (toBytes 2) ++
      List.replicate (72 - 2 * d.units.length) 0 ++ List.replicate 8 other
  entry bootEntry 0x11 0x22 ++ (List.replicate 16 0 ++ List.replicate 120 0x33) ++
    entry dataEntry 0x44 0x55

/-- A device of eight blocks with the table, and no boot record. -/
def writtenImage : Image where
  contents := ⟨4096, (List.replicate 512 0 ++ (writtenHeader ++ (List.replicate 416 0 ++
    writtenArray))).toArray⟩

/-- Stored bytes are read where they were put. -/
theorem read_of_append {size pos len : Nat} {before text after : List UInt8}
    (hbefore : before.length = pos) (htext : text.length = len) :
    (Memory.mk size (before ++ (text ++ after)).toArray).read pos len = text := by
  refine List.ext_getElem? ?_
  intro i
  rw [Memory.getElem?_read]
  by_cases hi : i < len
  · have hlen : i < text.length := by omega
    rw [if_pos hi, Memory.byte, Array.getD_eq_getD_getElem?, List.getElem?_toArray,
      List.getElem?_append_right (by omega), hbefore, Nat.add_sub_cancel_left,
      List.getElem?_append_left hlen, List.getElem?_eq_getElem hlen, Option.getD_some]
  · rw [if_neg hi, List.getElem?_eq_none (by omega)]

/-- The register as a number. Each byte waits for the number to be known, so that the checksum of
a given text can be worked out. -/
def registerNumber : List UInt8 → Nat → Nat
  | [], n => n
  | b :: bytes, 0 => registerNumber bytes (Crc32.update 0 b).toNat
  | b :: bytes, n + 1 => registerNumber bytes (Crc32.update (UInt32.ofNat (n + 1)) b).toNat

theorem toNat_register (r : UInt32) (bytes : List UInt8) :
    (Crc32.register r bytes).toNat = registerNumber bytes r.toNat := by
  induction bytes generalizing r with
  | nil => rfl
  | cons b bytes ih =>
    have hr : UInt32.ofNat r.toNat = r := UInt32.ofNat_toNat
    rw [show Crc32.register r (b :: bytes) = Crc32.register (Crc32.update r b) bytes from rfl, ih]
    cases hn : r.toNat with
    | zero =>
      rw [hn] at hr
      rw [registerNumber, ← hr]
      rfl
    | succ n =>
      rw [hn] at hr
      rw [registerNumber, hr]

theorem toNat_checksum (bytes : List UInt8) :
    (Crc32.checksum bytes).toNat = registerNumber bytes 0xFFFFFFFF ^^^ 0xFFFFFFFF := by
  rw [Crc32.checksum, UInt32.toNat_xor, toNat_register]
  rfl

theorem length_written : writtenHeader.length = 96 ∧ writtenArray.length = 408 := by
  decide +kernel

theorem writtenImage_header {off n : Nat} (h : off + n ≤ 96) :
    writtenImage.contents.read (512 + off) n = (writtenHeader.drop off).take n := by
  have hheader : writtenImage.contents.read 512 96 = writtenHeader :=
    read_of_append List.length_replicate length_written.1
  rw [← hheader, writtenImage.contents.take_drop_read h]

theorem writtenImage_array {off n : Nat} (h : off + n ≤ 408) :
    writtenImage.contents.read (1024 + off) n = (writtenArray.drop off).take n := by
  have hbefore : (List.replicate 512 (0 : UInt8) ++ (writtenHeader ++
      List.replicate 416 0)).length = 1024 := by
    rw [List.length_append, List.length_append, List.length_replicate, List.length_replicate,
      length_written.1]
  have harray : (Memory.mk 4096 (List.replicate 512 0 ++ (writtenHeader ++
      List.replicate 416 0) ++ (writtenArray ++ [])).toArray).read 1024 408 = writtenArray :=
    read_of_append hbefore length_written.2
  rw [List.append_nil, List.append_assoc, List.append_assoc] at harray
  have hread : writtenImage.contents.read 1024 408 = writtenArray := harray
  rw [← hread, writtenImage.contents.take_drop_read h]

theorem headerText_written :
    (Crc32.checksum (writtenLayout.headerText writtenImage 512)).toNat = 0x7AE95BD1 := by
  have htext : writtenLayout.headerText writtenImage 512 =
      (writtenHeader.drop 0).take 16 ++ [0, 0, 0, 0] ++ (writtenHeader.drop 20).take 76 := by
    rw [← writtenImage_header (by decide : 0 + 16 ≤ 96),
      ← writtenImage_header (by decide : 20 + 76 ≤ 96)]
    rfl
  rw [htext, toNat_checksum]
  decide +kernel

theorem arrayText_written :
    (Crc32.checksum (writtenLayout.arrayText writtenImage 512)).toNat = 0x31B13E82 := by
  have htext : writtenLayout.arrayText writtenImage 512 = (writtenArray.drop 0).take 408 := by
    rw [← writtenImage_array (by decide : 0 + 408 ≤ 408)]
    rfl
  rw [htext, toNat_checksum]
  decide +kernel

theorem writtenImage_holds : writtenLayout.Holds writtenImage 512 where
  whole := by decide
  header_inside := by decide
  array_inside := by decide
  header_readable := rfl
  array_readable := rfl
  signature := (writtenImage_header (by decide : 0 + 8 ≤ 96)).trans (by decide +kernel)
  headerSize := (writtenImage_header (by decide)).trans (by decide +kernel)
  headerCrc := by
    rw [headerText_written, writtenImage_header (by decide)]
    decide +kernel
  entriesLba := (writtenImage_header (by decide)).trans (by decide +kernel)
  entryCount := (writtenImage_header (by decide)).trans (by decide +kernel)
  entrySize := (writtenImage_header (by decide)).trans (by decide +kernel)
  arrayCrc := by
    rw [arrayText_written, writtenImage_header (by decide)]
    decide +kernel
  entries slot s hs := by
    have hslot : slot < 3 := (List.getElem?_eq_some_iff.1 hs).1
    have hentry : writtenImage.contents.read (1024 + slot * 136) 136 =
        (writtenArray.drop (slot * 136)).take 136 := writtenImage_array (by omega)
    change Written s (writtenImage.contents.read (1024 + slot * 136) 136)
    rw [hentry]
    rcases slot with _ | _ | _ | slot
    · obtain rfl := Option.some.inj hs
      exact ⟨by decide +kernel, by decide +kernel, by decide +kernel, by decide +kernel⟩
    · obtain rfl := Option.some.inj hs
      change List.take 16 _ = _
      decide +kernel
    · obtain rfl := Option.some.inj hs
      exact ⟨by decide +kernel, by decide +kernel, by decide +kernel, by decide +kernel⟩
    · omega
  last_inside d hd := by
    have hcases : d = bootEntry ∨ d = dataEntry := by simpa [writtenLayout] using hd
    rcases hcases with rfl | rfl
    · decide
    · decide

theorem discover_layout_written :
    512 ≤ 512 ∧ writtenImage.contents.size ≤ maxWord ∧ writtenLayout.Holds writtenImage 512 ∧
      PartitionTable.discover writtenImage 512 true = .ok ⟨.gpt,
        [⟨1, 4, 2, .gpt bootEntry.type "boot"⟩, ⟨3, 6, 1, .gpt dataEntry.type "d😀"⟩]⟩ :=
  ⟨Nat.le_refl _, by decide, writtenImage_holds,
    Layout.discover_layout (Nat.le_refl _) (by decide) writtenImage_holds⟩

end BlockMux.Gpt
