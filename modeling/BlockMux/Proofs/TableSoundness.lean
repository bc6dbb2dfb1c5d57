import BlockMux.Disk.Discovery
import BlockMux.Proofs.PartitionOrder
import Mathlib.Data.List.Sort

/-!
# Discovered tables are sound

The bytes of an image are not to be trusted: entries may reach anywhere, several containers may
share a chain, and a chain may name the same blocks twice. What a discovered table says of the
device holds all the same. Its partitions lie on the device and share no block, no two have the
same index, and every one of them stands in an entry of the on-disk format, whose place gives the
index.

Main statements:

* `Listed` — the entries of an image, with the index that each one's place comes to.
* `readEntries_listed`, `partitions_listed` — the two readers make up no partition.
* `readEntries_distinct` — primaries and the logicals of all containers have different indices.
* `discover_sound` — whatever the image holds, a discovered table is sound.
-/

namespace BlockMux

/-! ## Entries of an image -/

/-- The records of the chain that starts in block `base`. -/
inductive BootRecord.Chained (image : Image) (blockSize base : Nat) : Nat → Prop
  | container : Chained image blockSize base base
  | link {lba : Nat} {record : List UInt8} (chained : Chained image blockSize base lba)
      (found : image.readBlocks lba 1 blockSize = .ok record) (signed : isSigned record = true)
      (leads : (entry record 1).isLink = true) :
      Chained image blockSize base (base + (entry record 1).lba)

/-- A signed record in a block of the image. -/
structure BootRecord.Signed (image : Image) (blockSize lba : Nat) (record : List UInt8) : Prop where
  found : image.readBlocks lba 1 blockSize = .ok record
  signed : isSigned record = true

/-- The array of entries of the image's GUID table. -/
structure Gpt.EntryArray (image : Image) (blockSize : Nat) (header : Header)
    (array : List UInt8) : Prop where
  header_found : ∃ block, image.readBlocks 1 1 blockSize = .ok block ∧
    Header.ofBlock? block = some header
  array_found : ∃ blocks, image.readBlocks header.entriesLba (arrayBlocks header blockSize)
    blockSize = .ok blocks ∧ array = blocks.take header.arrayLength
  checksum : (Crc32.checksum array).toNat = header.entriesCrc

open BootRecord in
/-- The partitions that the entries of an image describe, each with an index that its entry's
place allows. -/
inductive Listed (image : Image) (blockSize : Nat) : TableFormat → Partition → Prop
  | primary {record : List UInt8} {slot : Nat} (boot : Signed image blockSize 0 record)
      (slot_lt : slot < 4) (used : (entry record slot).isUsed = true)
      (plain : (entry record slot).isExtended = false) :
      Listed image blockSize .classic ((entry record slot).toPartition (slot + 1) 0)
  | logical {record : List UInt8} {slot : Nat} (boot : Signed image blockSize 0 record)
      (slot_lt : slot < 4) (used : (entry record slot).isUsed = true)
      (extended : (entry record slot).isExtended = true) {lba index : Nat} {link : List UInt8}
      (chained : Chained image blockSize (entry record slot).lba lba)
      (linked : Signed image blockSize lba link) (described : (entry link 0).isUsed = true)
      (index_ge : firstLogical ≤ index) :
      Listed image blockSize .classic ((entry link 0).toPartition index lba)
  | guid {header : Gpt.Header} {array : List UInt8} {number : Nat} {p : Partition}
      (entries : Gpt.EntryArray image blockSize header array) (number_lt : number < header.entryCount)
      (entry_eq : Gpt.partition? (number + 1)
        ((array.drop (number * header.entrySize)).take header.entrySize) = .ok (some p)) :
      Listed image blockSize .gpt p

theorem Image.readBlocks_of_present {image : Image} {lba count blockSize : Nat}
    {bytes : List UInt8} (h : image.readBlocks? lba count blockSize = .ok (some bytes)) :
    image.readBlocks lba count blockSize = .ok bytes := by
  unfold readBlocks? at h
  split at h
  · rename_i found hfound
    simp only [Except.ok.injEq, Option.some.injEq] at h
    rw [hfound, h]
  · split at h
    · simp at h
    · simp at h

/-! ## Boot records -/

namespace BootRecord

/-- Every logical entry of a chain is the used first entry of a record of the chain. -/
theorem walkChain_chained {image : Image} {blockSize base left : Nat} {visited : List Nat}
    {lba : Nat} {logicals : List (Nat × Entry)} (hlba : Chained image blockSize base lba)
    (h : walkChain image blockSize base left visited lba = .ok logicals) :
    ∀ l ∈ logicals, Chained image blockSize base l.1 ∧
      ∃ record, Signed image blockSize l.1 record ∧ l.2 = entry record 0 ∧
        (entry record 0).isUsed = true := by
  -- on the links that may still be followed; where they run out the walk has failed
  induction left generalizing visited lba logicals with
  | zero => simp [walkChain] at h
  | succ left ih =>
    rw [walkChain] at h
    split at h
    · simp at h
    · split at h
      · simp at h
      · rename_i record hread
        split at h
        · rename_i hsigned
          -- the record's own entry, whichever way the chain goes on
          have hown : ∀ l ∈ (if (entry record 0).isUsed then [(lba, entry record 0)] else []),
              Chained image blockSize base l.1 ∧
              ∃ record, Signed image blockSize l.1 record ∧ l.2 = entry record 0 ∧
                (entry record 0).isUsed = true := by
            intro l hl
            split at hl
            · rename_i hused
              obtain rfl := List.mem_singleton.1 hl
              exact ⟨hlba, record, ⟨hread, hsigned⟩, rfl, hused⟩
            · simp at hl
          generalize (if (entry record 0).isUsed then [(lba, entry record 0)] else []) = own
            at h hown
          split at h
          · rename_i hlink
            cases hrest : walkChain image blockSize base left (lba :: visited)
                (base + (entry record 1).lba) with
            | error e => simp [hrest, Except.map] at h
            | ok rest =>
              simp only [hrest, Except.map, Except.ok.injEq] at h
              subst h
              intro l hl
              rcases List.mem_append.1 hl with hl | hl
              · exact hown l hl
              · exact ih (hlba.link hread hsigned hlink) hrest l hl
          · simp only [Except.ok.injEq] at h
            subst h
            exact hown
        -- a record without the signature ends the chain, and adds nothing
        · simp only [Except.ok.injEq] at h
          subst h
          simp

theorem numberLogicals_index (index : Nat) (logicals : List (Nat × Entry)) :
    (numberLogicals index logicals).map Partition.index =
      List.range' index logicals.length := by
  induction logicals generalizing index with
  | nil => rfl
  | cons l logicals ih =>
    rw [numberLogicals, List.map_cons, ih, List.length_cons, List.range'_succ]
    rfl

theorem mem_numberLogicals {index : Nat} {logicals : List (Nat × Entry)} {p : Partition}
    (h : p ∈ numberLogicals index logicals) :
    ∃ l ∈ logicals, p = l.2.toPartition p.index l.1 ∧ index ≤ p.index ∧
      p.index < index + logicals.length := by
  induction logicals generalizing index with
  | nil => simp [numberLogicals] at h
  | cons l logicals ih =>
    rw [List.length_cons]
    rcases List.mem_cons.1 h with rfl | h
    · have hindex : (l.2.toPartition index l.1).index = index := rfl
      exact ⟨l, List.mem_cons_self .., rfl, by omega, by omega⟩
    · obtain ⟨m, hm, hp, hge, hlt⟩ := ih h
      exact ⟨m, List.mem_cons_of_mem l hm, hp, by omega, by omega⟩

/-- What the reader of the boot record does with its first entry: nothing, follow a chain, or take
it for a primary. -/
theorem readEntries_cons {image : Image} {blockSize slot next : Nat} {e : Entry}
    {entries : List Entry} {ps : List Partition}
    (h : readEntries image blockSize slot next (e :: entries) = .ok ps) :
    (readEntries image blockSize (slot + 1) next entries = .ok ps) ∨
    (∃ logicals rest, e.isUsed = true ∧ e.isExtended = true ∧
      walkChain image blockSize e.lba maxLinks [] e.lba = .ok logicals ∧
      readEntries image blockSize (slot + 1) (next + logicals.length) entries = .ok rest ∧
      ps = numberLogicals next logicals ++ rest) ∨
    (∃ rest, e.isUsed = true ∧ e.isExtended = false ∧
      readEntries image blockSize (slot + 1) next entries = .ok rest ∧
      ps = e.toPartition (slot + 1) 0 :: rest) := by
  rw [readEntries] at h
  split at h
  · exact Or.inl h
  · rename_i hused
    have hused : e.isUsed = true := by simpa using hused
    split at h
    · -- the logicals of the chain move the number that the next chain starts from
      rename_i hextended
      cases hwalk : walkChain image blockSize e.lba maxLinks [] e.lba with
      | error cause => simp [hwalk, bind, Except.bind] at h
      | ok logicals =>
        cases hrest : readEntries image blockSize (slot + 1) (next + logicals.length) entries with
        | error cause => simp [hwalk, hrest, bind, Except.bind] at h
        | ok rest =>
          simp only [hwalk, hrest, bind, Except.bind, pure, Except.pure, Except.ok.injEq] at h
          exact Or.inr (Or.inl ⟨logicals, rest, hused, hextended, rfl, hrest, h.symm⟩)
    · rename_i hplain
      cases hrest : readEntries image blockSize (slot + 1) next entries with
      | error cause => simp [hrest, bind, Except.bind] at h
      | ok rest =>
        simp only [hrest, bind, Except.bind, pure, Except.pure, Except.ok.injEq] at h
        exact Or.inr (Or.inr ⟨rest, hused, by simpa using hplain, rfl, h.symm⟩)

/-- Primaries are numbered by their slots and logicals from `next` on, so that no two partitions
have the same index. -/
theorem readEntries_distinct {image : Image} {blockSize slot next : Nat} {entries : List Entry}
    {ps : List Partition} (hnext : slot + entries.length < next)
    (h : readEntries image blockSize slot next entries = .ok ps) :
    (∀ p ∈ ps, slot < p.index ∧ (p.index ≤ slot + entries.length ∨ next ≤ p.index)) ∧
      ps.Pairwise fun p q => p.index ≠ q.index := by
  -- on the entries: later primaries have higher slots, and `next` only grows
  induction entries generalizing slot next ps with
  | nil =>
    simp only [readEntries, Except.ok.injEq] at h
    subst h
    simp
  | cons e entries ih =>
    rw [List.length_cons] at hnext ⊢
    have hnext' : slot + 1 + entries.length < next := by omega
    rcases readEntries_cons h with hrest | ⟨logicals, rest, -, -, -, hrest, rfl⟩ |
      ⟨rest, -, -, hrest, rfl⟩
    · -- an unused slot
      obtain ⟨hbounds, hdistinct⟩ := ih hnext' hrest
      exact ⟨fun p hp => by have := hbounds p hp; omega, hdistinct⟩
    · -- a container: the later entries number on after its logicals
      obtain ⟨hbounds, hdistinct⟩ := ih (Nat.lt_add_right logicals.length hnext') hrest
      have hlogical : ∀ p ∈ numberLogicals next logicals,
          next ≤ p.index ∧ p.index < next + logicals.length := fun p hp => by
        obtain ⟨-, -, -, hge, hlt⟩ := mem_numberLogicals hp
        exact ⟨hge, hlt⟩
      have hnumbered : (numberLogicals next logicals).Pairwise
          fun p q => p.index ≠ q.index := by
        have hnodup : ((numberLogicals next logicals).map Partition.index).Nodup := by
          rw [numberLogicals_index]
          exact List.nodup_range' 1
        exact List.pairwise_map.1 hnodup
      refine ⟨fun p hp => ?_, List.pairwise_append.2 ⟨hnumbered, hdistinct, fun p hp q hq => ?_⟩⟩
      · rcases List.mem_append.1 hp with hp | hp
        · have := hlogical p hp
          omega
        · have := hbounds p hp
          omega
      · have := hlogical p hp
        have := hbounds q hq
        omega
    · -- a primary
      obtain ⟨hbounds, hdistinct⟩ := ih hnext' hrest
      have hindex : (e.toPartition (slot + 1) 0).index = slot + 1 := rfl
      refine ⟨fun p hp => ?_, List.pairwise_cons.2 ⟨fun q hq => ?_, hdistinct⟩⟩
      · rcases List.mem_cons.1 hp with rfl | hp
        · omega
        · have := hbounds p hp
          omega
      · have := hbounds q hq
        omega

/-- The reader of the boot record makes up no partition. -/
theorem readEntries_listed {image : Image} {blockSize slot next : Nat} {record : List UInt8}
    (boot : Signed image blockSize 0 record) {count : Nat} {ps : List Partition}
    (hcount : slot + count ≤ 4) (hnext : firstLogical ≤ next)
    (h : readEntries image blockSize slot next
      ((List.range' slot count).map (entry record)) = .ok ps) :
    ∀ p ∈ ps, Listed image blockSize .classic p := by
  -- on the slots that are left to read
  induction count generalizing slot next ps with
  | zero =>
    simp only [List.range'_zero, List.map_nil, readEntries, Except.ok.injEq] at h
    subst h
    simp
  | succ count ih =>
    rw [List.range'_succ, List.map_cons] at h
    have hcount' : slot + 1 + count ≤ 4 := by omega
    rcases readEntries_cons h with hrest | ⟨logicals, rest, hused, hext, hwalk, hrest, rfl⟩ |
      ⟨rest, hused, hplain, hrest, rfl⟩
    · exact ih hcount' hnext hrest
    · intro p hp
      rcases List.mem_append.1 hp with hp | hp
      · obtain ⟨l, hl, hp, hge, -⟩ := mem_numberLogicals hp
        obtain ⟨hchained, link, hlink, hentry, hdescribed⟩ :=
          walkChain_chained .container hwalk l hl
        rw [hp, hentry]
        exact .logical boot (by omega) hused hext hchained hlink hdescribed (Nat.le_trans hnext hge)
      · exact ih hcount' (Nat.le_trans hnext (Nat.le_add_right ..)) hrest p hp
    · intro p hp
      rcases List.mem_cons.1 hp with rfl | hp
      · exact .primary boot (by omega) hused hplain
      · exact ih hcount' hnext hrest p hp

/-- What reading the boot record comes to where there is one that guards no GUID table. -/
theorem read_eq_ok {image : Image} {blockSize : Nat} {ps : List Partition}
    (h : read image blockSize = .ok (some ps)) :
    ∃ record, Signed image blockSize 0 record ∧
      readEntries image blockSize 0 firstLogical ((List.range' 0 4).map (entry record)) =
        .ok ps ∧
      ∀ slot < 4, (entry record slot).isProtective = false := by
  unfold read at h
  split at h
  · simp at h
  · simp at h
  · rename_i record hread
    simp only at h
    split at h
    · simp at h
    · rename_i hsigned
      split at h
      · simp at h
      · rename_i hguard
        cases hentries : readEntries image blockSize 0 firstLogical
            ((List.range 4).map (entry record)) with
        | error cause => simp [hentries, Except.map] at h
        | ok entries =>
          simp only [hentries, Except.map, Except.ok.injEq, Option.some.injEq] at h
          subst h
          refine ⟨record, ⟨?_, by simpa using hsigned⟩, ?_, fun slot hslot => ?_⟩
          · exact Image.readBlocks_of_present hread
          · rwa [← List.range_eq_range']
          · rw [Bool.not_eq_true, List.any_eq_false] at hguard
            simpa using hguard _ (List.mem_map_of_mem (List.mem_range.2 hslot))

end BootRecord

/-! ## GUID tables -/

namespace Gpt

theorem partition?_index {index : Nat} {entry : List UInt8} {p : Partition}
    (h : partition? index entry = .ok (some p)) : p.index = index := by
  unfold partition? at h
  simp only at h
  split at h
  · simp at h
  · split at h
    · simp at h
    · split at h
      · simp at h
      · simp only [Except.ok.injEq, Option.some.injEq] at h
        rw [← h]

/-- Where all entries can be read, the first one can, and so can the rest. -/
theorem partitions_succ_eq_ok {size index count : Nat} {bytes : List UInt8} {ps : List Partition}
    (h : partitions size index (count + 1) bytes = .ok ps) :
    ∃ p rest, partition? index (bytes.take size) = .ok p ∧
      partitions size (index + 1) count (bytes.drop size) = .ok rest ∧ ps = p.toList ++ rest := by
  rw [partitions] at h
  cases hfirst : partition? index (bytes.take size) with
  | error e => simp [hfirst] at h
  | ok p =>
    cases hrest : partitions size (index + 1) count (bytes.drop size) with
    | error e => simp [hfirst, hrest, Except.map] at h
    | ok rest =>
      simp only [hfirst, hrest, Except.map, Except.ok.injEq] at h
      exact ⟨p, rest, rfl, rfl, h.symm⟩

/-- The partition of an entry of the array has the entry's number plus the number of the first. -/
theorem mem_partitions {size index count : Nat} {bytes : List UInt8} {ps : List Partition}
    (h : partitions size index count bytes = .ok ps) {p : Partition} (hp : p ∈ ps) :
    ∃ number, number < count ∧
      partition? (index + number) ((bytes.drop (number * size)).take size) = .ok (some p) := by
  induction count generalizing index bytes ps with
  | zero =>
    obtain rfl : [] = ps := Except.ok.inj h
    simp at hp
  | succ count ih =>
    obtain ⟨first, rest, hfirst, hrest, rfl⟩ := partitions_succ_eq_ok h
    rcases List.mem_append.1 hp with hp | hp
    · obtain rfl := Option.mem_toList.1 hp
      exact ⟨0, Nat.succ_pos count, by simpa using hfirst⟩
    · obtain ⟨number, hlt, hentry⟩ := ih hrest hp
      refine ⟨number + 1, Nat.succ_lt_succ hlt, ?_⟩
      -- the rest of the array starts one entry further on
      rwa [List.drop_drop, Nat.add_assoc, Nat.add_comm 1, Nat.add_comm size,
        ← Nat.succ_mul] at hentry

theorem partitions_distinct {size index count : Nat} {bytes : List UInt8} {ps : List Partition}
    (h : partitions size index count bytes = .ok ps) :
    ps.Pairwise fun p q => p.index ≠ q.index := by
  induction count generalizing index bytes ps with
  | zero =>
    obtain rfl : [] = ps := Except.ok.inj h
    exact .nil
  | succ count ih =>
    obtain ⟨first, rest, hfirst, hrest, rfl⟩ := partitions_succ_eq_ok h
    refine List.pairwise_append.2 ⟨?_, ih hrest, fun p hp q hq => ?_⟩
    · cases first <;> simp
    · obtain rfl := Option.mem_toList.1 hp
      have hp := partition?_index hfirst
      obtain ⟨number, -, hq⟩ := mem_partitions hrest hq
      have := partition?_index hq
      omega

/-- Once the array is found, its entries alone decide. -/
theorem EntryArray.read_eq {image : Image} {blockSize : Nat} {header : Header}
    {array : List UInt8} (entries : EntryArray image blockSize header array) :
    read image blockSize =
      (partitions header.entrySize 1 header.entryCount array).map some := by
  obtain ⟨block, hblock, hheader⟩ := entries.header_found
  obtain ⟨blocks, hblocks, rfl⟩ := entries.array_found
  simp only [read, Image.readBlocks?_of_found hblock, hheader, Image.readBlocks?_of_found hblocks,
    if_pos entries.checksum]

/-- There is no table and no error of a table unless the array is found. -/
theorem entries_or_none (image : Image) (blockSize : Nat) :
    (∃ header array, EntryArray image blockSize header array) ∨
      read image blockSize = .ok none ∨ ∃ e, read image blockSize = .error (.io e) := by
  -- the header is checked before the array is read, and the array before its entries are
  unfold read
  split
  · exact .inr (.inr ⟨_, rfl⟩)
  · exact .inr (.inl rfl)
  · rename_i block hblock
    split
    · exact .inr (.inl rfl)
    · rename_i header hheader
      split
      · exact .inr (.inr ⟨_, rfl⟩)
      · exact .inr (.inl rfl)
      · rename_i blocks hblocks
        dsimp only
        split
        · rename_i hsum
          exact .inl ⟨header, _, ⟨block, Image.readBlocks_of_present hblock, hheader⟩,
            ⟨blocks, Image.readBlocks_of_present hblocks, rfl⟩, hsum⟩
        · exact .inr (.inl rfl)

/-- What reading the GUID table comes to where there is one. -/
theorem read_eq_ok {image : Image} {blockSize : Nat} {ps : List Partition}
    (h : read image blockSize = .ok (some ps)) :
    ∃ header array, EntryArray image blockSize header array ∧
      partitions header.entrySize 1 header.entryCount array = .ok ps := by
  rcases entries_or_none image blockSize with ⟨header, array, entries⟩ | hnone | ⟨e, herror⟩
  · rw [entries.read_eq] at h
    refine ⟨header, array, entries, ?_⟩
    cases hfound : partitions header.entrySize 1 header.entryCount array with
    | error e => simp [hfound, Except.map] at h
    | ok found =>
      simp only [hfound, Except.map, Except.ok.injEq, Option.some.injEq] at h
      rw [h]
  · simp [hnone] at h
  · simp [herror] at h

/-- The reader of the GUID table makes up no partition. -/
theorem partitions_listed {image : Image} {blockSize : Nat} {header : Header}
    {array : List UInt8} (entries : EntryArray image blockSize header array)
    {ps : List Partition} (h : partitions header.entrySize 1 header.entryCount array = .ok ps) :
    ∀ p ∈ ps, Listed image blockSize .gpt p := by
  intro p hp
  obtain ⟨number, hlt, hentry⟩ := mem_partitions h hp
  rw [Nat.add_comm] at hentry
  exact .guid entries hlt hentry

end Gpt

/-! ## Tables -/

theorem Listed.index_pos {image : Image} {blockSize : Nat} {format : TableFormat} {p : Partition}
    (h : Listed image blockSize format p) : 1 ≤ p.index := by
  cases h with
  | primary => exact Nat.succ_pos _
  | logical boot slot_lt used extended chained linked described index_ge =>
    exact Nat.le_trans (by decide) index_ge
  | guid entries number_lt entry_eq =>
    rw [Gpt.partition?_index entry_eq]
    exact Nat.succ_pos _

namespace PartitionTable

/-- Where GUID tables are not to be used, the boot record alone decides. -/
theorem discover_of_read {image : Image} {blockSize : Nat} {ps : List Partition}
    {table : PartitionTable} (hsize : 512 ≤ blockSize)
    (hread : BootRecord.read image blockSize = .ok (some ps))
    (hmade : ofPartitions .classic ps (blockCount image blockSize) = .ok table) :
    discover image blockSize false = .ok table := by
  simp only [discover, if_neg (Nat.not_lt.2 hsize), ofBootRecord, hread, hmade]
  rfl

/-- A table was made from what one of the readers found; that of GUID tables is only asked when
it is to be used. -/
theorem discover_cases {image : Image} {blockSize : Nat} {useGpt : Bool} {table : PartitionTable}
    (h : discover image blockSize useGpt = .ok table) :
    512 ≤ blockSize ∧ ∃ format ps,
      ofPartitions format ps (blockCount image blockSize) = .ok table ∧
      (format = .classic ∧ BootRecord.read image blockSize = .ok (some ps) ∨
        format = .gpt ∧ useGpt = true ∧ Gpt.read image blockSize = .ok (some ps)) := by
  -- the boot record is read also where GUID tables are to be used and there is none
  have hboot : ofBootRecord image blockSize = .ok table → ∃ format ps,
      ofPartitions format ps (blockCount image blockSize) = .ok table ∧
      (format = .classic ∧ BootRecord.read image blockSize = .ok (some ps) ∨
        format = .gpt ∧ useGpt = true ∧ Gpt.read image blockSize = .ok (some ps)) := by
    intro h
    unfold ofBootRecord at h
    split at h
    · simp at h
    · simp at h
    · rename_i ps hread
      exact ⟨_, ps, h, Or.inl ⟨rfl, hread⟩⟩
  unfold discover at h
  split at h
  · simp at h
  · rename_i hsize
    refine ⟨by omega, ?_⟩
    split at h
    · rename_i huse
      split at h
      · simp at h
      · exact hboot h
      · rename_i ps hread
        exact ⟨_, ps, h, Or.inr ⟨rfl, huse, hread⟩⟩
    · exact hboot h

/-- Blocks of at least 512 bytes leave far fewer of them than the word limit. -/
theorem blockCount_lt_maxWord {image : Image} {blockSize : Nat} (hsize : 512 ≤ blockSize)
    (bound : image.contents.size ≤ maxWord) : blockCount image blockSize < maxWord := by
  have hpos : 0 < maxWord := by decide
  refine Nat.lt_of_le_of_lt (Nat.div_le_div_right bound) ?_
  exact Nat.div_lt_self hpos (by omega)

/-- Sorting by index orders partitions of different indices strictly. -/
theorem sorted_index {ps : List Partition} (h : ps.Pairwise fun p q => p.index ≠ q.index) :
    (ps.mergeSort fun p q => p.index ≤ q.index).Pairwise fun p q => p.index < q.index := by
  have hdistinct := ((List.mergeSort_perm ps fun p q => p.index ≤ q.index).pairwise_iff
    fun hpq => Ne.symm hpq).2 h
  refine ((sorted_mergeSort Partition.index ps).and hdistinct).imp ?_
  intro p q hpq
  exact Nat.lt_of_le_of_ne hpq.1 hpq.2

/-- Looking up an index finds the partition that has it. -/
theorem partition?_eq_some_iff {table : PartitionTable}
    (h : table.partitions.Pairwise fun p q => p.index < q.index) {index : Nat} {p : Partition} :
    table.partition? index = some p ↔ p ∈ table.partitions ∧ p.index = index := by
  refine ⟨partition?_mem, fun ⟨hp, hindex⟩ => ?_⟩
  cases hfound : table.partition? index with
  | none =>
    have := List.find?_eq_none.1 hfound p hp
    simp [hindex] at this
  | some q =>
    obtain ⟨hq, hqindex⟩ := partition?_mem hfound
    by_contra hne
    have hpq : p ≠ q := fun heq => hne (by rw [heq])
    have hdistinct := h.imp fun hlt => Nat.ne_of_lt hlt
    have : Std.Symm fun p q : Partition => p.index ≠ q.index := ⟨fun _ _ => Ne.symm⟩
    exact hdistinct.forall hp hq hpq (hindex.trans hqindex.symm)

/-- What a table may be relied on to say of the image that it was read from. -/
structure Sound (image : Image) (blockSize : Nat) (table : PartitionTable) : Prop where
  /-- Every partition lies on the device. -/
  inside : ∀ p ∈ table.partitions, 1 ≤ p.count ∧
    p.start + p.count ≤ image.contents.size / blockSize
  /-- No block belongs to two partitions. -/
  apart : table.partitions.Pairwise fun p q => ∀ block, ¬(p.Covers block ∧ q.Covers block)
  /-- Indices count from one. -/
  numbered : ∀ p ∈ table.partitions, 1 ≤ p.index
  /-- Indices increase. -/
  increasing : table.partitions.Pairwise fun p q => p.index < q.index
  /-- An index addresses the one partition that has it, and nothing where there is none. -/
  addressed : ∀ index,
    (∃ p ∈ table.partitions, table.partition? index = some p ∧ p.index = index ∧
      ∀ q ∈ table.partitions, q.index = index → q = p) ∨
    (table.partition? index = none ∧ ∀ q ∈ table.partitions, q.index ≠ index)
  /-- Every partition stands in an entry whose place gives its index. -/
  listed : ∀ p ∈ table.partitions, Listed image blockSize table.format p

/-- The partitions that a table is made from have different indices and stand in the image. -/
theorem listed_of_read {image : Image} {blockSize : Nat} {useGpt : Bool} {format : TableFormat}
    {ps : List Partition}
    (h : format = .classic ∧ BootRecord.read image blockSize = .ok (some ps) ∨
      format = .gpt ∧ useGpt = true ∧ Gpt.read image blockSize = .ok (some ps)) :
    (∀ p ∈ ps, Listed image blockSize format p) ∧ ps.Pairwise fun p q => p.index ≠ q.index := by
  rcases h with ⟨rfl, h⟩ | ⟨rfl, -, h⟩
  · obtain ⟨record, boot, hread, -⟩ := BootRecord.read_eq_ok h
    refine ⟨BootRecord.readEntries_listed boot (Nat.le_refl 4) (Nat.le_refl _) hread, ?_⟩
    exact (BootRecord.readEntries_distinct (by simp [BootRecord.firstLogical]) hread).2
  · obtain ⟨header, array, entries, hread⟩ := Gpt.read_eq_ok h
    exact ⟨Gpt.partitions_listed entries hread, Gpt.partitions_distinct hread⟩

/-- Whatever bytes an image holds, the table that is read from it is sound. -/
theorem discover_sound {image : Image} {blockSize : Nat} {useGpt : Bool} {table : PartitionTable}
    (bound : image.contents.size ≤ maxWord)
    (h : discover image blockSize useGpt = .ok table) : table.Sound image blockSize := by
  obtain ⟨hsize, format, ps, hmade, hread⟩ := discover_cases h
  have hcount := blockCount_lt_maxWord hsize bound
  obtain ⟨hlisted, hdistinct⟩ := listed_of_read hread
  -- distinct indices survive the choice of what fits, and are put in order at the end
  have hformat : table.format = format ∧
      table.partitions.Pairwise fun p q => p.index < q.index := by
    unfold ofPartitions at hmade
    split at hmade
    · simp at hmade
    · simp only [Except.ok.injEq] at hmade
      subst hmade
      refine ⟨rfl, sorted_index ?_⟩
      have hkept := hdistinct.filter (fits (blockCount image blockSize))
      exact ((List.mergeSort_perm _ _).pairwise_iff fun hpq => Ne.symm hpq).2 hkept
  -- what is kept was read, and has blocks that are all on the device
  have hmem : ∀ p ∈ table.partitions, Listed image blockSize table.format p ∧
      0 < p.count ∧ p.start + p.count ≤ blockCount image blockSize := fun p hp => by
    obtain ⟨hp, hfits⟩ := mem_of_ofPartitions hmade hp
    rw [hformat.1]
    exact ⟨hlisted p hp, (fits_iff hcount p).1 hfits⟩
  refine ⟨fun p hp => (hmem p hp).2, ?_, fun p hp => (hmem p hp).1.index_pos, hformat.2, ?_,
    fun p hp => (hmem p hp).1⟩
  · exact (apart_ofPartitions hmade hcount).imp fun hpq => hpq.not_covers
  · intro index
    by_cases hsome : ∃ p ∈ table.partitions, p.index = index
    · obtain ⟨p, hp, hindex⟩ := hsome
      have hfound := (partition?_eq_some_iff hformat.2).2 ⟨hp, hindex⟩
      refine Or.inl ⟨p, hp, hfound, hindex, ?_⟩
      intro q hq hqindex
      have hq := (partition?_eq_some_iff hformat.2).2 ⟨hq, hqindex⟩
      exact Option.some.inj (hq.symm.trans hfound)
    · have hnone : ∀ q ∈ table.partitions, q.index ≠ index :=
        fun q hq hindex => hsome ⟨q, hq, hindex⟩
      refine Or.inr ⟨List.find?_eq_none.2 fun q hq => ?_, hnone⟩
      simpa using hnone q hq

/-- A device of sixteen blocks with a primary in front of a container of two logicals, whose
records lie in blocks 1 and 2. -/
def dividedImage : Image where
  contents :=
    let primary := [0, 0, 0, 0, 0x83, 0, 0, 0, 3, 0, 0, 0, 2, 0, 0, 0]
    let container := [0, 0, 0, 0, 0x0F, 0, 0, 0, 1, 0, 0, 0, 15, 0, 0, 0]
    let logical := [0, 0, 0, 0, 0x83, 0, 0, 0, 6, 0, 0, 0, 4, 0, 0, 0]
    let link := [0, 0, 0, 0, 0x05, 0, 0, 0, 1, 0, 0, 0, 15, 0, 0, 0]
    let record (first second : List UInt8) :=
      List.replicate 446 0 ++ first ++ second ++ List.replicate 32 0 ++ [0x55, 0xAA]
    ⟨8192, (record primary container ++ record logical link).toArray⟩

/-- The primary and the logical of the device. -/
def dividedParts : List Partition := [⟨1, 3, 2, .classic 0x83⟩, ⟨5, 7, 4, .classic 0x83⟩]

theorem discover_sound_divided :
    discover dividedImage 512 false = .ok ⟨.classic, dividedParts⟩ ∧
      Sound dividedImage 512 ⟨.classic, dividedParts⟩ := by
  have hread : BootRecord.read dividedImage 512 = .ok (some dividedParts) := by decide +kernel
  have hplaced : placed (blockCount dividedImage 512) dividedParts = dividedParts :=
    List.mergeSort_of_pairwise (by decide)
  have hsorted : dividedParts.mergeSort (fun p q => decide (p.index ≤ q.index)) = dividedParts :=
    List.mergeSort_of_pairwise (by decide)
  have hmade : ofPartitions .classic dividedParts (blockCount dividedImage 512) =
      .ok ⟨.classic, dividedParts⟩ := by
    rw [ofPartitions, hplaced, hsorted]
    rfl
  have hfound := discover_of_read (by decide) hread hmade
  exact ⟨hfound, discover_sound (by decide +kernel) hfound⟩

end PartitionTable
end BlockMux
