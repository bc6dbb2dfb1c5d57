import BlockMux.Proofs.ExtendedChains
import BlockMux.Proofs.TableExactness

/-!
# What a classic table hands out

The type byte of an entry tells what it describes. Some bytes describe no partition: an empty entry,
a container of logical partitions, and the guard of a GUID table. The reader of the boot record
keeps to that for its four slots. The first entry of an extended record it takes for a logical
partition whatever its type is, as long as it is not empty.

Main statements:

* `ofNat_mem_reserved` — which entries describe no partition.
* `read_slots` — the partitions of a boot record, slot by slot.
* `classic_kinds` — which types the partitions of a classic table have, and that every first entry
  of an extended record is handed out.
* `containers_handedOut` — containers and guards are.
-/

namespace BlockMux

namespace BootRecord

/-- The types that describe no partition: none at all, containers, and the guard of a GUID table. -/
def reserved : List UInt8 := [0x00, 0x05, 0x0F, 0x85, 0xEE]

variable {image : Image} {blockSize : Nat} {record : List UInt8}

theorem kind_lt (record : List UInt8) (slot : Nat) : (entry record slot).kind < 256 :=
  LittleEndian.field_lt record _ 1

theorem ofNat_eq_iff {kind : Nat} (h : kind < 256) (type : UInt8) :
    UInt8.ofNat kind = type ↔ kind = type.toNat := by
  rw [← UInt8.toNat_inj, UInt8.toNat_ofNat', Nat.mod_eq_of_lt h]

theorem ofNat_mem_reserved {e : Entry} (h : e.kind < 256) :
    UInt8.ofNat e.kind ∈ reserved ↔
      e.kind = 0 ∨ e.isExtended = true ∨ e.isProtective = true := by
  simp only [reserved, List.mem_cons, List.not_mem_nil, or_false, ofNat_eq_iff h, Entry.isExtended,
    Entry.isProtective, Bool.or_eq_true, beq_iff_eq]
  show e.kind = 0 ∨ e.kind = 5 ∨ e.kind = 15 ∨ e.kind = 133 ∨ e.kind = 238 ↔ _
  omega

/-- The entry, with the block of its record, is a used first entry of the chain of a container. -/
def IsLogical (image : Image) (blockSize : Nat) (record : List UInt8) (l : Nat × Entry) : Prop :=
  ∃ slot < 4, IsContainer record slot ∧ l ∈ chainLogicals image blockSize (entry record slot).lba

theorem IsLogical.used {l : Nat × Entry} (h : IsLogical image blockSize record l) :
    l.2.isUsed = true ∧ l.2.kind < 256 := by
  obtain ⟨slot, -, -, hl⟩ := h
  obtain ⟨k, -, hk⟩ := List.mem_filterMap.1 hl
  obtain ⟨lba, -, hlba⟩ := Option.bind_eq_some_iff.1 hk
  unfold logicalAt? at hlba
  split at hlba
  · simp at hlba
  · rename_i found _
    split at hlba
    · rename_i hused
      obtain rfl := Option.some.inj hlba
      exact ⟨hused.2, kind_lt found 0⟩
    · simp at hlba

/-- The partitions that a boot record has, slot by slot. -/
theorem read_slots {ps : List Partition} (h : read image blockSize = .ok (some ps)) :
    ∃ record, Signed image blockSize 0 record ∧
      (∀ slot < 4, (entry record slot).isProtective = false) ∧
      ps = (List.range 4).flatMap (slotPartitions image blockSize record) := by
  obtain ⟨record, boot, hentries, hunguarded⟩ := read_eq_ok h
  have hbefore : ∀ earlier < 0, IsContainer record earlier → Ends image blockSize record earlier :=
    fun earlier hearlier => absurd hearlier (Nat.not_lt_zero earlier)
  have houtcome := readEntries_outcome 4 hbefore
  rw [show firstNumber image blockSize record 0 = firstLogical from rfl, hentries] at houtcome
  refine ⟨record, boot, hunguarded, ?_⟩
  rw [houtcome.2, List.range_eq_range']

/-- Where a partition of a slot comes from: the slot itself, which then is no container, or the
chain of the container that it is. -/
theorem mem_slotPartitions {slot : Nat} {p : Partition} :
    p ∈ slotPartitions image blockSize record slot ↔
      (¬IsContainer record slot ∧ (entry record slot).isUsed = true ∧
        p = (entry record slot).toPartition (slot + 1) 0) ∨
      (IsContainer record slot ∧
        p ∈ numberLogicals (firstNumber image blockSize record slot)
          (chainLogicals image blockSize (entry record slot).lba)) := by
  unfold slotPartitions
  by_cases hcontainer : IsContainer record slot
  · have hlogicals : slotLogicals image blockSize record slot =
        chainLogicals image blockSize (entry record slot).lba := if_pos hcontainer
    simp [hcontainer, hlogicals, ← numberLogicals_eq]
  · by_cases hused : (entry record slot).isUsed = true
    · simp [hcontainer, hused, Entry.toPartition]
    · simp [hcontainer, hused]

theorem firstNumber_ge (image : Image) (blockSize : Nat) (record : List UInt8) (slot : Nat) :
    firstLogical ≤ firstNumber image blockSize record slot := Nat.le_add_right _ _

/-- Every logical entry gets a number. -/
theorem exists_mem_numberLogicals (first : Nat) {logicals : List (Nat × Entry)} {l : Nat × Entry}
    (h : l ∈ logicals) :
    ∃ index, first ≤ index ∧ l.2.toPartition index l.1 ∈ numberLogicals first logicals := by
  induction logicals generalizing first with
  | nil => simp at h
  | cons m logicals ih =>
    rcases List.mem_cons.1 h with rfl | hlater
    · exact ⟨first, Nat.le_refl _, List.mem_cons_self⟩
    · obtain ⟨index, hindex, hmem⟩ := ih (first + 1) hlater
      exact ⟨index, Nat.le_of_succ_le hindex, List.mem_cons_of_mem _ hmem⟩

/-- Where a partition of the boot record comes from, and of what type it is. -/
theorem kinds_of_slots (hunguarded : ∀ slot < 4, (entry record slot).isProtective = false)
    {p : Partition} (hp : p ∈ (List.range 4).flatMap (slotPartitions image blockSize record)) :
    ∃ type, p.kind = .classic type ∧ type ≠ 0 ∧
      (p.index ≤ 4 ∧ type ∉ reserved ∨
        firstLogical ≤ p.index ∧
          ∃ l, IsLogical image blockSize record l ∧ p = l.2.toPartition p.index l.1) := by
  obtain ⟨slot, hslot, hp⟩ := List.mem_flatMap.1 hp
  have hslot := List.mem_range.1 hslot
  have hnonzero : ∀ {e : Entry}, e.kind < 256 → e.isUsed = true → UInt8.ofNat e.kind ≠ 0 := by
    intro e hlt hused heq
    have hzero : e.kind = 0 := (ofNat_eq_iff hlt 0).1 heq
    simp [Entry.isUsed, hzero] at hused
  rcases mem_slotPartitions.1 hp with ⟨hplain, hused, rfl⟩ | ⟨hcontainer, hnumbered⟩
  · -- a primary: the reader has looked at its type
    have hlt := kind_lt record slot
    refine ⟨_, rfl, hnonzero hlt hused, .inl ⟨Nat.succ_le_of_lt hslot, fun hreserved => ?_⟩⟩
    rcases (ofNat_mem_reserved hlt).1 hreserved with hzero | hextended | hprotective
    · simp [Entry.isUsed, hzero] at hused
    · exact hplain ⟨hused, hextended⟩
    · rw [hunguarded slot hslot] at hprotective
      simp at hprotective
  · obtain ⟨l, hl, hpl, hindex, -⟩ := mem_numberLogicals hnumbered
    have hlogical : IsLogical image blockSize record l := ⟨slot, hslot, hcontainer, hl⟩
    refine ⟨UInt8.ofNat l.2.kind, by rw [hpl]; rfl, hnonzero hlogical.used.2 hlogical.used.1,
      .inr ⟨Nat.le_trans (firstNumber_ge ..) hindex, l, hlogical, hpl⟩⟩

/-- The first entries of extended records are partitions, of whatever type they are. -/
theorem IsLogical.mem_slots {l : Nat × Entry} (h : IsLogical image blockSize record l) :
    ∃ index, firstLogical ≤ index ∧ l.2.toPartition index l.1 ∈
      (List.range 4).flatMap (slotPartitions image blockSize record) := by
  obtain ⟨slot, hslot, hcontainer, hl⟩ := h
  obtain ⟨index, hindex, hmem⟩ :=
    exists_mem_numberLogicals (firstNumber image blockSize record slot) hl
  refine ⟨index, Nat.le_trans (firstNumber_ge ..) hindex, List.mem_flatMap.2 ⟨slot, ?_, ?_⟩⟩
  · exact List.mem_range.2 hslot
  · exact mem_slotPartitions.2 (.inr ⟨hcontainer, hmem⟩)

end BootRecord

namespace PartitionTable

open BlockMux.BootRecord

theorem fits_of_le {blockCount : Nat} {p : Partition} (hcount : 1 ≤ p.count)
    (hstop : p.start + p.count ≤ blockCount) : fits blockCount p = true := by
  have hsat : p.stop ≤ p.start + p.count := satAdd_le _ _
  rw [fits, Bool.and_eq_true, decide_eq_true_eq, decide_eq_true_eq]
  exact ⟨hcount, Nat.le_trans hsat hstop⟩

/-- A primary of a classic table is of a type that describes a partition. A logical partition is a
used first entry of an extended record, of any type but the empty one; and all of these that lie
on the device are handed out. -/
theorem classic_kinds {image : Image} {blockSize : Nat} {useGpt : Bool} {table : PartitionTable}
    (h : discover image blockSize useGpt = .ok table) (hclassic : table.format = .classic) :
    ∃ record, Signed image blockSize 0 record ∧
      (∀ p ∈ table.partitions, ∃ type, p.kind = .classic type ∧ type ≠ 0 ∧
        (p.index ≤ 4 ∧ type ∉ reserved ∨
          firstLogical ≤ p.index ∧
            ∃ l, IsLogical image blockSize record l ∧ p = l.2.toPartition p.index l.1)) ∧
      ∀ l, IsLogical image blockSize record l →
        l.1 + l.2.lba + l.2.sectors ≤ image.contents.size / blockSize →
          ∃ index, firstLogical ≤ index ∧ l.2.toPartition index l.1 ∈ table.partitions := by
  obtain ⟨-, format, ps, hmade, hread⟩ := discover_cases h
  obtain ⟨hformat, hmem⟩ := ofPartitions_mem hmade
  rcases hread with ⟨-, hread⟩ | ⟨hgpt, -, -⟩
  · obtain ⟨record, boot, hunguarded, rfl⟩ := read_slots hread
    refine ⟨record, boot, fun p hp => kinds_of_slots hunguarded ((hmem p).1 hp).1, ?_⟩
    intro l hl hstop
    obtain ⟨index, hindex, hlisted⟩ := hl.mem_slots
    have hsectors : 1 ≤ l.2.sectors := by
      have hused := hl.used.1
      simp only [Entry.isUsed, Bool.and_eq_true, bne_iff_ne] at hused
      omega
    exact ⟨index, hindex, (hmem _).2 ⟨hlisted, fits_of_le hsectors hstop⟩⟩
  · rw [hformat, hgpt] at hclassic
    simp at hclassic

/-- A device of eight blocks that one container covers. Its two extended records, in blocks 1 and 2,
describe a container of one block and a guard of another. -/
def nestedImage : Image where
  contents :=
    let container := [0, 0, 0, 0, 0x05, 0, 0, 0, 1, 0, 0, 0, 7, 0, 0, 0]
    let inner := [0, 0, 0, 0, 0x0F, 0, 0, 0, 4, 0, 0, 0, 1, 0, 0, 0]
    let link := [0, 0, 0, 0, 0x05, 0, 0, 0, 1, 0, 0, 0, 7, 0, 0, 0]
    let guard := [0, 0, 0, 0, 0xEE, 0, 0, 0, 4, 0, 0, 0, 1, 0, 0, 0]
    let blank := List.replicate 16 0
    let record (first second : List UInt8) :=
      List.replicate 446 0 ++ first ++ second ++ List.replicate 32 0 ++ [0x55, 0xAA]
    ⟨4096, (record container blank ++ record inner link ++ record guard blank).toArray⟩

/-- What is handed out of it. -/
def nestedTable : PartitionTable := ⟨.classic, [⟨5, 5, 1, .classic 0x0F⟩, ⟨6, 6, 1, .classic 0xEE⟩]⟩

theorem discover_nested : discover nestedImage 512 false = .ok nestedTable := by
  have hread : BootRecord.read nestedImage 512 = .ok (some nestedTable.partitions) := by
    decide +kernel
  have hmade : ofPartitions .classic nestedTable.partitions (blockCount nestedImage 512) =
      .ok nestedTable :=
    ofPartitions_of_increasing (by decide) (by decide) (by decide) (by decide)
  exact discover_of_read (by decide) hread hmade

theorem classic_kinds_nested :
    discover nestedImage 512 false = .ok nestedTable ∧
      ∃ record, Signed nestedImage 512 0 record ∧
        ∀ p ∈ nestedTable.partitions, ∃ type, p.kind = .classic type ∧ type ≠ 0 ∧
          ∃ l, IsLogical nestedImage 512 record l ∧ p = l.2.toPartition p.index l.1 := by
  obtain ⟨record, boot, hkinds, -⟩ := classic_kinds discover_nested rfl
  have hindices : ∀ p ∈ nestedTable.partitions, ¬p.index ≤ 4 := by decide
  refine ⟨discover_nested, record, boot, fun p hp => ?_⟩
  obtain ⟨type, hkind, hzero, hplace⟩ := hkinds p hp
  rcases hplace with ⟨hprimary, -⟩ | ⟨-, hlogical⟩
  · exact absurd hprimary (hindices p hp)
  · exact ⟨type, hkind, hzero, hlogical⟩

/-- Containers and guards are handed out as logical partitions. -/
theorem containers_handedOut :
    ¬∀ (image : Image) (blockSize : Nat) (useGpt : Bool) (table : PartitionTable),
      512 ≤ blockSize → discover image blockSize useGpt = .ok table → table.format = .classic →
        ∀ p ∈ table.partitions, ∃ type, p.kind = .classic type ∧ type ∉ reserved := by
  intro h
  obtain ⟨type, hkind, hplain⟩ := h nestedImage 512 false nestedTable (by decide) discover_nested
    rfl ⟨5, 5, 1, .classic 0x0F⟩ (by decide)
  obtain rfl := PartitionKind.classic.inj hkind
  exact hplain (by decide)

end PartitionTable
end BlockMux
