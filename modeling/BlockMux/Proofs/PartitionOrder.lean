import BlockMux.Disk.Table
import Mathlib.Data.List.Pairwise

/-!
# The order of partitions

A table is checked by sorting its partitions by their first blocks and comparing neighbours. No
partition is empty, so where no neighbours clash every partition ends before the next one starts,
and no two partitions share a block.

Main statements:

* `stopsBefore_placed` — without a clash, each partition ends before every later one starts, as far
  as words can tell.
* `fits_iff_of_le`, `fits_iff` — what fits on a device; below the word limit, it is what ends there
  in exact numbers.
* `ordered_placed` — below the word limit, words can tell.
* `apart_partition?` — partitions of one table with different indices share no block.
-/

namespace BlockMux

namespace Partition

/-- Whether a block belongs to the partition. -/
def Covers (p : Partition) (block : Nat) : Prop := p.start ≤ block ∧ block < p.start + p.count

/-- Whether the partition ends before the other one starts, where an end that is no word is taken to
be the last word. -/
def StopsBefore (p q : Partition) : Prop := p.stop ≤ q.start

/-- Whether the partition ends before the other one starts. -/
def Before (p q : Partition) : Prop := p.start + p.count ≤ q.start

/-- Whether one of the two partitions ends before the other one starts. -/
def Apart (p q : Partition) : Prop := p.Before q ∨ q.Before p

instance : Std.Symm Apart := ⟨fun _ _ h => Or.symm h⟩

theorem Apart.not_covers {p q : Partition} (h : p.Apart q) (block : Nat) :
    ¬(p.Covers block ∧ q.Covers block) := by
  rintro ⟨⟨hp, hp'⟩, hq, hq'⟩
  rcases h with h | h
  · unfold Before at h
    omega
  · unfold Before at h
    omega

end Partition

namespace PartitionTable

open BlockMux.Partition

/-- The end of a partition is compared as far as words can tell: for the largest number of blocks
it does not count. -/
theorem fits_iff_of_le {blockCount : Nat} (hblocks : blockCount ≤ maxWord) (p : Partition) :
    fits blockCount p = true ↔
      0 < p.count ∧ (p.start + p.count ≤ blockCount ∨ blockCount = maxWord) := by
  rw [fits, Bool.and_eq_true, decide_eq_true_eq, decide_eq_true_eq, stop, satAdd]
  -- the saturated end equals the exact one unless it passes the limit
  omega

theorem fits_iff {blockCount : Nat} (hcount : blockCount < maxWord) (p : Partition) :
    fits blockCount p = true ↔ 0 < p.count ∧ p.start + p.count ≤ blockCount := by
  rw [fits_iff_of_le (Nat.le_of_lt hcount), or_iff_left (Nat.ne_of_lt hcount)]

/-- A partition that fits ends where the table takes it to end. -/
theorem stop_of_fits {blockCount : Nat} (hcount : blockCount < maxWord) {p : Partition}
    (h : fits blockCount p = true) : p.stop = p.start + p.count := by
  have hexact := ((fits_iff hcount p).1 h).2
  exact satAdd_eq_of_le (by omega)

/-- Sorting by a number of each partition orders all pairs by it. -/
theorem sorted_mergeSort (key : Partition → Nat) (ps : List Partition) :
    (ps.mergeSort fun p q => key p ≤ key q).Pairwise fun p q => key p ≤ key q := by
  have htrans : ∀ p q r : Partition, decide (key p ≤ key q) = true →
      decide (key q ≤ key r) = true → decide (key p ≤ key r) = true := by
    intro p q r hpq hqr
    rw [decide_eq_true_eq] at hpq hqr ⊢
    omega
  have htotal : ∀ p q : Partition,
      (decide (key p ≤ key q) || decide (key q ≤ key p)) = true := by
    intro p q
    rw [Bool.or_eq_true, decide_eq_true_eq, decide_eq_true_eq]
    omega
  refine (List.pairwise_mergeSort htrans htotal _).imp fun hpq => ?_
  exact of_decide_eq_true hpq

theorem sorted_placed (blockCount : Nat) (ps : List Partition) :
    (placed blockCount ps).Pairwise fun p q => p.start ≤ q.start :=
  sorted_mergeSort Partition.start _

/-- Neighbours that do not clash stand one behind the other. -/
theorem isChain_of_firstClash? {ps : List Partition}
    (hsorted : ps.Pairwise fun p q => p.start ≤ q.start) (hpos : ∀ p ∈ ps, 0 < p.count)
    (hclash : firstClash? ps = none) : ps.IsChain StopsBefore := by
  induction ps with
  | nil => exact .nil
  | cons p ps ih =>
    cases ps with
    | nil => exact .singleton p
    | cons q ps =>
      rw [firstClash?] at hclash
      split at hclash
      · simp at hclash
      · rename_i hno
        have hle : p.start ≤ q.start := (List.pairwise_cons.1 hsorted).1 q (by simp)
        -- an empty neighbour could lie inside the other one without a clash
        have hqpos : 0 < q.count := hpos q (by simp)
        have hbefore : p.StopsBefore q := by
          rw [Partition.overlaps, Bool.and_eq_true, decide_eq_true_eq, decide_eq_true_eq] at hno
          unfold StopsBefore
          unfold stop satAdd at hno ⊢
          omega
        refine .cons_cons hbefore (ih (List.pairwise_cons.1 hsorted).2 ?_ hclash)
        exact fun r hr => hpos r (List.mem_cons_of_mem p hr)

/-- Whatever the number of blocks, partitions without a clash stand one behind the other. -/
theorem stopsBefore_placed {blockCount : Nat} {ps : List Partition}
    (hclash : firstClash? (placed blockCount ps) = none) :
    (placed blockCount ps).Pairwise StopsBefore := by
  -- a start behind the last word is behind every end, so a chain of neighbours orders all pairs
  have : IsTrans Partition StopsBefore :=
    ⟨fun p q r hpq hqr => by unfold StopsBefore stop satAdd at *; omega⟩
  have hpos : ∀ p ∈ placed blockCount ps, 0 < p.count := fun p hp => by
    have hfits := (mem_placed.1 hp).2
    rw [fits, Bool.and_eq_true, decide_eq_true_eq] at hfits
    exact hfits.1
  exact List.isChain_iff_pairwise.1
    (isChain_of_firstClash? (sorted_placed blockCount ps) hpos hclash)

theorem ordered_placed {blockCount : Nat} (hcount : blockCount < maxWord) {ps : List Partition}
    (hclash : firstClash? (placed blockCount ps) = none) :
    (placed blockCount ps).Pairwise Before := by
  refine (stopsBefore_placed hclash).imp_of_mem fun {p q} hp _ hbefore => ?_
  unfold Before
  rwa [StopsBefore, stop_of_fits hcount (mem_placed.1 hp).2] at hbefore

/-- A table holds what was placed without a clash. -/
theorem ofPartitions_eq_ok {format : TableFormat} {ps : List Partition} {blockCount : Nat}
    {table : PartitionTable} (h : ofPartitions format ps blockCount = .ok table) :
    table.format = format ∧ firstClash? (placed blockCount ps) = none ∧
      table.partitions.Perm (placed blockCount ps) := by
  unfold ofPartitions at h
  split at h
  · simp at h
  · rename_i hclash
    obtain rfl := Except.ok.inj h
    exact ⟨rfl, hclash, List.mergeSort_perm _ _⟩

/-- A table holds what fits on the device, and nothing else. -/
theorem ofPartitions_mem {format : TableFormat} {ps : List Partition} {blockCount : Nat}
    {table : PartitionTable} (h : ofPartitions format ps blockCount = .ok table) :
    table.format = format ∧
      ∀ p, p ∈ table.partitions ↔ p ∈ ps ∧ fits blockCount p = true := by
  obtain ⟨hformat, -, hperm⟩ := ofPartitions_eq_ok h
  exact ⟨hformat, fun p => hperm.mem_iff.trans mem_placed⟩

/-- The partitions of a table share no block. -/
theorem apart_ofPartitions {format : TableFormat} {ps : List Partition} {blockCount : Nat}
    {table : PartitionTable} (h : ofPartitions format ps blockCount = .ok table)
    (hcount : blockCount < maxWord) : table.partitions.Pairwise Apart := by
  obtain ⟨-, hclash, hperm⟩ := ofPartitions_eq_ok h
  -- sorting by index does not matter: being apart is symmetric
  refine (hperm.pairwise_iff (Std.Symm.symm _ _)).2 ?_
  exact (ordered_placed hcount hclash).imp Or.inl

theorem partition?_mem {table : PartitionTable} {index : Nat} {p : Partition}
    (h : table.partition? index = some p) : p ∈ table.partitions ∧ p.index = index := by
  have hindex := List.find?_some h
  exact ⟨List.mem_of_find?_eq_some h, by simpa using hindex⟩

theorem apart_partition? {format : TableFormat} {ps : List Partition} {blockCount : Nat}
    {table : PartitionTable} (h : ofPartitions format ps blockCount = .ok table)
    (hcount : blockCount < maxWord) {i j : Nat} {p q : Partition}
    (hi : table.partition? i = some p) (hj : table.partition? j = some q) (hij : i ≠ j) :
    p.Apart q := by
  obtain ⟨hp, rfl⟩ := partition?_mem hi
  obtain ⟨hq, rfl⟩ := partition?_mem hj
  have hne : p ≠ q := fun heq => hij (by rw [heq])
  exact (apart_ofPartitions h hcount).forall hp hq hne

end PartitionTable
end BlockMux
