import BlockMux.Proofs.PartitionOrder
import Mathlib.Data.List.Sort

/-!
# Tables are made exactly

Which partitions of a list a table takes, and when there is no table, can be said without the sort
and the scan that make it: a table takes what is not empty and lies on the device, and exists
unless two of those share a block. The scan only ever compares neighbours in the order of first
blocks, and saturated ends with saturated ends.

Main statements:

* `sharesBlock_iff_overlaps` — of partitions that fit, the comparison of a table is exact.
* `firstClash?_eq_none_iff` — neighbours are enough: there is no clash exactly when no two
  partitions share a block.
* `ofPartitions_of_increasing` — a list that is already sound and in order becomes the table as it
  stands.
* `ofPartitions_exact` — when a table is made, what it holds, and what an error names.
-/

namespace BlockMux

namespace Partition

/-- Whether some block belongs to both partitions. -/
def SharesBlock (p q : Partition) : Prop := ∃ block, p.Covers block ∧ q.Covers block

theorem SharesBlock.symm {p q : Partition} (h : p.SharesBlock q) : q.SharesBlock p :=
  let ⟨block, hp, hq⟩ := h
  ⟨block, hq, hp⟩

/-- Two runs meet where the later one starts, if they meet at all. -/
theorem sharesBlock_iff (p q : Partition) :
    p.SharesBlock q ↔
      max p.start q.start < min (p.start + p.count) (q.start + q.count) := by
  constructor
  · rintro ⟨block, ⟨hp, hp'⟩, hq, hq'⟩
    omega
  · intro h
    refine ⟨max p.start q.start, ⟨?_, ?_⟩, ?_, ?_⟩
    · omega
    · omega
    · omega
    · omega

instance (p q : Partition) : Decidable (p.SharesBlock q) :=
  decidable_of_iff _ (sharesBlock_iff p q).symm

end Partition

namespace PartitionTable

open BlockMux.Partition

/-- The partitions of a list that have a block and end on a device of `blockCount` blocks. -/
def admitted (blockCount : Nat) (ps : List Partition) : List Partition :=
  ps.filter fun p => 1 ≤ p.count ∧ p.start + p.count ≤ blockCount

theorem mem_admitted {blockCount : Nat} {ps : List Partition} {p : Partition} :
    p ∈ admitted blockCount ps ↔ p ∈ ps ∧ 1 ≤ p.count ∧ p.start + p.count ≤ blockCount := by
  simp [admitted]

theorem admitted_admitted (blockCount : Nat) (ps : List Partition) :
    admitted blockCount (admitted blockCount ps) = admitted blockCount ps :=
  List.filter_eq_self.2 fun p hp => by simpa [admitted] using (mem_admitted.1 hp).2

/-- The saturated ends that the table looks at choose the same partitions. -/
theorem filter_fits {blockCount : Nat} (hcount : blockCount < maxWord) (ps : List Partition) :
    ps.filter (fits blockCount) = admitted blockCount ps := by
  refine List.filter_congr fun p _ => ?_
  rw [Bool.eq_iff_iff, fits_iff hcount, decide_eq_true_iff, Nat.succ_le_iff]

theorem placed_perm {blockCount : Nat} (hcount : blockCount < maxWord) (ps : List Partition) :
    (placed blockCount ps).Perm (admitted blockCount ps) := by
  rw [placed, filter_fits hcount]
  exact List.mergeSort_perm _ _

theorem sharesBlock_iff_overlaps {blockCount : Nat} (hcount : blockCount < maxWord)
    {p q : Partition} (hp : fits blockCount p = true) (hq : fits blockCount q = true) :
    p.SharesBlock q ↔ p.overlaps q = true := by
  have hp' := (fits_iff hcount p).1 hp
  have hq' := (fits_iff hcount q).1 hq
  rw [sharesBlock_iff, Partition.overlaps, stop_of_fits hcount hp, stop_of_fits hcount hq,
    Bool.and_eq_true, decide_eq_true_eq, decide_eq_true_eq]
  omega

/-! ## Clashes -/

/-- A clash is one of neighbours that overlap. -/
theorem firstClash?_eq_some {ps : List Partition} {p q : Partition}
    (h : firstClash? ps = some (p, q)) :
    p.overlaps q = true ∧ ∃ before after, ps = before ++ p :: q :: after := by
  fun_induction firstClash? ps with
  | case1 a b rest hoverlaps =>
    obtain ⟨rfl, rfl⟩ := Prod.mk.inj (Option.some.inj h)
    exact ⟨hoverlaps, [], rest, rfl⟩
  | case2 a b rest hno ih =>
    obtain ⟨hoverlaps, before, after, heq⟩ := ih h
    exact ⟨hoverlaps, a :: before, after, by rw [heq, List.cons_append]⟩
  | case3 => simp at h

/-- A clash names two members of the list that share a block. -/
theorem firstClash?_members {blockCount : Nat} (hcount : blockCount < maxWord)
    {ps : List Partition} {p q : Partition}
    (h : firstClash? (placed blockCount ps) = some (p, q)) :
    p.SharesBlock q ∧ ∃ others, (admitted blockCount ps).Perm (p :: q :: others) := by
  obtain ⟨hoverlaps, before, after, heq⟩ := firstClash?_eq_some h
  have hfits : ∀ r ∈ placed blockCount ps, fits blockCount r = true :=
    fun r hr => (mem_placed.1 hr).2
  rw [heq] at hfits
  refine ⟨?_, before ++ after, ?_⟩
  · exact (sharesBlock_iff_overlaps hcount (hfits p (by simp)) (hfits q (by simp))).2 hoverlaps
  · have hmiddle : (before ++ p :: q :: after).Perm (p :: q :: (before ++ after)) :=
      List.perm_middle.trans (List.perm_middle.cons p)
    exact (placed_perm hcount ps).symm.trans (heq ▸ hmiddle)

theorem firstClash?_eq_none_iff {blockCount : Nat} (hcount : blockCount < maxWord)
    (ps : List Partition) :
    firstClash? (placed blockCount ps) = none ↔
      (admitted blockCount ps).Pairwise fun p q => ¬p.SharesBlock q := by
  constructor
  · -- without a clash the partitions stand one behind the other, so no two share a block
    intro hclash
    have hplaced : (placed blockCount ps).Pairwise fun p q => ¬p.SharesBlock q :=
      (ordered_placed hcount hclash).imp fun {p q} hbefore => by
        rintro ⟨block, hp, hq⟩
        exact Apart.not_covers (Or.inl hbefore) block ⟨hp, hq⟩
    exact ((placed_perm hcount ps).pairwise_iff fun h hqp => h hqp.symm).1 hplaced
  · intro hapart
    cases hclash : firstClash? (placed blockCount ps) with
    | none => rfl
    | some pair =>
      -- the neighbours that clash are two members of the list
      obtain ⟨hshares, others, hperm⟩ := firstClash?_members (p := pair.1) (q := pair.2) hcount hclash
      have hpair := (hperm.pairwise_iff fun h hqp => h hqp.symm).1 hapart
      exact absurd hshares ((List.pairwise_cons.1 hpair).1 pair.2 (List.mem_cons_self ..))

/-! ## Tables -/

theorem ofPartitions_eq_ok_iff {format : TableFormat} {ps : List Partition} {blockCount : Nat}
    (hcount : blockCount < maxWord) {table : PartitionTable} :
    ofPartitions format ps blockCount = .ok table ↔
      ((admitted blockCount ps).Pairwise fun p q => ¬p.SharesBlock q) ∧
        table = ⟨format, (placed blockCount ps).mergeSort fun p q => p.index ≤ q.index⟩ := by
  rw [← firstClash?_eq_none_iff hcount, ofPartitions]
  cases firstClash? (placed blockCount ps) with
  | none => simp [eq_comm]
  | some pair => simp

theorem ofPartitions_eq_error_iff {format : TableFormat} {ps : List Partition} {blockCount : Nat}
    {e : TableError} :
    ofPartitions format ps blockCount = .error e ↔
      ∃ p q, firstClash? (placed blockCount ps) = some (p, q) ∧
        e = .overlap p.index q.index := by
  rw [ofPartitions]
  cases firstClash? (placed blockCount ps) with
  | none => simp
  | some pair =>
    obtain ⟨p, q⟩ := pair
    constructor
    · intro h
      exact ⟨p, q, rfl, (Except.error.inj h).symm⟩
    · rintro ⟨p', q', heq, rfl⟩
      obtain ⟨rfl, rfl⟩ := Prod.mk.inj (Option.some.inj heq)
      rfl

/-- What a table holds is the admitted part of the list, put in the order of indices. -/
theorem ofPartitions_holds {format : TableFormat} {ps : List Partition} {blockCount : Nat}
    (hcount : blockCount < maxWord) {table : PartitionTable}
    (h : ofPartitions format ps blockCount = .ok table) :
    table.format = format ∧ table.partitions.Perm (admitted blockCount ps) ∧
      table.partitions.Pairwise fun p q => p.index ≤ q.index := by
  obtain ⟨-, rfl⟩ := (ofPartitions_eq_ok_iff hcount).1 h
  refine ⟨rfl, ?_, sorted_mergeSort Partition.index _⟩
  exact (List.mergeSort_perm _ _).trans (placed_perm hcount ps)

/-- Where no two partitions have the same index, only one order is that of the indices. -/
theorem eq_of_perm_of_ordered {ps qs : List Partition} (hperm : ps.Perm qs)
    (hdistinct : ps.Pairwise fun p q => p.index ≠ q.index)
    (hps : ps.Pairwise fun p q => p.index ≤ q.index)
    (hqs : qs.Pairwise fun p q => p.index ≤ q.index) : ps = qs := by
  have : Std.Symm fun p q : Partition => p.index ≠ q.index := ⟨fun _ _ => Ne.symm⟩
  refine hperm.eq_of_pairwise (fun p q hp hq hpq hqp => ?_) hps hqs
  by_contra hne
  exact hdistinct.forall hp (hperm.mem_iff.2 hq) hne (Nat.le_antisymm hpq hqp)

/-- A list in the order of indices, all of it on the device and without common blocks, is the
table that is made of it. -/
theorem ofPartitions_of_increasing {format : TableFormat} {ps : List Partition} {blockCount : Nat}
    (hcount : blockCount < maxWord)
    (hinside : ∀ p ∈ ps, 1 ≤ p.count ∧ p.start + p.count ≤ blockCount)
    (hapart : ps.Pairwise fun p q => ¬p.SharesBlock q)
    (hincreasing : ps.Pairwise fun p q => p.index < q.index) :
    ofPartitions format ps blockCount = .ok ⟨format, ps⟩ := by
  have hall : admitted blockCount ps = ps :=
    List.filter_eq_self.2 fun p hp => by simpa using hinside p hp
  obtain ⟨table, htable⟩ : ∃ table, ofPartitions format ps blockCount = .ok table :=
    ⟨_, (ofPartitions_eq_ok_iff hcount).2 ⟨by rwa [hall], rfl⟩⟩
  obtain ⟨hformat, hperm, hordered⟩ := ofPartitions_holds hcount htable
  rw [hall] at hperm
  have hpartitions : ps = table.partitions :=
    eq_of_perm_of_ordered hperm.symm (hincreasing.imp Nat.ne_of_lt)
      (hincreasing.imp Nat.le_of_lt) hordered
  rw [htable, ← hformat, hpartitions]

/-- With distinct indices the order of the list does not matter. -/
theorem ofPartitions_perm {format : TableFormat} {ps qs : List Partition} {blockCount : Nat}
    (hcount : blockCount < maxWord) (hperm : qs.Perm ps)
    (hdistinct : ps.Pairwise fun p q => p.index ≠ q.index) {table : PartitionTable}
    (h : ofPartitions format ps blockCount = .ok table) :
    ofPartitions format qs blockCount = .ok table := by
  have hadmitted : (admitted blockCount qs).Perm (admitted blockCount ps) := hperm.filter _
  have hapart := ((ofPartitions_eq_ok_iff hcount).1 h).1
  have hapart' : (admitted blockCount qs).Pairwise fun p q => ¬p.SharesBlock q :=
    (hadmitted.pairwise_iff fun h hqp => h hqp.symm).2 hapart
  obtain ⟨table', h'⟩ : ∃ table', ofPartitions format qs blockCount = .ok table' :=
    ⟨_, (ofPartitions_eq_ok_iff hcount).2 ⟨hapart', rfl⟩⟩
  obtain ⟨hformat, hholds, hordered⟩ := ofPartitions_holds hcount h
  obtain ⟨hformat', hholds', hordered'⟩ := ofPartitions_holds hcount h'
  -- both tables hold the same partitions, in the only order that their indices leave
  have hsame : table.partitions.Perm table'.partitions :=
    hholds.trans (hadmitted.symm.trans hholds'.symm)
  have hindices : table.partitions.Pairwise fun p q => p.index ≠ q.index :=
    (hholds.pairwise_iff Ne.symm).2 (hdistinct.filter _)
  have hpartitions := eq_of_perm_of_ordered hsame hindices hordered hordered'
  have htables : table' = table := by
    cases table
    cases table'
    simp_all
  rw [h', htables]

/-- The admitted partitions of a list alone decide whether a table is made of it: it is unless two
of them share a block, and an error names two that do. The table holds them all in the order of
their indices. -/
theorem ofPartitions_exact (format : TableFormat) (ps : List Partition) {blockCount : Nat}
    (hcount : blockCount < maxWord) :
    ((∃ table, ofPartitions format ps blockCount = .ok table) ↔
      (admitted blockCount ps).Pairwise fun p q => ¬p.SharesBlock q) ∧
    (∀ table, ofPartitions format ps blockCount = .ok table →
      table.format = format ∧ table.partitions.Perm (admitted blockCount ps) ∧
        table.partitions.Pairwise fun p q => p.index ≤ q.index) ∧
    (∀ e, ofPartitions format ps blockCount = .error e →
      ∃ p q others, (admitted blockCount ps).Perm (p :: q :: others) ∧ p.SharesBlock q ∧
        e = .overlap p.index q.index) ∧
    ofPartitions format ps blockCount = ofPartitions format (admitted blockCount ps) blockCount ∧
    ((ps.Pairwise fun p q => p.index ≠ q.index) → ∀ qs, qs.Perm ps → ∀ table,
      (ofPartitions format ps blockCount = .ok table ↔
        ofPartitions format qs blockCount = .ok table)) := by
  refine ⟨?_, fun table h => ofPartitions_holds hcount h, ?_, ?_, ?_⟩
  · constructor
    · rintro ⟨table, h⟩
      exact ((ofPartitions_eq_ok_iff hcount).1 h).1
    · intro hapart
      exact ⟨_, (ofPartitions_eq_ok_iff hcount).2 ⟨hapart, rfl⟩⟩
  · intro e h
    obtain ⟨p, q, hclash, rfl⟩ := ofPartitions_eq_error_iff.1 h
    obtain ⟨hshares, others, hperm⟩ := firstClash?_members hcount hclash
    exact ⟨p, q, others, hperm, hshares, rfl⟩
  · have hplaced : placed blockCount (admitted blockCount ps) = placed blockCount ps := by
      rw [placed, placed, filter_fits hcount, filter_fits hcount, admitted_admitted]
    rw [ofPartitions, ofPartitions, hplaced]
  · intro hdistinct qs hqs table
    refine ⟨ofPartitions_perm hcount hqs hdistinct, ofPartitions_perm hcount hqs.symm ?_⟩
    exact (hqs.pairwise_iff Ne.symm).2 hdistinct

/-- Partitions of a device of ten blocks, out of order. The second one is empty, the fourth one
reaches beyond the device, and the end of the last one exceeds a word. -/
def crowd : List Partition :=
  [⟨4, 6, 3, .classic 0x83⟩, ⟨2, 1, 0, .classic 0x83⟩, ⟨3, 4, 2, .classic 0x07⟩,
    ⟨9, 8, 5, .classic 0x83⟩, ⟨1, 0, 4, .classic 0x0C⟩, ⟨7, maxWord, maxWord, .classic 0x83⟩]

/-- Those that fit, in the order of their indices. -/
def settled : List Partition :=
  [⟨1, 0, 4, .classic 0x0C⟩, ⟨3, 4, 2, .classic 0x07⟩, ⟨4, 6, 3, .classic 0x83⟩]

theorem ofPartitions_exact_crowd :
    10 < maxWord ∧ ofPartitions .classic crowd 10 = .ok ⟨.classic, settled⟩ := by
  refine ⟨by decide, ?_⟩
  obtain ⟨hmade, hholds, -, -, -⟩ := ofPartitions_exact .classic crowd (by decide : 10 < maxWord)
  obtain ⟨table, htable⟩ := hmade.2 (by decide)
  obtain ⟨hformat, hperm, hordered⟩ := hholds table htable
  have hsettled : (admitted 10 crowd).Perm settled := by decide
  have hpartitions : settled = table.partitions :=
    eq_of_perm_of_ordered (hperm.trans hsettled).symm (by decide) (by decide) hordered
  rw [htable, ← hformat, hpartitions]

end PartitionTable
end BlockMux
