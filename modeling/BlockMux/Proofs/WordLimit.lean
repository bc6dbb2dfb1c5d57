import BlockMux.Proofs.GrantExactness
import BlockMux.Proofs.TableExactness

/-!
# Tables at the word limit

A table compares ends that stick at the largest word. For every number of blocks but one these tell
all there is to tell, and what the table keeps lies on the device. The one number is the largest
word itself: an end that sticks there passes for the end of the device, however far behind it the
partition goes. Every partition that is not empty is kept, two of them may share blocks behind the
device, and a client may ask for a block whose number is no word any more: the sum that names it
stops the program.

Main statements:

* `shared_behind` — where two partitions of one table can share a block.
* `Partition.Overruns`, `Partition.overruns_iff` — the partitions from which a client may ask for a
  block whose number is no word.
* `limit_exact` — what is left of the bounds of a table and of its grants at the limit, and that
  nothing of them is lost below it.
* `limit_overrun` — a table at the limit that breaks all the bounds.
-/

namespace BlockMux

/-! ## First blocks -/

namespace Partition

/-- Some request makes the sum of the start and its offset overflow. -/
def Overruns (p : Partition) : Prop :=
  ∃ request : WindowRequest, request.offset ≤ maxWord ∧
    request.within p.start p.count = .error .overflow

/-- The first block that is no word is the one behind the largest word. -/
theorem overruns_iff {p : Partition} (hstart : p.start ≤ maxWord) (hcount : p.count ≤ maxWord) :
    p.Overruns ↔ maxWord + 1 < p.start + p.count := by
  constructor
  · rintro ⟨request, -, hoverflow⟩
    obtain ⟨⟨hoffset, -⟩, hlarge⟩ := WindowRequest.within_eq_overflow_iff.1 hoverflow
    omega
  · intro hstop
    -- the request for all blocks from that one on
    refine ⟨⟨maxWord + 1 - p.start, 0, true, true, none⟩, ?_,
      WindowRequest.within_eq_overflow_iff.2 ⟨⟨?_, Nat.zero_le _⟩, ?_⟩⟩
    · dsimp only
      omega
    · dsimp only
      omega
    · dsimp only
      omega

/-- What a word keeps of a sum that is too large is a block in front of the partition. -/
theorem wrapped_lt {p : Partition} {offset : Nat} (hoffset : offset ≤ maxWord)
    (hlarge : maxWord < p.start + offset) : (p.start + offset) % (maxWord + 1) < p.start := by
  rw [Nat.mod_eq_sub_mod hlarge]
  refine Nat.lt_of_le_of_lt (Nat.mod_le _ _) ?_
  omega

end Partition

namespace PartitionTable

open BlockMux.Partition

/-! ## Common blocks -/

/-- A block that two partitions have in common lies behind all ends that are words. -/
theorem shared_behind {p q : Partition} (h : p.StopsBefore q) {block : Nat} (hp : p.Covers block)
    (hq : q.Covers block) : maxWord ≤ block := by
  obtain ⟨-, hp⟩ := hp
  obtain ⟨hq, -⟩ := hq
  unfold StopsBefore stop satAdd at h
  omega

theorem pairwise_shared_behind {format : TableFormat} {ps : List Partition} {blockCount : Nat}
    {table : PartitionTable} (h : ofPartitions format ps blockCount = .ok table) :
    table.partitions.Pairwise fun p q => ∀ block, p.Covers block → q.Covers block →
      maxWord ≤ block := by
  obtain ⟨-, hclash, hperm⟩ := ofPartitions_eq_ok h
  refine (hperm.pairwise_iff fun hpq block hq hp => hpq block hp hq).2 ?_
  exact (stopsBefore_placed hclash).imp fun hbefore block => shared_behind hbefore

/-! ## The limit -/

/-- Suppose that the number of blocks and those of the partitions are words. A partition is kept if
it is not empty and ends on the device; for the largest number of blocks it need not end there. Two
that are kept share no block, but for blocks behind the device where there are that many. Only there
is a partition from which a client may ask for a block whose number is no word. Whatever is asked of
a partition, and on whatever device: the sum of its start and the offset overflows exactly if both
checks against the partition are passed and the sum is no word, which happens only there too, and
what a word keeps of the sum lies in front of the partition; the first block of a window is that
sum, and a word; and a window that is granted lies in its partition and on the device. -/
theorem limit_exact {format : TableFormat} {ps : List Partition} {blockCount : Nat}
    {table : PartitionTable} (hblocks : blockCount ≤ maxWord)
    (hwords : ∀ p ∈ ps, p.start ≤ maxWord ∧ p.count ≤ maxWord)
    (h : ofPartitions format ps blockCount = .ok table) :
    (∀ p, p ∈ table.partitions ↔
      p ∈ ps ∧ 1 ≤ p.count ∧ (p.start + p.count ≤ blockCount ∨ blockCount = maxWord)) ∧
    (table.partitions.Pairwise fun p q => ∀ block, p.Covers block → q.Covers block →
      blockCount = maxWord ∧ maxWord ≤ block) ∧
    (∀ p ∈ table.partitions,
      p.Overruns ↔ blockCount = maxWord ∧ maxWord + 1 < p.start + p.count) ∧
    ∀ (request : WindowRequest) (index : Nat) (p : Partition) (device : Nat) (label : String),
      request.partition = some index → table.partition? index = some p →
        (request.grant label (some table) device = .error .overflow ↔
          request.Passes p.count ∧ maxWord < p.start + request.offset) ∧
        (request.Passes p.count → maxWord < p.start + request.offset →
          blockCount = maxWord ∧ (p.start + request.offset) % (maxWord + 1) < p.start) ∧
        (∀ w, request.window (some table) device = .ok w →
          w.1 = p.start + request.offset ∧ w.1 ≤ maxWord) ∧
        ∀ g, request.grant label (some table) device = .ok g →
          1 ≤ g.span ∧ p.start ≤ g.offset ∧ g.stop ≤ p.start + p.count ∧ g.stop ≤ device := by
  obtain ⟨-, hmem⟩ := ofPartitions_mem h
  have hkept : ∀ p, p ∈ table.partitions ↔
      p ∈ ps ∧ 1 ≤ p.count ∧ (p.start + p.count ≤ blockCount ∨ blockCount = maxWord) :=
    fun p => (hmem p).trans (and_congr_right fun _ => fits_iff_of_le hblocks p)
  refine ⟨hkept, ?_, ?_, ?_⟩
  · refine (pairwise_shared_behind h).imp_of_mem fun {p q} hp _ hshared block hpb hqb => ?_
    have hbehind := hshared block hpb hqb
    -- the first of the two goes on behind the block, so it does not end on the device
    have hstop := ((hkept p).1 hp).2.2
    have hlt : block < p.start + p.count := hpb.2
    exact ⟨by omega, hbehind⟩
  · intro p hp
    -- a partition that ends on the device has words for all its blocks
    obtain ⟨hps, -, hstop⟩ := (hkept p).1 hp
    rw [overruns_iff (hwords p hps).1 (hwords p hps).2]
    omega
  · intro request index p device label hindex hp
    obtain ⟨hps, -, hstop⟩ := (hkept p).1 (partition?_mem hp).1
    have hwindow := WindowRequest.window_of_partition? hindex hp device
    refine ⟨?_, ?_, ?_, ?_⟩
    · rw [WindowRequest.grant_eq_overflow_iff, hwindow, WindowRequest.within_eq_overflow_iff]
    · intro hpasses hlarge
      have hoffset := hpasses.1
      have hcount := (hwords p hps).2
      exact ⟨by omega, wrapped_lt (by omega) hlarge⟩
    · intro w hw
      obtain ⟨-, hword, rfl⟩ := WindowRequest.within_eq_ok_iff.1 (hwindow.symm.trans hw)
      exact ⟨rfl, hword⟩
    · intro g hg
      obtain ⟨hw, -, hdevice, -, -⟩ := WindowRequest.grant_eq_ok hg
      obtain ⟨hstart, -, hspan, hend⟩ := WindowRequest.within_eq_ok (hwindow.symm.trans hw)
      exact ⟨hspan, hstart, hend, hdevice⟩

/-- Partitions for a device with the largest number of blocks. The first one ends on the device; the
others go on behind it, from its last block and from the block behind that. -/
def brink : List Partition :=
  [⟨1, 4, 8, .classic 0x83⟩, ⟨2, maxWord - 1, 4, .classic 0x83⟩, ⟨3, maxWord, 3, .classic 0x83⟩]

theorem ofPartitions_brink : ofPartitions .classic brink maxWord = .ok ⟨.classic, brink⟩ := by
  have hplaced : placed maxWord brink = brink := List.mergeSort_of_pairwise (by decide)
  have hsorted : (brink.mergeSort fun p q => decide (p.index ≤ q.index)) = brink :=
    List.mergeSort_of_pairwise (by decide)
  rw [ofPartitions, hplaced, hsorted]
  rfl

/-- The last block of the device is granted from the second partition, and what lies two blocks
behind it has no number. -/
theorem limit_exact_brink :
    let request : WindowRequest := ⟨0, 1, true, true, some 2⟩
    let behind : WindowRequest := ⟨2, 1, true, true, some 2⟩
    maxWord ≤ maxWord ∧ (∀ p ∈ brink, p.start ≤ maxWord ∧ p.count ≤ maxWord) ∧
      ofPartitions .classic brink maxWord = .ok ⟨.classic, brink⟩ ∧
      request.grant "a" (some ⟨.classic, brink⟩) maxWord = .ok ⟨"a", maxWord - 1, 1, true, true⟩ ∧
      (∀ g, request.grant "a" (some ⟨.classic, brink⟩) maxWord = .ok g →
        1 ≤ g.span ∧ maxWord - 1 ≤ g.offset ∧ g.stop ≤ maxWord - 1 + 4 ∧ g.stop ≤ maxWord) ∧
      behind.grant "a" (some ⟨.classic, brink⟩) maxWord = .error .overflow := by
  intro request behind
  have hwords : ∀ p ∈ brink, p.start ≤ maxWord ∧ p.count ≤ maxWord := by decide
  obtain ⟨-, -, -, hasked⟩ := limit_exact (Nat.le_refl maxWord) hwords ofPartitions_brink
  obtain ⟨-, -, -, hgranted⟩ :=
    hasked request 2 ⟨2, maxWord - 1, 4, .classic 0x83⟩ maxWord "a" rfl rfl
  obtain ⟨hoverflow, -⟩ :=
    hasked behind 2 ⟨2, maxWord - 1, 4, .classic 0x83⟩ maxWord "a" rfl rfl
  exact ⟨Nat.le_refl _, hwords, ofPartitions_brink, rfl, hgranted,
    hoverflow.2 ⟨⟨by decide, by decide⟩, by decide⟩⟩

/-- A table at the limit keeps partitions that do not end on the device, that share blocks, and from
which a client may ask for a block whose number is no word. -/
theorem limit_overrun :
    ofPartitions .classic brink maxWord = .ok ⟨.classic, brink⟩ ∧
      (∃ p ∈ brink, maxWord < p.start + p.count) ∧
      ¬brink.Pairwise (fun p q => ¬p.SharesBlock q) ∧
      ∃ p ∈ brink, p.Overruns := by
  refine ⟨ofPartitions_brink, by decide, by decide, ⟨2, maxWord - 1, 4, .classic 0x83⟩, by decide, ?_⟩
  exact (overruns_iff (by decide) (by decide)).2 (by decide)

end PartitionTable
end BlockMux
