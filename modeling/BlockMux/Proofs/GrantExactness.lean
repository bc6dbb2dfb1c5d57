import BlockMux.Proofs.GrantBounds
import BlockMux.Proofs.PartitionOrder

/-!
# Grants are made exactly

Which windows are granted can be said in one line of exact numbers: the window that a client asks
for has to lie in the blocks that the deciding rule leaves, and end on the device. The rule leaves
a partition of a table, or the whole device. A grant is reached in two stages of checks, the first
against the partition and the second against the device, and a table may have been made for
another device than the one at hand.

Main statements:

* `WindowRequest.grant_eq_ok_iff` — the two stages together ask for exactly the three bounds of
  `Suits`.
* `Region.stop_le_maxWord` — the blocks that a rule leaves end within a word, so no sum on the way
  to a grant overflows.
* `Grant.resolve_exact` — when there is a grant, which one, and where it lies.
-/

namespace BlockMux

/-! ## Regions -/

/-- A run of device blocks. -/
structure Region where
  start : Nat
  count : Nat
  deriving DecidableEq, Repr

namespace Region

/-- One past the last block of the run. -/
def stop (r : Region) : Nat := r.start + r.count

/-- The blocks that a session bound to `partition` may ask for: those of the partition, which has
to be there, or the whole device. -/
def of? (partition : Option Nat) (table : Option PartitionTable) (blockCount : Nat) :
    Option Region :=
  match partition with
  | none => some ⟨0, blockCount⟩
  | some index => do
    let table ← table
    let p ← table.partition? index
    return ⟨p.start, p.count⟩

end Region

namespace PartitionTable

/-- Whether the table was made from some list for a device of fewer blocks than the last word. -/
def Made (table : PartitionTable) : Prop :=
  ∃ format ps blockCount, blockCount < maxWord ∧ ofPartitions format ps blockCount = .ok table

/-- A partition of a table ends on the device that the table was made for. -/
theorem Made.partition_le {table : PartitionTable} (h : table.Made) {index : Nat} {p : Partition}
    (hp : table.partition? index = some p) : p.start + p.count < maxWord := by
  obtain ⟨format, ps, blockCount, hcount, hmade⟩ := h
  obtain ⟨hmem, -⟩ := partition?_mem hp
  have hfits : fits blockCount p = true := (mem_of_ofPartitions hmade hmem).2
  have hstop := ((fits_iff hcount p).1 hfits).2
  omega

end PartitionTable

theorem Region.stop_le_maxWord {partition : Option Nat} {table : Option PartitionTable}
    {blockCount : Nat} {region : Region} (hblocks : blockCount ≤ maxWord)
    (htable : ∀ t ∈ table, t.Made) (h : of? partition table blockCount = some region) :
    region.stop ≤ maxWord := by
  cases partition with
  | none =>
    simp only [of?, Option.some.injEq] at h
    subst h
    simpa [stop] using hblocks
  | some index =>
    obtain ⟨t, ht, hregion⟩ := Option.bind_eq_some_iff.1 h
    obtain ⟨p, hp, hregion⟩ := Option.bind_eq_some_iff.1 hregion
    obtain rfl : (⟨p.start, p.count⟩ : Region) = region := by simpa using hregion
    have hlt := (htable t ht).partition_le hp
    simp only [stop]
    omega

/-! ## Requests in a region -/

namespace WindowRequest

/-- The blocks a request stands for in a run of `count` blocks. -/
def length (request : WindowRequest) (count : Nat) : Nat :=
  if request.span = 0 then count - request.offset else request.span

/-- The three bounds on a request: it starts in the region, it is no longer than what is left of
the region, and it ends on the device. -/
structure Suits (request : WindowRequest) (region : Region) (blockCount : Nat) : Prop where
  offset_lt : request.offset < region.count
  span_le : request.span ≤ region.count - request.offset
  stop_le : region.start + request.offset + request.length region.count ≤ blockCount

theorem Suits.length_pos {request : WindowRequest} {region : Region} {blockCount : Nat}
    (h : request.Suits region blockCount) : 1 ≤ request.length region.count := by
  have hlt := h.offset_lt
  unfold length
  split <;> omega

theorem Suits.length_le {request : WindowRequest} {region : Region} {blockCount : Nat}
    (h : request.Suits region blockCount) :
    request.offset + request.length region.count ≤ region.count := by
  have hlt := h.offset_lt
  have hle := h.span_le
  unfold length
  split <;> omega

/-- The grant of a request in a region, if it suits. -/
def grantIn (request : WindowRequest) (label : String) (region : Region) : Grant where
  label := label
  offset := region.start + request.offset
  span := request.length region.count
  readable := request.readable
  writeable := request.writeable

/-- The two checks of a request against a run of blocks. -/
def Passes (request : WindowRequest) (count : Nat) : Prop :=
  request.offset < count ∧ request.span ≤ count - request.offset

/-- Past the two checks only the sum can go wrong. -/
theorem within_of_passes {request : WindowRequest} {count : Nat} (h : request.Passes count)
    (start : Nat) :
    request.within start count =
      if maxWord < start + request.offset then .error .overflow
      else .ok (start + request.offset, request.length count) := by
  rw [within, if_neg (Nat.not_le.2 h.1), if_neg (Nat.not_lt.2 h.2)]
  rfl

/-- What fails a check is refused before the sum is made. -/
theorem within_of_not_passes {request : WindowRequest} {count : Nat} (h : ¬request.Passes count)
    (start : Nat) : ∃ e, e ≠ .overflow ∧ request.within start count = .error e := by
  unfold within
  split
  case isTrue => exact ⟨_, by simp, rfl⟩
  case isFalse hin =>
    have hlong : count - request.offset < request.span :=
      Nat.not_le.1 fun hspan => h ⟨Nat.not_le.1 hin, hspan⟩
    exact ⟨_, by simp, if_pos hlong⟩

/-- The first stage, for a request that is bound to a run of blocks. -/
theorem within_eq_ok_iff {request : WindowRequest} {start count : Nat} {w : Nat × Nat} :
    request.within start count = .ok w ↔
      request.Passes count ∧ start + request.offset ≤ maxWord ∧
        w = (start + request.offset, request.length count) := by
  by_cases h : request.Passes count
  · rw [within_of_passes h]
    split
    case isTrue hlarge => simp [Nat.not_le.2 hlarge]
    case isFalse hword => simp [h, Nat.not_lt.1 hword, eq_comm]
  · obtain ⟨e, -, hrefused⟩ := within_of_not_passes h start
    simp [hrefused, h]

theorem within_eq_overflow_iff {request : WindowRequest} {start count : Nat} :
    request.within start count = .error .overflow ↔
      request.Passes count ∧ maxWord < start + request.offset := by
  by_cases h : request.Passes count
  · rw [within_of_passes h]
    split
    case isTrue hlarge => simp [h, hlarge]
    case isFalse hword => simp [hword]
  · obtain ⟨e, hne, hrefused⟩ := within_of_not_passes h start
    simp [hrefused, h, hne]

/-- The second stage: a window has to start on the device and to fit into what is left of it. -/
theorem grant_of_window {request : WindowRequest} {table : Option PartitionTable}
    {blockCount : Nat} {w : Nat × Nat} {label : String} {g : Grant}
    (h : request.window table blockCount = .ok w) :
    request.grant label table blockCount = .ok g ↔
      w.1 < blockCount ∧ w.2 ≤ blockCount - w.1 ∧
        g = ⟨label, w.1, w.2, request.readable, request.writeable⟩ := by
  unfold grant
  rw [h]
  dsimp only
  split
  case isTrue hout => simp [Nat.not_lt.2 hout]
  case isFalse hin =>
    have hlt : w.1 < blockCount := Nat.not_le.1 hin
    split
    case isTrue hlong => simp [Nat.not_le.2 hlong]
    case isFalse hshort =>
      simp only [Except.ok.injEq, hlt, Nat.not_lt.1 hshort, true_and]
      exact eq_comm

/-- The second stage makes no sum. -/
theorem grant_eq_overflow_iff {request : WindowRequest} {table : Option PartitionTable}
    {blockCount : Nat} {label : String} :
    request.grant label table blockCount = .error .overflow ↔
      request.window table blockCount = .error .overflow := by
  unfold grant
  split
  · rename_i hwindow
    rw [hwindow]
    simp
  · rename_i hwindow
    rw [hwindow]
    split
    · simp
    · split <;> simp

/-- Without a partition the first stage checks nothing: the second one has to refuse an offset
behind the device, for which the first leaves no block at all. -/
theorem grant_unbound {request : WindowRequest} {label : String} {table : Option PartitionTable}
    {blockCount : Nat} {g : Grant} (hnone : request.partition = none) :
    request.grant label table blockCount = .ok g ↔
      request.Suits ⟨0, blockCount⟩ blockCount ∧ g = request.grantIn label ⟨0, blockCount⟩ := by
  have hwindow : request.window table blockCount =
      .ok (request.offset, request.length blockCount) := by
    simp [window, hnone, length]
  rw [grant_of_window hwindow]
  have hgrant : request.grantIn label ⟨0, blockCount⟩ =
      ⟨label, request.offset, request.length blockCount, request.readable, request.writeable⟩ := by
    simp [grantIn]
  rw [hgrant]
  constructor
  · rintro ⟨hlt, hle, rfl⟩
    refine ⟨⟨hlt, ?_, ?_⟩, rfl⟩
    · unfold length at hle
      dsimp only at hle ⊢
      split at hle <;> omega
    · dsimp only at hle hlt ⊢
      omega
  · rintro ⟨hsuits, rfl⟩
    have hlt : request.offset < blockCount := hsuits.offset_lt
    have hle : request.offset + request.length blockCount ≤ blockCount := hsuits.length_le
    exact ⟨hlt, by omega, rfl⟩

theorem window_of_partition? {request : WindowRequest} {table : PartitionTable}
    {index : Nat} {p : Partition} (hindex : request.partition = some index)
    (hp : table.partition? index = some p) (blockCount : Nat) :
    request.window (some table) blockCount = request.within p.start p.count := by
  simp [window, hindex, hp]

/-- With a partition at hand, a window that passes the first stage is not empty, so that the
second one only has to look at its end. What ends on the device starts at a word. -/
theorem grant_bound {request : WindowRequest} {label : String} {table : PartitionTable}
    {blockCount index : Nat} {p : Partition} {g : Grant} (hblocks : blockCount ≤ maxWord)
    (hindex : request.partition = some index) (hp : table.partition? index = some p) :
    request.grant label (some table) blockCount = .ok g ↔
      request.Suits ⟨p.start, p.count⟩ blockCount ∧
        g = request.grantIn label ⟨p.start, p.count⟩ := by
  have hwindow := window_of_partition? hindex hp blockCount
  constructor
  · intro hgrant
    cases hwithin : request.within p.start p.count with
    | error e => simp [grant, hwindow.trans hwithin] at hgrant
    | ok w =>
      obtain ⟨hlt, hle, rfl⟩ := (grant_of_window (hwindow.trans hwithin)).1 hgrant
      obtain ⟨hpasses, -, rfl⟩ := within_eq_ok_iff.1 hwithin
      dsimp only at hlt hle
      exact ⟨⟨hpasses.1, hpasses.2, by dsimp only; omega⟩, rfl⟩
  · rintro ⟨hsuits, rfl⟩
    have hpos := hsuits.length_pos
    have hstop := hsuits.stop_le
    dsimp only at hpos hstop
    have hword : p.start + request.offset ≤ maxWord := by omega
    have hpasses : request.Passes p.count := ⟨hsuits.offset_lt, hsuits.span_le⟩
    rw [grant_of_window (hwindow.trans (within_eq_ok_iff.2 ⟨hpasses, hword, rfl⟩))]
    dsimp only
    exact ⟨by omega, by omega, rfl⟩

/-- A request that suits its region passes both stages, and no other one does. -/
theorem grant_eq_ok_iff {request : WindowRequest} {label : String} {table : Option PartitionTable}
    {blockCount : Nat} {g : Grant} (hblocks : blockCount ≤ maxWord) :
    request.grant label table blockCount = .ok g ↔
      ∃ region, Region.of? request.partition table blockCount = some region ∧
        request.Suits region blockCount ∧ g = request.grantIn label region := by
  cases hpartition : request.partition with
  | none => simp [grant_unbound hpartition, Region.of?]
  | some index =>
    cases table with
    | none =>
      -- the rule names a partition, but there is no table
      simp [grant, window, hpartition, Region.of?]
    | some table =>
      cases hp : table.partition? index with
      | none => simp [grant, window, hpartition, hp, Region.of?]
      | some p => simp [grant_bound hblocks hpartition hp, hp, Region.of?]

end WindowRequest

/-! ## Petitions -/

/-- What decides about a session: the rule for its label and what its client asks for. -/
structure Petition where
  rule : Rule
  offset : Nat
  span : Nat
  readable : Bool
  writeable : Bool
  deriving DecidableEq, Repr

namespace Petition

/-- The configuration has this rule for the label, and the four arguments parse to these values. -/
structure Reads (p : Petition) (config : Config) (args : Arguments) : Prop where
  rule : Rule.bestRule? config.rules args.label = some p.rule
  offset : args.quantity "offset" 0 = .ok p.offset
  span : args.quantity "span" 0 = .ok p.span
  readable : args.boolean "readable" true = .ok p.readable
  writeable : args.boolean "writeable" true = .ok p.writeable

/-- The request that is left of what the client asks for. -/
def request (p : Petition) : WindowRequest where
  offset := p.offset
  span := p.span
  readable := p.rule.readable && p.readable
  writeable := p.rule.writeable && p.writeable
  partition := p.rule.partition

theorem Reads.resolve_eq {p : Petition} {config : Config} {args : Arguments}
    (h : p.Reads config args) (table : Option PartitionTable) (blockCount : Nat) :
    Grant.resolve config args table blockCount =
      p.request.grant args.label table blockCount := by
  have hrequest : WindowRequest.ofArguments args =
      .ok ⟨p.offset, p.span, p.readable, p.writeable, none⟩ := by
    simp only [WindowRequest.ofArguments, h.offset, h.span, h.readable, h.writeable]
    rfl
  simp only [Grant.resolve, h.rule, hrequest]
  rfl

theorem exists_reads {config : Config} {args : Arguments} {rule : Rule} {request : WindowRequest}
    (hrule : Rule.bestRule? config.rules args.label = some rule)
    (h : WindowRequest.ofArguments args = .ok request) :
    ∃ p : Petition, p.Reads config args := by
  unfold WindowRequest.ofArguments at h
  cases hoffset : args.quantity "offset" 0 with
  | error e => simp [hoffset, bind, Except.bind] at h
  | ok offset =>
  cases hspan : args.quantity "span" 0 with
  | error e => simp [hoffset, hspan, bind, Except.bind] at h
  | ok span =>
  cases hreadable : args.boolean "readable" true with
  | error e => simp [hoffset, hspan, hreadable, bind, Except.bind] at h
  | ok readable =>
  cases hwriteable : args.boolean "writeable" true with
  | error e => simp [hoffset, hspan, hreadable, hwriteable, bind, Except.bind] at h
  | ok writeable => exact ⟨⟨rule, offset, span, readable, writeable⟩,
      hrule, hoffset, hspan, hreadable, hwriteable⟩

end Petition

namespace Grant

/-- Suppose that the table, if there is one, was made for fewer blocks than the last word; the
device may be another one. A client gets a grant exactly when a rule for its label decides, its
four arguments parse, the rule's region is there, and the request suits that region and the
device. The grant starts at the offset in the region, spans what was asked for, or all that is
left, and has the rights that both the rule and the client name. It is not empty, and lies in the
region and on the device. There is a rule as soon as some rule matches the label, and where the
offset lies in the region, the one sum that is made before the end is checked stays a word. -/
theorem resolve_exact (config : Config) (args : Arguments) {table : Option PartitionTable}
    {blockCount : Nat} (hblocks : blockCount ≤ maxWord) (htable : ∀ t ∈ table, t.Made) :
    ((Rule.bestRule? config.rules args.label).isSome ↔
      ∃ rule ∈ config.rules, (rule.rank? args.label).isSome) ∧
    (∀ g, resolve config args table blockCount = .ok g ↔
      ∃ (p : Petition) (region : Region), p.Reads config args ∧
        Region.of? p.rule.partition table blockCount = some region ∧
        p.offset < region.count ∧ p.span ≤ region.count - p.offset ∧
        region.start + p.offset + (if p.span = 0 then region.count - p.offset else p.span) ≤
          blockCount ∧
        g = { label := args.label
              offset := region.start + p.offset
              span := if p.span = 0 then region.count - p.offset else p.span
              readable := p.rule.readable && p.readable
              writeable := p.rule.writeable && p.writeable }) ∧
    ∀ (p : Petition) (region : Region), p.Reads config args →
      Region.of? p.rule.partition table blockCount = some region →
        region.stop ≤ maxWord ∧ (p.offset < region.count → region.start + p.offset < maxWord) ∧
        ∀ g, resolve config args table blockCount = .ok g →
          1 ≤ g.span ∧ region.start ≤ g.offset ∧ g.stop ≤ region.stop ∧ g.stop ≤ blockCount := by
  have hexact : ∀ g, resolve config args table blockCount = .ok g ↔
      ∃ (p : Petition) (region : Region), p.Reads config args ∧
        Region.of? p.rule.partition table blockCount = some region ∧
        p.request.Suits region blockCount ∧ g = p.request.grantIn args.label region := by
    intro g
    constructor
    · intro h
      obtain ⟨rule, request, hrule, hrequest, -⟩ := resolve_eq_ok h
      obtain ⟨p, hreads⟩ := Petition.exists_reads hrule hrequest
      rw [hreads.resolve_eq] at h
      obtain ⟨region, hregion⟩ := (WindowRequest.grant_eq_ok_iff hblocks).1 h
      exact ⟨p, region, hreads, hregion⟩
    · rintro ⟨p, region, hreads, hregion⟩
      rw [hreads.resolve_eq]
      exact (WindowRequest.grant_eq_ok_iff hblocks).2 ⟨region, hregion⟩
  refine ⟨?_, ?_, ?_⟩
  · rw [Rule.bestRule_isSome, List.any_eq_true]
  · intro g
    rw [hexact g]
    constructor
    · rintro ⟨p, region, hreads, hregion, hsuits, hg⟩
      exact ⟨p, region, hreads, hregion, hsuits.offset_lt, hsuits.span_le, hsuits.stop_le, hg⟩
    · rintro ⟨p, region, hreads, hregion, hoffset, hspan, hstop, hg⟩
      exact ⟨p, region, hreads, hregion, ⟨hoffset, hspan, hstop⟩, hg⟩
  · intro p region hreads hregion
    have hstop : region.stop ≤ maxWord := Region.stop_le_maxWord hblocks htable hregion
    refine ⟨hstop, ?_, ?_⟩
    · intro hlt
      unfold Region.stop at hstop
      omega
    · intro g hg
      rw [hreads.resolve_eq, WindowRequest.grant_eq_ok_iff hblocks] at hg
      obtain ⟨region', hregion', hsuits, rfl⟩ := hg
      obtain rfl : region = region' := Option.some.inj (hregion.symm.trans hregion')
      have hend := hsuits.length_le
      have hinside : (p.request.grantIn args.label region).stop ≤ region.stop := by
        simp only [stop, Region.stop, WindowRequest.grantIn]
        omega
      exact ⟨hsuits.length_pos, Nat.le_add_right _ _, hinside, hsuits.stop_le⟩

/-- A table of a device of 12 blocks. -/
def inherited : PartitionTable where
  format := .classic
  partitions := [⟨1, 0, 4, .classic 0x83⟩, ⟨2, 4, 8, .classic 0x83⟩]

/-- A rule that binds every session to the second partition and takes writing away. -/
def archive : Config where
  rules := [{ partition := some 2, writeable := false }]

/-- On a device of 10 blocks, the second partition still has the blocks from 4 to 9; a window that
ends with the last of them is granted. -/
theorem resolve_exact_shrunk :
    let args : Arguments := ⟨[("label", "a"), ("offset", "2"), ("span", "4")]⟩
    10 ≤ maxWord ∧ inherited.Made ∧
      (Region.of? (some 2) (some inherited) 10 = some ⟨4, 8⟩) ∧
      resolve archive args (some inherited) 10 = .ok ⟨"a", 6, 4, true, false⟩ ∧
      ∀ g, resolve archive args (some inherited) 10 = .ok g →
        1 ≤ g.span ∧ 4 ≤ g.offset ∧ g.stop ≤ 12 ∧ g.stop ≤ 10 := by
  intro args
  have hmade : inherited.Made := by
    have hplaced : PartitionTable.placed 12 inherited.partitions = inherited.partitions :=
      List.mergeSort_of_pairwise (by decide)
    have hsorted : (inherited.partitions.mergeSort fun p q => decide (p.index ≤ q.index)) =
        inherited.partitions := List.mergeSort_of_pairwise (by decide)
    refine ⟨.classic, inherited.partitions, 12, by decide, ?_⟩
    rw [PartitionTable.ofPartitions, hplaced, hsorted]
    rfl
  have htable : ∀ t ∈ some inherited, t.Made := by
    rintro t ⟨⟩
    exact hmade
  have hreads : Petition.Reads ⟨{ partition := some 2, writeable := false }, 2, 4, true, true⟩
      archive args :=
    ⟨by decide +kernel, rfl, rfl, rfl, rfl⟩
  obtain ⟨-, hexact, hlies⟩ := resolve_exact archive args (by decide : 10 ≤ maxWord) htable
  refine ⟨by decide, hmade, rfl, ?_, (hlies _ ⟨4, 8⟩ hreads rfl).2.2⟩
  exact (hexact _).2 ⟨_, ⟨4, 8⟩, hreads, rfl, by decide, by decide, by decide, rfl⟩

end Grant
end BlockMux
