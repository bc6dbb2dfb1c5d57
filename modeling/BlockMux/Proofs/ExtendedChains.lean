import BlockMux.Proofs.TableSoundness

/-!
# Chains of extended records

The records of an image form a graph of pointers that nobody vouches for: links may lead back into
their own chain, into another one, or off the medium. What a chain is can be said without the walk
that follows it, as a sequence of blocks that may go on for ever. The walk comes to the end of the
sequence if it ends in time, and stops at the first place where it cannot go on otherwise.

Main statements:

* `chain` — the blocks of a chain, from the links alone.
* `EndsAt`, `Obstacle` — where a chain ends, and what keeps one from being followed.
* `walkChain_outcome` — from any place of a chain, the bounded walk comes to its end or to the first
  obstacle.
* `read_exact` — the table of a boot record, or the error that there is instead of one.
-/

namespace BlockMux.BootRecord

/-! ## The chain of a container -/

section Chains

variable (image : Image) (blockSize base : Nat)

/-- The block that the record in block `lba` links to. A record without the signature links to
none, and nor does one whose link has no block or no type. -/
def linkFrom? (lba : Nat) : Option Nat :=
  match image.readBlocks lba 1 blockSize with
  | .error _ => none
  | .ok record =>
    if isSigned record ∧ (entry record 1).lba ≠ 0 ∧ (entry record 1).kind ≠ 0 then
      some (base + (entry record 1).lba)
    else none

/-- The block at place `k` of the chain that starts in block `base`, none after the end. -/
def chain : (k : Nat) → Option Nat
  | 0 => some base
  | k + 1 => (chain k).bind (linkFrom? image blockSize base)

/-- The first `k` records of the chain are there, can be read and lie in different blocks. -/
def Passable (k : Nat) : Prop :=
  ∀ j < k, ∃ lba record, chain image blockSize base j = some lba ∧
    image.readBlocks lba 1 blockSize = .ok record ∧
    ∀ i < j, chain image blockSize base i ≠ some lba

/-- The chain can be followed to its record at place `k`, which is the last one. -/
structure EndsAt (k : Nat) : Prop where
  short : k ≤ 255
  passable : Passable image blockSize base (k + 1)
  last : chain image blockSize base (k + 1) = none

/-- What keeps the walk from passing the record at place `k`. Whether the record can be read
matters only where it is neither known nor one too many. -/
inductive Obstacle (k : Nat) : TableError → Prop
  | repeated {lba : Nat} (reached : chain image blockSize base k = some lba)
      (seen : ∃ j < k, chain image blockSize base j = some lba) : Obstacle k (.badChain lba)
  | tooLong {lba : Nat} (reached : chain image blockSize base k = some lba) (long : k = 256) :
      Obstacle k (.badChain lba)
  | unreadable {lba : Nat} {cause : IoError} (reached : chain image blockSize base k = some lba)
      (fresh : ∀ j < k, chain image blockSize base j ≠ some lba) (short : k ≠ 256)
      (failed : image.readBlocks lba 1 blockSize = .error cause) : Obstacle k (.io cause)

/-- The first obstacle of the chain is the error. -/
def FailsWith (e : TableError) : Prop :=
  ∃ k, Obstacle image blockSize base k e ∧ ∀ j < k, ∀ e', ¬Obstacle image blockSize base j e'

/-- The logical entry of a signed record, with its block. -/
def logicalAt? (lba : Nat) : Option (Nat × Entry) :=
  match image.readBlocks lba 1 blockSize with
  | .error _ => none
  | .ok record =>
    if isSigned record ∧ (entry record 0).isUsed then some (lba, entry record 0) else none

/-- The logical entry at place `k` of the chain. -/
def logicalOf? (k : Nat) : Option (Nat × Entry) :=
  (chain image blockSize base k).bind (logicalAt? image blockSize)

/-- The logical entries of the chain, up to the longest one that is followed. -/
def chainLogicals : List (Nat × Entry) :=
  (List.range 256).filterMap (logicalOf? image blockSize base)

end Chains

variable {image : Image} {blockSize base : Nat}

theorem chain_succ {k lba : Nat} (h : chain image blockSize base k = some lba) :
    chain image blockSize base (k + 1) = linkFrom? image blockSize base lba := by
  rw [chain, h, Option.bind_some]

/-- After its end a chain has no more records. -/
theorem chain_eq_none {k : Nat} (h : chain image blockSize base k = none) {j : Nat} (hkj : k ≤ j) :
    chain image blockSize base j = none := by
  induction hkj with
  | refl => exact h
  | step _ ih => rw [chain, ih, Option.bind_none]

theorem filterMap_logicalOf?_eq_nil {k : Nat} (h : chain image blockSize base k = none) (n : Nat) :
    (List.range' k n).filterMap (logicalOf? image blockSize base) = [] := by
  refine List.filterMap_eq_nil_iff.2 fun j hj => ?_
  have hkj : k ≤ j := (List.mem_range'_1.1 hj).1
  rw [logicalOf?, chain_eq_none h hkj, Option.bind_none]

/-- One more record that can be read and is not known yet. -/
theorem Passable.succ {k lba : Nat} {record : List UInt8} (h : Passable image blockSize base k)
    (reached : chain image blockSize base k = some lba)
    (found : image.readBlocks lba 1 blockSize = .ok record)
    (fresh : ∀ j < k, chain image blockSize base j ≠ some lba) :
    Passable image blockSize base (k + 1) := by
  intro j hj
  rcases Nat.lt_or_eq_of_le (Nat.le_of_lt_succ hj) with hlt | rfl
  · exact h j hlt
  · exact ⟨lba, record, reached, found, fresh⟩

theorem Passable.no_obstacle {k : Nat} (h : Passable image blockSize base k) (hk : k ≤ 256)
    {j : Nat} (hj : j < k) (e : TableError) : ¬Obstacle image blockSize base j e := by
  obtain ⟨lba, record, hreached, hfound, hfresh⟩ := h j hj
  intro hobstacle
  cases hobstacle with
  | repeated reached seen =>
    obtain ⟨i, hi, heq⟩ := seen
    rw [hreached] at reached
    exact hfresh i hi (heq.trans reached.symm)
  | tooLong reached long => omega
  | unreadable reached fresh short failed =>
    rw [hreached] at reached
    rw [← Option.some.inj reached, hfound] at failed
    cases failed

/-- A chain that can be followed to its end has no obstacle, not even after the end. -/
theorem EndsAt.no_obstacle {k : Nat} (h : EndsAt image blockSize base k) (j : Nat)
    (e : TableError) : ¬Obstacle image blockSize base j e := by
  have hk := h.short
  by_cases hj : j < k + 1
  · exact h.passable.no_obstacle (by omega) hj e
  · have hnone := chain_eq_none h.last (Nat.le_of_not_lt hj)
    intro hobstacle
    cases hobstacle with
    | repeated reached => simp [hnone] at reached
    | tooLong reached => simp [hnone] at reached
    | unreadable reached => simp [hnone] at reached

theorem Obstacle.unique {k : Nat} {e e' : TableError} (h : Obstacle image blockSize base k e)
    (h' : Obstacle image blockSize base k e') : e = e' := by
  -- a record is either known or one too many, or else only its own reading can fail
  cases h with
  | repeated reached seen =>
    obtain ⟨j, hj, heq⟩ := seen
    cases h' with
    | repeated reached' => rw [Option.some.inj (reached.symm.trans reached')]
    | tooLong reached' => rw [Option.some.inj (reached.symm.trans reached')]
    | unreadable reached' fresh =>
      exact absurd (heq.trans (reached.symm.trans reached')) (fresh j hj)
  | tooLong reached long =>
    cases h' with
    | repeated reached' => rw [Option.some.inj (reached.symm.trans reached')]
    | tooLong reached' => rw [Option.some.inj (reached.symm.trans reached')]
    | unreadable reached' fresh short => exact absurd long short
  | unreadable reached fresh short failed =>
    cases h' with
    | repeated reached' seen =>
      obtain ⟨j, hj, heq⟩ := seen
      exact absurd (heq.trans (reached'.symm.trans reached)) (fresh j hj)
    | tooLong reached' long => exact absurd long short
    | unreadable reached' fresh' short' failed' =>
      rw [Option.some.inj (reached.symm.trans reached')] at failed
      rw [Except.error.inj (failed.symm.trans failed')]

theorem FailsWith.unique {e e' : TableError} (h : FailsWith image blockSize base e)
    (h' : FailsWith image blockSize base e') : e = e' := by
  obtain ⟨k, hk, hfirst⟩ := h
  obtain ⟨k', hk', hfirst'⟩ := h'
  rcases Nat.lt_trichotomy k k' with hlt | rfl | hlt
  · exact absurd hk (hfirst' k hlt e)
  · exact hk.unique hk'
  · exact absurd hk' (hfirst k' hlt e')

theorem EndsAt.not_failsWith {k : Nat} (h : EndsAt image blockSize base k) (e : TableError) :
    ¬FailsWith image blockSize base e :=
  fun ⟨j, hobstacle, _⟩ => h.no_obstacle j e hobstacle

/-! ## The walk -/

/-- What a walk from place `k` of the chain comes to. -/
def Outcome (image : Image) (blockSize base k left : Nat) :
    Except TableError (List (Nat × Entry)) → Prop
  | .ok logicals => (∃ n, EndsAt image blockSize base n) ∧
      logicals = (List.range' k left).filterMap (logicalOf? image blockSize base)
  | .error e => FailsWith image blockSize base e

/-- The walk goes on behind a record with what the record adds. -/
theorem Outcome.cons {k left : Nat} {result : Except TableError (List (Nat × Entry))}
    (h : Outcome image blockSize base (k + 1) left result) :
    Outcome image blockSize base k (left + 1)
      (result.map ((logicalOf? image blockSize base k).toList ++ ·)) := by
  cases result with
  | error e => exact h
  | ok logicals =>
    obtain ⟨hends, rfl⟩ := h
    refine ⟨hends, ?_⟩
    rw [List.range'_succ, List.filterMap_cons]
    cases logicalOf? image blockSize base k <;> rfl

/-- The walk ends at a record that links to no other one. -/
theorem Outcome.last {k left : Nat} (hends : EndsAt image blockSize base k) :
    Outcome image blockSize base k (left + 1) (.ok (logicalOf? image blockSize base k).toList) := by
  refine ⟨⟨k, hends⟩, ?_⟩
  rw [List.range'_succ, List.filterMap_cons, filterMap_logicalOf?_eq_nil hends.last]
  cases logicalOf? image blockSize base k <;> rfl

/-- What the walk does with a record that it has not seen before. -/
theorem walkChain_fresh {left lba : Nat} {visited : List Nat} {record : List UInt8}
    (fresh : lba ∉ visited) (found : image.readBlocks lba 1 blockSize = .ok record) :
    walkChain image blockSize base (left + 1) visited lba =
      match linkFrom? image blockSize base lba with
      | none => .ok (logicalAt? image blockSize lba).toList
      | some next => (walkChain image blockSize base left (lba :: visited) next).map
          ((logicalAt? image blockSize lba).toList ++ ·) := by
  rw [walkChain, if_neg fresh, found]
  by_cases hsigned : isSigned record = true
  · have hown : (logicalAt? image blockSize lba).toList =
        if (entry record 0).isUsed then [(lba, entry record 0)] else [] := by
      by_cases hused : (entry record 0).isUsed = true
      · simp [logicalAt?, found, hsigned, hused]
      · simp [logicalAt?, found, hused]
    have hlink : linkFrom? image blockSize base lba =
        if (entry record 1).isLink then some (base + (entry record 1).lba) else none := by
      simp [linkFrom?, found, hsigned, Entry.isLink]
    simp only [if_pos hsigned, hown, hlink]
    by_cases hleads : (entry record 1).isLink = true
    · simp only [if_pos hleads]
    · simp only [if_neg hleads]
  · simp [linkFrom?, logicalAt?, found, hsigned]

/-- A record that has been followed joins the visited ones. -/
theorem mem_visited_succ {k lba : Nat} {visited : List Nat}
    (reached : chain image blockSize base k = some lba)
    (hvisited : ∀ block, block ∈ visited ↔ ∃ j < k, chain image blockSize base j = some block)
    (block : Nat) :
    block ∈ lba :: visited ↔ ∃ j < k + 1, chain image blockSize base j = some block := by
  rw [List.mem_cons, hvisited]
  constructor
  · rintro (rfl | ⟨j, hj, heq⟩)
    · exact ⟨k, Nat.lt_succ_self k, reached⟩
    · exact ⟨j, Nat.lt_succ_of_lt hj, heq⟩
  · rintro ⟨j, hj, heq⟩
    rcases Nat.lt_or_eq_of_le (Nat.le_of_lt_succ hj) with hlt | rfl
    · exact Or.inr ⟨j, hlt, heq⟩
    · exact Or.inl (Option.some.inj (heq.symm.trans reached))

/-- From a place of the chain that it has come to without an obstacle, the walk finds the end of
the chain or its first obstacle. -/
theorem walkChain_outcome {k left lba : Nat} {visited : List Nat} (hleft : k + left = 256)
    (reached : chain image blockSize base k = some lba)
    (hvisited : ∀ block, block ∈ visited ↔ ∃ j < k, chain image blockSize base j = some block)
    (passable : Passable image blockSize base k) :
    Outcome image blockSize base k left (walkChain image blockSize base left visited lba) := by
  -- on the links that may still be followed: the visited blocks are those of the earlier places
  induction left generalizing k lba visited with
  | zero =>
    rw [walkChain_zero]
    exact ⟨k, .tooLong reached hleft, fun j hj e => passable.no_obstacle (by omega) hj e⟩
  | succ left ih =>
    have hclear : ∀ j < k, ∀ e, ¬Obstacle image blockSize base j e :=
      fun j hj e => passable.no_obstacle (by omega) hj e
    by_cases hseen : lba ∈ visited
    · rw [walkChain_visited _ _ _ _ hseen]
      exact ⟨k, .repeated reached ((hvisited lba).1 hseen), hclear⟩
    · have hfresh : ∀ j < k, chain image blockSize base j ≠ some lba :=
        fun j hj heq => hseen ((hvisited lba).2 ⟨j, hj, heq⟩)
      cases hfound : image.readBlocks lba 1 blockSize with
      | error cause =>
        rw [walkChain, if_neg hseen, hfound]
        exact ⟨k, .unreadable reached hfresh (by omega) hfound, hclear⟩
      | ok record =>
        have hpassable := passable.succ reached hfound hfresh
        have hlogical : logicalOf? image blockSize base k = logicalAt? image blockSize lba := by
          rw [logicalOf?, reached, Option.bind_some]
        rw [walkChain_fresh hseen hfound, ← hlogical]
        cases hlink : linkFrom? image blockSize base lba with
        | none => exact Outcome.last ⟨by omega, hpassable, by rw [chain_succ reached, hlink]⟩
        | some next =>
          exact Outcome.cons (ih (by omega) ((chain_succ reached).trans hlink)
            (mem_visited_succ reached hvisited) hpassable)

/-- The whole walk, from the container on. -/
theorem walkChain_container (image : Image) (blockSize base : Nat) :
    Outcome image blockSize base 0 256 (walkChain image blockSize base maxLinks [] base) :=
  walkChain_outcome (Nat.zero_add 256) rfl (by simp) fun j hj => absurd hj (Nat.not_lt_zero j)

theorem walkChain_eq_ok {logicals : List (Nat × Entry)}
    (h : walkChain image blockSize base maxLinks [] base = .ok logicals) :
    (∃ k, EndsAt image blockSize base k) ∧ logicals = chainLogicals image blockSize base := by
  have houtcome := walkChain_container image blockSize base
  rw [h] at houtcome
  rwa [chainLogicals, List.range_eq_range']

theorem walkChain_eq_error {e : TableError}
    (h : walkChain image blockSize base maxLinks [] base = .error e) :
    FailsWith image blockSize base e := by
  have houtcome := walkChain_container image blockSize base
  rwa [h] at houtcome

theorem walkChain_of_ends (h : ∃ k, EndsAt image blockSize base k) :
    walkChain image blockSize base maxLinks [] base =
      .ok (chainLogicals image blockSize base) := by
  obtain ⟨k, hends⟩ := h
  cases hwalk : walkChain image blockSize base maxLinks [] base with
  | ok logicals => rw [(walkChain_eq_ok hwalk).2]
  | error e => exact absurd (walkChain_eq_error hwalk) (hends.not_failsWith e)

/-! ## The table -/

section Slots

variable (image : Image) (blockSize : Nat) (record : List UInt8)

/-- Whether the entry in a slot is a container. -/
def IsContainer (slot : Nat) : Prop :=
  (entry record slot).isUsed = true ∧ (entry record slot).isExtended = true

instance (slot : Nat) : Decidable (IsContainer record slot) :=
  inferInstanceAs (Decidable (_ ∧ _))

/-- The logical entries of a slot, which has none unless it is a container. -/
def slotLogicals (slot : Nat) : List (Nat × Entry) :=
  if IsContainer record slot then chainLogicals image blockSize (entry record slot).lba else []

/-- The number of the first logical partition of a slot: those of the slots before come first. -/
def firstNumber (slot : Nat) : Nat :=
  5 + ((List.range slot).flatMap (slotLogicals image blockSize record)).length

/-- The partitions of a slot: those of a container's logicals, which count their blocks from
their own records, or the primary. -/
def slotPartitions (slot : Nat) : List Partition :=
  let e := entry record slot
  if IsContainer record slot then
    ((slotLogicals image blockSize record slot).zipIdx (firstNumber image blockSize record slot)).map
      fun ((origin, logical), number) =>
        ⟨number, origin + logical.lba, logical.sectors, .classic (UInt8.ofNat logical.kind)⟩
  else if e.isUsed then [⟨slot + 1, e.lba, e.sectors, .classic (UInt8.ofNat e.kind)⟩]
  else []

/-- The chain of a container can be followed to its end. -/
def Ends (slot : Nat) : Prop := ∃ k, EndsAt image blockSize (entry record slot).lba k

/-- The container of a slot is the first one whose chain cannot be followed. -/
structure FailsFirst (slot : Nat) (e : TableError) : Prop where
  container : IsContainer record slot
  before : ∀ earlier < slot, IsContainer record earlier → Ends image blockSize record earlier
  fails : FailsWith image blockSize (entry record slot).lba e

end Slots

variable {record : List UInt8}

theorem numberLogicals_eq (index : Nat) (logicals : List (Nat × Entry)) :
    numberLogicals index logicals = (logicals.zipIdx index).map fun ((origin, logical), number) =>
      ⟨number, origin + logical.lba, logical.sectors, .classic (UInt8.ofNat logical.kind)⟩ := by
  induction logicals generalizing index with
  | nil => rfl
  | cons l logicals ih =>
    rw [numberLogicals, ih, List.zipIdx_cons, List.map_cons]
    rfl

theorem firstNumber_succ (slot : Nat) :
    firstNumber image blockSize record (slot + 1) =
      firstNumber image blockSize record slot +
        (slotLogicals image blockSize record slot).length := by
  simp only [firstNumber, List.range_succ, List.flatMap_append, List.length_append,
    List.flatMap_singleton]
  omega

/-- Past a slot whose chain, if it has one, comes to its end, reading goes on with what the slot
adds. -/
theorem readEntries_passed {slot : Nat} {entries : List Entry}
    (h : IsContainer record slot → Ends image blockSize record slot) :
    readEntries image blockSize slot (firstNumber image blockSize record slot)
        (entry record slot :: entries) =
      (readEntries image blockSize (slot + 1) (firstNumber image blockSize record (slot + 1))
        entries).map (slotPartitions image blockSize record slot ++ ·) := by
  rw [readEntries, firstNumber_succ]
  by_cases hcontainer : IsContainer record slot
  · have hlogicals : slotLogicals image blockSize record slot =
        chainLogicals image blockSize (entry record slot).lba := if_pos hcontainer
    have hunused : ¬(!(entry record slot).isUsed) = true := by simp [hcontainer.1]
    rw [if_neg hunused, if_pos hcontainer.2, walkChain_of_ends (h hcontainer)]
    simp only [slotPartitions, if_pos hcontainer, hlogicals, numberLogicals_eq]
    rfl
  · -- no logicals, so the number stays
    have hlogicals : slotLogicals image blockSize record slot = [] := if_neg hcontainer
    rw [hlogicals, List.length_nil, Nat.add_zero]
    by_cases hused : (entry record slot).isUsed = true
    · have hplain : ¬(entry record slot).isExtended = true := fun h => hcontainer ⟨hused, h⟩
      have hunused : ¬(!(entry record slot).isUsed) = true := by simp [hused]
      rw [if_neg hunused, if_neg hplain]
      simp only [slotPartitions, if_neg hcontainer, if_pos hused, Entry.toPartition, Nat.zero_add]
      rfl
    · have hunused : (!(entry record slot).isUsed) = true := by simpa using hused
      rw [if_pos hunused]
      simp only [slotPartitions, if_neg hcontainer, if_neg hused, List.nil_append]
      cases readEntries image blockSize (slot + 1) (firstNumber image blockSize record slot)
        entries <;> rfl

theorem readEntries_stuck {slot next : Nat} {entries : List Entry} {e : TableError}
    (hcontainer : IsContainer record slot)
    (h : walkChain image blockSize (entry record slot).lba maxLinks [] (entry record slot).lba =
      .error e) :
    readEntries image blockSize slot next (entry record slot :: entries) = .error e := by
  have hunused : ¬(!(entry record slot).isUsed) = true := by simp [hcontainer.1]
  rw [readEntries, if_neg hunused, if_pos hcontainer.2, h]
  rfl

/-- What reading the slots from `slot` on comes to, after all containers before have been followed
to their ends. -/
theorem readEntries_outcome {slot : Nat} (count : Nat)
    (hbefore : ∀ earlier < slot, IsContainer record earlier →
      Ends image blockSize record earlier) :
    match readEntries image blockSize slot (firstNumber image blockSize record slot)
      ((List.range' slot count).map (entry record)) with
    | .ok ps =>
      (∀ s < slot + count, IsContainer record s → Ends image blockSize record s) ∧
        ps = (List.range' slot count).flatMap (slotPartitions image blockSize record)
    | .error e => ∃ s < slot + count, FailsFirst image blockSize record s e := by
  -- on the slots that are left; a slot hands on the number of the next logical partition
  induction count generalizing slot with
  | zero => exact ⟨hbefore, rfl⟩
  | succ count ih =>
    rw [List.range'_succ, List.map_cons, List.flatMap_cons]
    by_cases hends : IsContainer record slot → Ends image blockSize record slot
    · have hbefore' : ∀ earlier < slot + 1, IsContainer record earlier →
          Ends image blockSize record earlier := by
        intro earlier hearlier
        rcases Nat.lt_or_eq_of_le (Nat.le_of_lt_succ hearlier) with hlt | rfl
        · exact hbefore earlier hlt
        · exact hends
      have hrest := ih hbefore'
      rw [show slot + 1 + count = slot + (count + 1) by omega] at hrest
      rw [readEntries_passed hends]
      cases hread : readEntries image blockSize (slot + 1)
          (firstNumber image blockSize record (slot + 1))
          ((List.range' (slot + 1) count).map (entry record)) with
      | error e => rwa [hread] at hrest
      | ok rest =>
        rw [hread] at hrest
        exact ⟨hrest.1, congrArg _ hrest.2⟩
    · -- a chain that does not end has an obstacle, and the walk finds it
      obtain ⟨hcontainer, hstuck⟩ := Classical.not_imp.1 hends
      cases hwalk : walkChain image blockSize (entry record slot).lba maxLinks []
          (entry record slot).lba with
      | ok logicals => exact absurd (walkChain_eq_ok hwalk).1 hstuck
      | error e =>
        rw [readEntries_stuck hcontainer hwalk]
        exact ⟨slot, by omega, hcontainer, hbefore, walkChain_eq_error hwalk⟩

theorem FailsFirst.not_ends {slot : Nat} {e : TableError}
    (h : FailsFirst image blockSize record slot e) : ¬Ends image blockSize record slot :=
  fun ⟨_, hends⟩ => hends.not_failsWith e h.fails

theorem FailsFirst.unique {slot slot' : Nat} {e e' : TableError}
    (h : FailsFirst image blockSize record slot e)
    (h' : FailsFirst image blockSize record slot' e') : e = e' := by
  rcases Nat.lt_trichotomy slot slot' with hlt | rfl | hlt
  · exact absurd (h'.before slot hlt h.container) h.not_ends
  · exact h.fails.unique h'.fails
  · exact absurd (h.before slot' hlt h'.container) h'.not_ends

/-- Reading a boot record with the signature and without a guard of a GUID table. -/
theorem read_of_signed (found : image.readBlocks 0 1 blockSize = .ok record)
    (signed : isSigned record = true) (unguarded : ∀ slot < 4, (entry record slot).kind ≠ 0xEE) :
    read image blockSize =
      (readEntries image blockSize 0 firstLogical ((List.range' 0 4).map (entry record))).map
        some := by
  have hguard : ¬((List.range 4).map (entry record)).any Entry.isProtective = true := by
    intro hany
    obtain ⟨e, he, hprotective⟩ := List.any_eq_true.1 hany
    obtain ⟨slot, hslot, rfl⟩ := List.mem_map.1 he
    exact unguarded slot (List.mem_range.1 hslot) (by simpa [Entry.isProtective] using hprotective)
  rw [read, Image.readBlocks?_of_found found]
  simp only [signed, Bool.not_true, Bool.false_eq_true, if_false, if_neg hguard,
    ← List.range_eq_range']

/-- A boot record is read exactly when the chains of all its containers can be followed to their
ends; its partitions are then the primaries and, numbered on from five over all containers, one for
each used logical entry. Otherwise the first container whose chain has an obstacle decides the
error, and its first obstacle is the error. -/
theorem read_exact (found : image.readBlocks 0 1 blockSize = .ok record)
    (signed : isSigned record = true) (unguarded : ∀ slot < 4, (entry record slot).kind ≠ 0xEE) :
    (∀ ps, read image blockSize = .ok (some ps) ↔
      (∀ slot < 4, IsContainer record slot → Ends image blockSize record slot) ∧
        ps = (List.range 4).flatMap (slotPartitions image blockSize record)) ∧
    (∀ e, read image blockSize = .error e ↔
      ∃ slot < 4, FailsFirst image blockSize record slot e) ∧
    read image blockSize ≠ .ok none := by
  have hbefore : ∀ earlier < 0, IsContainer record earlier → Ends image blockSize record earlier :=
    fun earlier hearlier => absurd hearlier (Nat.not_lt_zero earlier)
  have houtcome := readEntries_outcome 4 hbefore
  rw [read_of_signed found signed unguarded]
  rw [show firstNumber image blockSize record 0 = firstLogical from rfl, Nat.zero_add] at houtcome
  cases hread : readEntries image blockSize 0 firstLogical
      ((List.range' 0 4).map (entry record)) with
  | ok found =>
    rw [hread] at houtcome
    obtain ⟨hends, rfl⟩ := houtcome
    refine ⟨fun ps => ?_, fun e => ?_, by simp [Except.map]⟩
    · rw [Except.map, Except.ok.injEq, Option.some.injEq, List.range_eq_range', eq_comm]
      exact ⟨fun h => ⟨hends, h⟩, fun h => h.2⟩
    · refine ⟨fun h => by simp [Except.map] at h, fun ⟨slot, hslot, hfails⟩ => ?_⟩
      exact absurd (hends slot hslot hfails.container) hfails.not_ends
  | error cause =>
    rw [hread] at houtcome
    obtain ⟨slot, hslot, hfails⟩ := houtcome
    refine ⟨fun ps => ?_, fun e => ?_, by simp [Except.map]⟩
    · refine ⟨fun h => by simp [Except.map] at h, fun ⟨hends, _⟩ => ?_⟩
      exact absurd (hends slot hslot hfails.container) hfails.not_ends
    · rw [Except.map, Except.error.injEq]
      constructor
      · rintro rfl
        exact ⟨slot, hslot, hfails⟩
      · rintro ⟨slot', -, hfails'⟩
        exact hfails.unique hfails'

/-- A device of eight blocks with a primary and a container. The chain of the container goes from
block 1 to block 2 and from there back to block 2. -/
def loopedImage : Image where
  contents :=
    let primary := [0, 0, 0, 0, 0x83, 0, 0, 0, 4, 0, 0, 0, 2, 0, 0, 0]
    let container := [0, 0, 0, 0, 0x05, 0, 0, 0, 1, 0, 0, 0, 7, 0, 0, 0]
    let logical := [0, 0, 0, 0, 0x83, 0, 0, 0, 5, 0, 0, 0, 1, 0, 0, 0]
    let link := [0, 0, 0, 0, 0x0F, 0, 0, 0, 1, 0, 0, 0, 7, 0, 0, 0]
    let record (first second : List UInt8) :=
      List.replicate 446 0 ++ first ++ second ++ List.replicate 32 0 ++ [0x55, 0xAA]
    let blank := List.replicate 16 0
    ⟨4096, (record primary container ++ record logical link ++ record blank link).toArray⟩

theorem read_exact_looped :
    (∃ record, loopedImage.readBlocks 0 1 512 = .ok record ∧ isSigned record = true ∧
      ∀ slot < 4, (entry record slot).kind ≠ 0xEE) ∧
    read loopedImage 512 = .error (.badChain 2) := by
  have hfound (lba : Nat) (h : lba < 8) : loopedImage.readBlocks lba 1 512 =
      .ok (loopedImage.contents.read (lba * 512) 512) := by
    refine Image.readBlocks_eq_ok_iff.2 ⟨?_, by decide, fun _ => ⟨rfl, ?_⟩, rfl⟩
    · have : maxWord = 18446744073709551615 := rfl
      omega
    · have : loopedImage.contents.size = 4096 := rfl
      omega
  have hsigned : isSigned (loopedImage.contents.read 0 512) = true := by decide +kernel
  have hunguarded : ∀ slot < 4, (entry (loopedImage.contents.read 0 512) slot).kind ≠ 0xEE := by
    decide +kernel
  refine ⟨⟨_, hfound 0 (by decide), hsigned, hunguarded⟩, ?_⟩
  -- the second slot is the only container; its chain has the blocks 1, 2, 2
  have hcontainer : ¬IsContainer (loopedImage.contents.read 0 512) 0 ∧
      IsContainer (loopedImage.contents.read 0 512) 1 ∧
      (entry (loopedImage.contents.read 0 512) 1).lba = 1 := by decide +kernel
  have hchain : chain loopedImage 512 1 1 = some 2 ∧ chain loopedImage 512 1 2 = some 2 := by
    decide +kernel
  have hpassable : Passable loopedImage 512 1 2 := by
    have hstart : Passable loopedImage 512 1 0 := fun j hj => absurd hj (Nat.not_lt_zero j)
    refine (hstart.succ rfl (hfound 1 (by decide)) ?_).succ hchain.1 (hfound 2 (by decide)) ?_
    · exact fun j hj => absurd hj (Nat.not_lt_zero j)
    · intro j hj
      rw [Nat.lt_one_iff.1 hj]
      simp [chain]
  refine ((read_exact (hfound 0 (by decide)) hsigned hunguarded).2.1 _).2
    ⟨1, by decide, hcontainer.2.1, fun earlier hearlier h => ?_, 2, ?_, fun j hj e => ?_⟩
  · rw [Nat.lt_one_iff.1 hearlier] at h
    exact absurd h hcontainer.1
  · rw [hcontainer.2.2]
    exact .repeated hchain.2 ⟨1, by decide, hchain.1⟩
  · rw [hcontainer.2.2]
    exact hpassable.no_obstacle (by decide) hj e

end BlockMux.BootRecord
