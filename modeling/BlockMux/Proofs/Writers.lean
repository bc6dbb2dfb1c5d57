import BlockMux.Access.Roster
import Mathlib.Data.List.Induction

/-!
# Writers never share a block

A roster in use: grants are entered and given up in any order, and each ticket takes exactly one
grant off the roster again. What the roster then lists is told by the visits alone, a list with one
place for everyone who was ever let in; and among those listed no two may write to the same block.

Main statements:

* `conflict_iff` — the test of the roster is about blocks, in both directions.
* `Desk.Tracks.move` — every entry of the roster stands for one visit that is not over.
* `Desk.writers_apart` — writers are kept apart, and nobody else is turned away.
-/

namespace BlockMux

/-! ## Blocks -/

namespace Grant

/-- The block lies in the window. -/
def Covers (g : Grant) (block : Nat) : Prop := g.offset ≤ block ∧ block < g.stop

/-- Both may write, and to a common block. -/
def Clashes (g h : Grant) : Prop :=
  g.writeable = true ∧ h.writeable = true ∧ ∃ block, g.Covers block ∧ h.Covers block

theorem overlaps_of_covers {g h : Grant} {block : Nat} (hg : g.Covers block) (hh : h.Covers block) :
    g.overlaps h = true := by
  unfold Covers at hg hh
  simp only [overlaps, Bool.and_eq_true, decide_eq_true_eq]
  omega

/-- Windows that are not empty overlap exactly when they share a block. -/
theorem overlaps_iff {g h : Grant} (hg : 1 ≤ g.span) (hh : 1 ≤ h.span) :
    g.overlaps h = true ↔ ∃ block, g.Covers block ∧ h.Covers block := by
  constructor
  · -- the later of the two starts lies in both
    intro hoverlaps
    simp only [overlaps, Bool.and_eq_true, decide_eq_true_eq] at hoverlaps
    refine ⟨max g.offset h.offset, ?_⟩
    unfold Covers
    unfold stop at hoverlaps ⊢
    omega
  · rintro ⟨block, hcovered, hcovered'⟩
    exact overlaps_of_covers hcovered hcovered'

end Grant

namespace Roster

theorem conflict_of_clashes {g h : Grant} (hclash : g.Clashes h) : conflict g h = true := by
  obtain ⟨hg, hh, block, hcovered, hcovered'⟩ := hclash
  simp only [conflict, Grant.overlaps_of_covers hcovered hcovered', hg, hh, Bool.and_true]

theorem conflict_iff {g h : Grant} (hg : 1 ≤ g.span) (hh : 1 ≤ h.span) :
    conflict g h = true ↔ g.Clashes h := by
  constructor
  · intro hconflict
    simp only [conflict, Bool.and_eq_true] at hconflict
    obtain ⟨⟨hoverlaps, hwrite⟩, hwrite'⟩ := hconflict
    exact ⟨hwrite, hwrite', (Grant.overlaps_iff hg hh).1 hoverlaps⟩
  · exact conflict_of_clashes

/-! ## Entering and leaving -/

/-- Whoever is let in conflicts with nobody, and is entered last under a new ticket. -/
theorem register_eq_ok {roster next : Roster} {g : Grant} {ticket : Nat}
    (h : roster.register g = .ok (next, ticket)) :
    (∀ other ∈ roster.grants, conflict g other = false) ∧ ticket = roster.nextTicket ∧
      next = ⟨roster.nextTicket + 1, roster.entries ++ [(roster.nextTicket, g)]⟩ := by
  unfold register at h
  split at h
  · simp at h
  · rename_i hnone
    simp only [Except.ok.injEq, Prod.mk.injEq] at h
    refine ⟨?_, h.2.symm, h.1.symm⟩
    intro other hmem
    simpa using List.find?_eq_none.1 hnone other hmem

/-- Whoever is turned away conflicts with the one that is named, and with nobody before. -/
theorem register_eq_error {roster : Roster} {g : Grant} {e : Denial}
    (h : roster.register g = .error e) :
    ∃ earlier other later, roster.grants = earlier ++ other :: later ∧ conflict g other = true ∧
      (∀ k ∈ earlier, conflict g k = false) ∧ e = .writeConflict other.label := by
  unfold register at h
  split at h
  · rename_i other hother
    obtain ⟨hconflict, earlier, later, hgrants, hbefore⟩ := List.find?_eq_some_iff_append.1 hother
    refine ⟨earlier, other, later, hgrants, hconflict, ?_, ?_⟩
    · intro k hk
      simpa using hbefore k hk
    · simp only [Except.error.injEq] at h
      exact h.symm
  · simp at h

end Roster

/-! ## A desk -/

/-- What happens at a desk. -/
inductive Move where
  /-- A grant is entered on the roster, if that is possible. -/
  | enter (grant : Grant)
  /-- What was entered under a ticket is given up. -/
  | leave (ticket : Nat)
  deriving DecidableEq, Repr

/-- Whether a grant to be entered has at least one block. -/
def Move.isProper : Move → Bool
  | .enter g => 1 ≤ g.span
  | .leave _ => true

/-- A roster in use. -/
structure Desk where
  roster : Roster := {}
  /-- The grants that were let in, in order, with `none` for each one given up since. -/
  visits : List (Option Grant) := []
  deriving DecidableEq, Repr

namespace Desk

/-- The grants for visits that are not over. -/
def present (visits : List (Option Grant)) : List Grant := visits.filterMap id

/-- The desk after a move. -/
def move (desk : Desk) : Move → Desk
  | .enter g =>
    match desk.roster.register g with
    | .error _ => desk
    | .ok (roster, _) => ⟨roster, desk.visits ++ [some g]⟩
  | .leave ticket => ⟨desk.roster.release ticket, desk.visits.set ticket none⟩

/-- The desk after moves in order. -/
def run (desk : Desk) (moves : List Move) : Desk := moves.foldl move desk

theorem run_concat (desk : Desk) (moves : List Move) (move : Move) :
    desk.run (moves ++ [move]) = (desk.run moves).move move := by
  rw [run, List.foldl_append]
  rfl

/-! ## Entries and visits -/

/-- The entries for visits that are not over, where the first visit has the ticket `first`. -/
def standing (first : Nat) : List (Option Grant) → List (Nat × Grant)
  | [] => []
  | none :: visits => standing (first + 1) visits
  | some g :: visits => (first, g) :: standing (first + 1) visits

theorem standing_append (first : Nat) (visits later : List (Option Grant)) :
    standing first (visits ++ later) =
      standing first visits ++ standing (first + visits.length) later := by
  induction visits generalizing first with
  | nil => rfl
  | cons visit visits ih =>
    have hfirst : first + 1 + visits.length = first + (visits.length + 1) := by omega
    cases visit with
    | none => rw [List.cons_append, standing, standing, ih, hfirst, List.length_cons]
    | some g =>
      rw [List.cons_append, standing, standing, ih, hfirst, List.length_cons, List.cons_append]

/-- Tickets are handed out in order. -/
theorem ticket_of_standing {first : Nat} {visits : List (Option Grant)} {entry : Nat × Grant}
    (h : entry ∈ standing first visits) : first ≤ entry.1 ∧ entry.1 < first + visits.length := by
  induction visits generalizing first with
  | nil => simp [standing] at h
  | cons visit visits ih =>
    rw [List.length_cons]
    cases visit with
    | none =>
      have := ih h
      omega
    | some g =>
      rcases List.mem_cons.1 h with rfl | hlater
      · dsimp only
        omega
      · have := ih hlater
        omega

theorem grants_standing (first : Nat) (visits : List (Option Grant)) :
    (standing first visits).map (·.2) = present visits := by
  induction visits generalizing first with
  | nil => rfl
  | cons visit visits ih =>
    cases visit with
    | none => exact ih (first + 1)
    | some g =>
      rw [standing, List.map_cons, ih]
      rfl

/-- A visit ends by taking out what stands under its ticket. -/
theorem standing_set (first ticket : Nat) (visits : List (Option Grant)) :
    standing first (visits.set ticket none) =
      (standing first visits).filter (·.1 != first + ticket) := by
  -- on the visits: the one that ends is the first one here, or a later one
  induction visits generalizing first ticket with
  | nil => rfl
  | cons visit visits ih =>
    cases ticket with
    | zero =>
      have hlater : (standing (first + 1) visits).filter (·.1 != first + 0) =
          standing (first + 1) visits := by
        refine List.filter_eq_self.2 fun entry hmem => ?_
        have := ticket_of_standing hmem
        simp only [bne_iff_ne, ne_eq]
        omega
      cases visit with
      | none => rw [List.set_cons_zero, standing, hlater]
      | some g =>
        rw [List.set_cons_zero, standing, standing, List.filter_cons_of_neg (by simp), hlater]
    | succ ticket =>
      have hticket : first + 1 + ticket = first + (ticket + 1) := by omega
      have hlater := ih (first + 1) ticket
      rw [hticket] at hlater
      cases visit with
      | none => rw [List.set_cons_succ, standing, standing, hlater]
      | some g =>
        have hkept : (first != first + (ticket + 1)) = true := by
          simp only [bne_iff_ne, ne_eq]
          omega
        rw [List.set_cons_succ, standing, standing, hlater, List.filter_cons]
        dsimp only
        rw [if_pos hkept]

/-- The roster lists exactly the visits that are not over, each under its place as its ticket. -/
structure Tracks (desk : Desk) : Prop where
  next : desk.roster.nextTicket = desk.visits.length
  entries : desk.roster.entries = standing 0 desk.visits

variable {desk : Desk}

theorem Tracks.grants (h : desk.Tracks) : desk.roster.grants = present desk.visits := by
  rw [Roster.grants, h.entries, grants_standing]

theorem Tracks.move (h : desk.Tracks) (move : Move) : (desk.move move).Tracks := by
  cases move with
  | enter g =>
    rw [Desk.move]
    split
    · exact h
    · rename_i next ticket hregister
      obtain ⟨-, -, rfl⟩ := Roster.register_eq_ok hregister
      refine ⟨?_, ?_⟩
      · simp only [h.next, List.length_append, List.length_singleton]
      · simp only [h.entries, h.next, standing_append, Nat.zero_add, standing]
  | leave ticket =>
    refine ⟨?_, ?_⟩
    · show desk.roster.nextTicket = (desk.visits.set ticket none).length
      rw [h.next, List.length_set]
    · show desk.roster.entries.filter (·.1 != ticket) = standing 0 (desk.visits.set ticket none)
      rw [h.entries, standing_set, Nat.zero_add]

theorem Tracks.run (h : desk.Tracks) (moves : List Move) : (desk.run moves).Tracks := by
  induction moves using List.reverseRecOn with
  | nil => exact h
  | append_singleton moves move ih =>
    rw [run_concat]
    exact ih.move move

/-- A visit that is not over stays so, whatever else happens. -/
theorem visit_run {ticket : Nat} {g : Grant} (h : desk.visits[ticket]? = some (some g))
    {moves : List Move} (hstays : .leave ticket ∉ moves) :
    (desk.run moves).visits[ticket]? = some (some g) := by
  induction moves using List.reverseRecOn with
  | nil => exact h
  | append_singleton moves move ih =>
    simp only [List.mem_append, List.mem_singleton, not_or] at hstays
    have hsofar := ih hstays.1
    have hlt := (List.getElem?_eq_some_iff.1 hsofar).1
    rw [run_concat]
    cases move with
    | enter other =>
      -- a new visit comes behind all others, whether or not it is let in
      rw [Desk.move]
      split
      · exact hsofar
      · exact (List.getElem?_append_left hlt).trans hsofar
    | leave other =>
      have hne : other ≠ ticket := by
        rintro rfl
        exact hstays.2 rfl
      exact (List.getElem?_set_ne hne).trans hsofar

/-- The grant is listed for the visit with this ticket, between those for earlier and later visits,
and ending the visit takes it off the roster and leaves the others. -/
structure Returns (desk : Desk) (ticket : Nat) (g : Grant) : Prop where
  listed : desk.roster.grants = present (desk.visits.take ticket) ++
    g :: present (desk.visits.drop (ticket + 1))
  left : (desk.move (.leave ticket)).roster.grants = present (desk.visits.take ticket) ++
    present (desk.visits.drop (ticket + 1))

theorem Tracks.returns (h : desk.Tracks) {ticket : Nat} {g : Grant}
    (hvisit : desk.visits[ticket]? = some (some g)) : desk.Returns ticket g := by
  obtain ⟨hlt, hget⟩ := List.getElem?_eq_some_iff.1 hvisit
  refine ⟨?_, ?_⟩
  · have hsplit : desk.visits = desk.visits.take ticket ++
        some g :: desk.visits.drop (ticket + 1) := by
      rw [← hget, List.getElem_cons_drop, List.take_append_drop]
    rw [h.grants]
    conv_lhs => rw [hsplit]
    exact List.filterMap_append
  · have hset : desk.visits.set ticket none = desk.visits.take ticket ++
        none :: desk.visits.drop (ticket + 1) := List.set_eq_take_append_cons_drop ▸ if_pos hlt
    rw [(h.move (.leave ticket)).grants]
    show present (desk.visits.set ticket none) = _
    rw [hset]
    exact List.filterMap_append

/-! ## Writers -/

/-- No two entries clash, and none is empty. -/
structure Sound (desk : Desk) : Prop where
  proper : ∀ g ∈ desk.roster.grants, 1 ≤ g.span
  apart : desk.roster.grants.Pairwise fun g h => ¬ g.Clashes h

theorem Sound.move (h : desk.Sound) {move : Move} (hmove : move.isProper = true) :
    (desk.move move).Sound := by
  cases move with
  | enter g =>
    rw [Desk.move]
    split
    · exact h
    · rename_i next ticket hregister
      obtain ⟨hfree, -, -⟩ := Roster.register_eq_ok hregister
      have hgrants := Roster.grants_register hregister
      refine ⟨?_, ?_⟩
      · dsimp only
        rw [hgrants]
        intro k hk
        rcases List.mem_append.1 hk with hold | hnew
        · exact h.proper k hold
        · obtain rfl := List.mem_singleton.1 hnew
          simpa [Move.isProper] using hmove
      · dsimp only
        rw [hgrants, List.pairwise_append]
        refine ⟨h.apart, List.pairwise_singleton _ _, ?_⟩
        intro k hk other hother hclash
        obtain rfl := List.mem_singleton.1 hother
        -- sharing a block is symmetric, so the test that the new grant passed excludes this
        obtain ⟨hwrite, hwrite', block, hcovered, hcovered'⟩ := hclash
        have hconflict : Roster.conflict other k = true :=
          Roster.conflict_of_clashes ⟨hwrite', hwrite, block, hcovered', hcovered⟩
        rw [hfree k hk] at hconflict
        simp at hconflict
  | leave ticket =>
    have hsub : (desk.roster.release ticket).grants.Sublist desk.roster.grants :=
      List.filter_sublist.map _
    exact ⟨fun g hmem => h.proper g (hsub.subset hmem), h.apart.sublist hsub⟩

/-- What a desk keeps: writers apart, and a record of who is on the roster. -/
structure Kept (desk : Desk) : Prop where
  /-- No two entries may write to the same block. -/
  apart : desk.roster.grants.Pairwise fun g h => ¬ g.Clashes h
  /-- The roster lists what was entered and not given up, in the order it was entered. -/
  listed : desk.roster.grants = present desk.visits
  /-- A grant is refused exactly when it clashes with an entry. -/
  refused : ∀ g, 1 ≤ g.span →
    ((∃ e, desk.roster.register g = .error e) ↔ ∃ other ∈ desk.roster.grants, g.Clashes other)
  /-- The refusal names the earliest of these entries, and changes nothing. -/
  named : ∀ g e, 1 ≤ g.span → desk.roster.register g = .error e →
    desk.move (.enter g) = desk ∧
      ∃ earlier other later, desk.roster.grants = earlier ++ other :: later ∧ g.Clashes other ∧
        (∀ k ∈ earlier, ¬ g.Clashes k) ∧ e = .writeConflict other.label
  /-- What is let in comes last, and its ticket takes it off again, and nothing else, whatever has
  happened in between. -/
  entered : ∀ g next ticket, desk.roster.register g = .ok (next, ticket) →
    next.grants = desk.roster.grants ++ [g] ∧
      desk.move (.enter g) = ⟨next, desk.visits ++ [some g]⟩ ∧
      ∀ between, .leave ticket ∉ between → ((desk.move (.enter g)).run between).Returns ticket g

theorem Sound.kept (h : desk.Sound) (htracks : desk.Tracks) : desk.Kept := by
  refine ⟨h.apart, htracks.grants, ?_, ?_, ?_⟩
  · intro g hg
    constructor
    · rintro ⟨e, he⟩
      obtain ⟨earlier, other, later, hgrants, hconflict, -, -⟩ := Roster.register_eq_error he
      have hother : other ∈ desk.roster.grants := by simp [hgrants]
      exact ⟨other, hother, (Roster.conflict_iff hg (h.proper other hother)).1 hconflict⟩
    · rintro ⟨other, hother, hclash⟩
      cases hregister : desk.roster.register g with
      | error e => exact ⟨e, rfl⟩
      | ok found =>
        -- it would have passed the test against the entry that it clashes with
        have hfree := (Roster.register_eq_ok hregister).1 other hother
        rw [Roster.conflict_of_clashes hclash] at hfree
        simp at hfree
  · intro g e hg he
    obtain ⟨earlier, other, later, hgrants, hconflict, hbefore, hlabel⟩ :=
      Roster.register_eq_error he
    refine ⟨by rw [Desk.move, he], earlier, other, later, hgrants, ?_, ?_, hlabel⟩
    · exact (Roster.conflict_iff hg (h.proper other (by simp [hgrants]))).1 hconflict
    · intro k hk hclash
      have hfree := hbefore k hk
      rw [Roster.conflict_of_clashes hclash] at hfree
      simp at hfree
  · intro g next ticket hregister
    obtain ⟨-, hticket, -⟩ := Roster.register_eq_ok hregister
    have hmove : desk.move (.enter g) = ⟨next, desk.visits ++ [some g]⟩ := by
      rw [Desk.move, hregister]
    refine ⟨Roster.grants_register hregister, hmove, ?_⟩
    intro between hstays
    have hentered : (desk.move (.enter g)).visits[ticket]? = some (some g) := by
      rw [hmove, hticket, htracks.next]
      exact List.getElem?_concat_length
    exact ((htracks.move (.enter g)).run between).returns (visit_run hentered hstays)

/-- However grants that are not empty are entered and given up, two of those on the roster never
may write to the same block. Nobody is refused for another reason, the refusal names the earliest
writer in the way, and every ticket takes exactly its own grant off the roster. -/
theorem writers_apart (moves : List Move) (hproper : ∀ move ∈ moves, move.isProper = true) :
    (run {} moves).Kept := by
  have hsound : (run {} moves).Sound := by
    induction moves using List.reverseRecOn with
    | nil => exact ⟨fun g hmem => by simp [run, Roster.grants] at hmem, List.Pairwise.nil⟩
    | append_singleton moves move ih =>
      rw [run_concat]
      exact (ih fun earlier hmem => hproper earlier (List.mem_append_left _ hmem)).move
        (hproper move (by simp))
  have hstart : Tracks {} := ⟨rfl, rfl⟩
  exact hsound.kept (hstart.run moves)

/-- A reader enters the same grant twice and gives the first one up, beside a writer that keeps
another one out. -/
def twins : List Move :=
  [.enter ⟨"reader", 0, 8, true, false⟩, .enter ⟨"reader", 0, 8, true, false⟩,
    .enter ⟨"writer", 4, 2, true, true⟩, .enter ⟨"late", 5, 1, true, true⟩, .leave 0]

theorem writers_apart_twins :
    (run {} twins).visits = [none, some ⟨"reader", 0, 8, true, false⟩,
      some ⟨"writer", 4, 2, true, true⟩] ∧ (run {} twins).Kept :=
  ⟨by decide, writers_apart twins (by decide)⟩

end Desk
end BlockMux
