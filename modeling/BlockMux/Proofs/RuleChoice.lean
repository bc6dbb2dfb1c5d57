import BlockMux.Access.Rule

/-!
# The choice of a rule

The rule that decides about a label is found in one pass that compares ranks. Here it is said
without the pass and without ranks as numbers: which rules match a label, which of two matches is
the better one, and that the first of the best matches decides.

Main statements:

* `Matches`, `Outranks`, `below_iff_outranks` — what matches, and which match is better.
* `best?_eq_some_iff` — what the pass finds.
* `bestRule?_eq_some_iff_find?` — that is the first rule of the greatest rank.
* `best_insert` — one more rule either decides or changes nothing.
* `bestRule?_congr` — only the order among matches of one rank counts.
* `choice_firstBest` — all of this at once.
-/

namespace BlockMux

/-! ## Ranks -/

namespace Rank

theorem below_iff {a b : Rank} :
    a.below b = true ↔ a.tier < b.tier ∨ a.tier = b.tier ∧ a.length < b.length := by
  simp [below]

theorem below_eq_false_iff {a b : Rank} :
    a.below b = false ↔ b.tier < a.tier ∨ b.tier = a.tier ∧ b.length ≤ a.length := by
  rw [← Bool.not_eq_true, below_iff]
  omega

theorem below_irrefl (a : Rank) : a.below a = false :=
  below_eq_false_iff.2 (.inr ⟨rfl, Nat.le_refl _⟩)

theorem not_below_of_below {a b : Rank} (h : a.below b = true) : b.below a = false := by
  rw [below_iff] at h
  rw [below_eq_false_iff]
  omega

theorem not_below_trans {a b c : Rank} (hab : a.below b = false) (hbc : b.below c = false) :
    a.below c = false := by
  rw [below_eq_false_iff] at *
  omega

/-- Ranks of which neither is below the other are equal. -/
theorem eq_of_not_below {a b : Rank} (hab : a.below b = false) (hba : b.below a = false) :
    a = b := by
  rw [below_eq_false_iff] at hab hba
  obtain ⟨tier, length⟩ := a
  obtain ⟨tier', length'⟩ := b
  simp only [mk.injEq] at *
  omega

end Rank

namespace Rule

/-! ## Matches -/

/-- Whether a rule is for a label: for its own and no other, if it names one, and else for each with
the prefix and the suffix that it asks for. -/
def Matches (rule : Rule) (label : String) : Prop :=
  match rule.label with
  | some exact => exact = label
  | none => (∀ p ∈ rule.labelPrefix, p.toList <+: label.toList) ∧
      ∀ s ∈ rule.labelSuffix, s.toList <:+ label.toList

/-- The bytes that the prefix and the suffix of a rule have in all. -/
def affixBytes (rule : Rule) : Nat := affixLength rule.labelPrefix + affixLength rule.labelSuffix

/-- A rule that asks for a prefix or a suffix, be it an empty one. -/
def HasAffix (rule : Rule) : Prop := rule.labelPrefix ≠ none ∨ rule.labelSuffix ≠ none

/-- Of two rules that match a label, whether the first is the better match: it names the label and
the other does not, or neither does, and it asks for a prefix or suffix where the other does not, or
for more bytes of them. -/
def Outranks (a b : Rule) : Prop :=
  (a.label ≠ none ∧ b.label = none) ∨
    (a.label = none ∧ b.label = none ∧ a.HasAffix ∧ (¬b.HasAffix ∨ b.affixBytes < a.affixBytes))

theorem hasAffix_iff {rule : Rule} :
    rule.HasAffix ↔ (rule.labelPrefix.isNone && rule.labelSuffix.isNone) = false := by
  unfold HasAffix
  cases rule.labelPrefix <;> cases rule.labelSuffix <;> simp

theorem affixes_match_iff {rule : Rule} {label : String} :
    (rule.prefixMatches label && rule.suffixMatches label) = true ↔
      (∀ p ∈ rule.labelPrefix, p.toList <+: label.toList) ∧
        ∀ s ∈ rule.labelSuffix, s.toList <:+ label.toList := by
  simp only [prefixMatches, suffixMatches, Bool.and_eq_true, Option.all_eq_true,
    List.isPrefixOf_iff_prefix, List.isSuffixOf_iff_suffix, Option.mem_def]

/-- The three kinds of match, with their ranks. -/
inductive Ranked (rule : Rule) (label : String) : Rank → Prop
  | named (name : rule.label = some label) : Ranked rule label ⟨2, label.utf8ByteSize⟩
  | affixed (unnamed : rule.label = none) (affix : rule.HasAffix) :
      Ranked rule label ⟨1, rule.affixBytes⟩
  | fallback (unnamed : rule.label = none) (plain : ¬rule.HasAffix) : Ranked rule label ⟨0, 0⟩

theorem ranked_of_rank? {rule : Rule} {label : String} {rank : Rank}
    (h : rule.rank? label = some rank) : rule.Ranked label rank := by
  unfold rank? at h
  split at h
  · rename_i exact hname
    split at h
    · rename_i hexact
      obtain rfl := Option.some.inj h
      subst hexact
      exact .named hname
    · cases h
  · rename_i hname
    by_cases haffix : rule.HasAffix
    · rw [if_neg (by rw [hasAffix_iff.1 haffix]; exact Bool.false_ne_true)] at h
      split at h
      · obtain rfl := Option.some.inj h
        exact .affixed hname haffix
      · cases h
    · rw [hasAffix_iff, Bool.not_eq_false] at haffix
      rw [if_pos haffix] at h
      obtain rfl := Option.some.inj h
      exact .fallback hname fun hnot => by simp [hasAffix_iff.1 hnot] at haffix

theorem rank?_isSome_iff {rule : Rule} {label : String} :
    (rule.rank? label).isSome = true ↔ rule.Matches label := by
  unfold rank? Matches
  cases rule.label with
  | some exact => by_cases h : exact = label <;> simp [h]
  | none =>
    rw [← affixes_match_iff]
    by_cases haffix : rule.HasAffix
    · rw [hasAffix_iff] at haffix
      by_cases hmatch : (rule.prefixMatches label && rule.suffixMatches label) = true <;>
        simp [haffix, hmatch]
    · -- without a prefix and a suffix there is nothing that could fail
      rw [hasAffix_iff, Bool.not_eq_false, Bool.and_eq_true, Option.isNone_iff_eq_none,
        Option.isNone_iff_eq_none] at haffix
      simp [prefixMatches, suffixMatches, haffix]

theorem matches_iff_exists {rule : Rule} {label : String} :
    rule.Matches label ↔ ∃ rank, rule.rank? label = some rank := by
  rw [← rank?_isSome_iff, Option.isSome_iff_exists]

instance (rule : Rule) (label : String) : Decidable (rule.Matches label) :=
  decidable_of_iff _ rank?_isSome_iff

theorem below_iff_outranks {a b : Rule} {label : String} {ra rb : Rank}
    (ha : a.rank? label = some ra) (hb : b.rank? label = some rb) :
    rb.below ra = true ↔ a.Outranks b := by
  rw [Rank.below_iff]
  unfold Outranks
  cases ranked_of_rank? ha <;> cases ranked_of_rank? hb <;> simp_all

/-! ## What the pass finds -/

/-- No earlier match has this rank or a better one, and no later match a better one. -/
structure Unbeaten (label : String) (rank : Rank) (before after : List Rule) : Prop where
  earlier : ∀ other ∈ before, ∀ k, other.rank? label = some k → k.below rank = true
  later : ∀ other ∈ after, ∀ k, other.rank? label = some k → rank.below k = false

theorem Unbeaten.greatest {label : String} {rule : Rule} {rank : Rank} {before after : List Rule}
    (h : Unbeaten label rank before after) (hrank : rule.rank? label = some rank) :
    ∀ other ∈ before ++ rule :: after, ∀ k, other.rank? label = some k → rank.below k = false := by
  intro other hother k hk
  rcases List.mem_append.1 hother with hbefore | hrest
  · exact Rank.not_below_of_below (h.earlier other hbefore k hk)
  · rcases List.mem_cons.1 hrest with rfl | hafter
    · obtain rfl := Option.some.inj (hrank.symm.trans hk)
      exact Rank.below_irrefl rank
    · exact h.later other hafter k hk

theorem best?_eq_none_iff {label : String} {rules : List Rule} :
    best? label rules = none ↔ ∀ rule ∈ rules, rule.rank? label = none := by
  rw [← Option.isNone_iff_eq_none, ← Option.not_isSome, best?_isSome]
  simp

theorem exists_unbeaten {label : String} {rules : List Rule} {i : Nat} {rank : Rank}
    (h : best? label rules = some (i, rank)) :
    ∃ before rule after, rules = before ++ rule :: after ∧ before.length = i ∧
      rule.rank? label = some rank ∧ Unbeaten label rank before after := by
  induction rules generalizing i rank with
  | nil => simp [best?] at h
  | cons first rules ih =>
    rw [best?] at h
    split at h
    next hfirst =>
      -- the first rule does not match, so the others decide
      obtain ⟨⟨j, k⟩, hrest, hfound⟩ := Option.map_eq_some_iff.1 h
      obtain ⟨rfl, rfl⟩ := Prod.mk.inj hfound
      obtain ⟨before, rule, after, rfl, rfl, hrank, hunbeaten⟩ := ih hrest
      refine ⟨first :: before, rule, after, rfl, rfl, hrank, ⟨?_, hunbeaten.later⟩⟩
      rw [List.forall_mem_cons]
      exact ⟨fun k hk => absurd (hfirst.symm.trans hk) (by simp), hunbeaten.earlier⟩
    next k hfirst hrest =>
      -- no other rule matches
      obtain ⟨rfl, rfl⟩ := Prod.mk.inj (Option.some.inj h)
      refine ⟨[], first, rules, rfl, rfl, hfirst, ⟨by simp, ?_⟩⟩
      intro other hother k hk
      simp [best?_eq_none_iff.1 hrest other hother] at hk
    next k j later hfirst hrest =>
      obtain ⟨before, rule, after, rfl, rfl, hrank, hunbeaten⟩ := ih hrest
      split at h
      next hbelow =>
        -- a later rule is better than the first one
        obtain ⟨rfl, rfl⟩ := Prod.mk.inj (Option.some.inj h)
        refine ⟨first :: before, rule, after, rfl, rfl, hrank, ⟨?_, hunbeaten.later⟩⟩
        rw [List.forall_mem_cons]
        refine ⟨fun k' hk' => ?_, hunbeaten.earlier⟩
        obtain rfl := Option.some.inj (hfirst.symm.trans hk')
        exact hbelow
      next hbelow =>
        -- the first rule is as good as the best of the others, and so as each of them
        obtain ⟨rfl, rfl⟩ := Prod.mk.inj (Option.some.inj h)
        refine ⟨[], first, _, rfl, rfl, hfirst, ⟨by simp, ?_⟩⟩
        intro other hother k' hk'
        exact Rank.not_below_trans (by simpa using hbelow)
          (hunbeaten.greatest hrank other hother k' hk')

theorem best?_of_unbeaten {label : String} {rule : Rule} {rank : Rank}
    (hrank : rule.rank? label = some rank) {before after : List Rule}
    (h : Unbeaten label rank before after) :
    best? label (before ++ rule :: after) = some (before.length, rank) := by
  induction before with
  | nil =>
    rw [List.nil_append, best?, hrank]
    cases hrest : best? label after with
    | none => rfl
    | some found =>
      -- what is found later is the rank of a later rule, which is no better
      obtain ⟨j, k⟩ := found
      obtain ⟨earlier, other, later, rfl, -, hk, -⟩ := exists_unbeaten hrest
      have hbelow := h.later other (by simp) k hk
      simp [hbelow]
  | cons first before ih =>
    have hearlier := List.forall_mem_cons.1 h.earlier
    rw [List.cons_append, best?, ih ⟨hearlier.2, h.later⟩]
    cases hfirst : first.rank? label with
    | none => rfl
    | some k => simp [hearlier.1 k hfirst]

theorem best?_eq_some_iff {label : String} {rules : List Rule} {i : Nat} {rank : Rank} :
    best? label rules = some (i, rank) ↔ ∃ before rule after, rules = before ++ rule :: after ∧
      before.length = i ∧ rule.rank? label = some rank ∧ Unbeaten label rank before after := by
  refine ⟨exists_unbeaten, ?_⟩
  rintro ⟨before, rule, after, rfl, rfl, hrank, hunbeaten⟩
  exact best?_of_unbeaten hrank hunbeaten

theorem bestIndex?_eq_some_iff {label : String} {rules : List Rule} {i : Nat} :
    bestIndex? rules label = some i ↔ ∃ before rule after rank, rules = before ++ rule :: after ∧
      before.length = i ∧ rule.rank? label = some rank ∧ Unbeaten label rank before after := by
  rw [bestIndex?, Option.map_eq_some_iff]
  constructor
  · rintro ⟨⟨j, rank⟩, hbest, rfl⟩
    obtain ⟨before, rule, after, hfound⟩ := best?_eq_some_iff.1 hbest
    exact ⟨before, rule, after, rank, hfound⟩
  · rintro ⟨before, rule, after, rank, hfound⟩
    exact ⟨(i, rank), best?_eq_some_iff.2 ⟨before, rule, after, hfound⟩, rfl⟩

theorem bestRule?_eq_some_iff {label : String} {rules : List Rule} {rule : Rule} :
    bestRule? rules label = some rule ↔ ∃ before after rank, rules = before ++ rule :: after ∧
      rule.rank? label = some rank ∧ Unbeaten label rank before after := by
  rw [bestRule?, Option.bind_eq_some_iff]
  constructor
  · rintro ⟨i, hindex, hget⟩
    obtain ⟨before, other, after, rank, rfl, rfl, hfound⟩ := bestIndex?_eq_some_iff.1 hindex
    rw [List.getElem?_append_right (Nat.le_refl _), Nat.sub_self, List.getElem?_cons_zero] at hget
    obtain rfl := Option.some.inj hget
    exact ⟨before, after, rank, rfl, hfound⟩
  · rintro ⟨before, after, rank, rfl, hfound⟩
    refine ⟨before.length,
      bestIndex?_eq_some_iff.2 ⟨before, rule, after, rank, rfl, rfl, hfound⟩, ?_⟩
    rw [List.getElem?_append_right (Nat.le_refl _), Nat.sub_self, List.getElem?_cons_zero]

theorem bestRule?_eq_none_iff {label : String} {rules : List Rule} :
    bestRule? rules label = none ↔ ∀ rule ∈ rules, rule.rank? label = none := by
  rw [← best?_eq_none_iff, ← Option.isNone_iff_eq_none, ← Option.isNone_iff_eq_none,
    ← Option.not_isSome, ← Option.not_isSome, bestRule_isSome, best?_isSome]

/-- The first rule of the greatest rank that occurs. -/
theorem bestRule?_eq_some_iff_find? {label : String} {rules : List Rule} {rule : Rule} :
    bestRule? rules label = some rule ↔
      ∃ rank, rules.find? (fun r => r.rank? label = some rank) = some rule ∧
        ∀ other ∈ rules, ∀ k, other.rank? label = some k → rank.below k = false := by
  simp only [bestRule?_eq_some_iff, List.find?_eq_some_iff_append]
  constructor
  · rintro ⟨before, after, rank, rfl, hrank, hunbeaten⟩
    refine ⟨rank, ⟨by simpa using hrank, before, after, rfl, fun other hother => ?_⟩,
      hunbeaten.greatest hrank⟩
    rw [Bool.not_eq_true', decide_eq_false_iff_not]
    intro hequal
    exact Bool.false_ne_true
      ((Rank.below_irrefl rank).symm.trans (hunbeaten.earlier other hother rank hequal))
  · rintro ⟨rank, ⟨hrank, before, after, rfl, hbefore⟩, hgreatest⟩
    refine ⟨before, after, rank, rfl, by simpa using hrank, ?_, fun other hother => ?_⟩
    · intro other hother k hk
      -- it is no better, and it is not of the same rank
      rw [← Bool.not_eq_false]
      intro hnot
      obtain rfl := Rank.eq_of_not_below hnot (hgreatest other (by simp [hother]) k hk)
      simpa [hk] using hbefore other hother
    · exact hgreatest other (by simp [hother])

/-! ## Other lists of rules -/

/-- Only the matches count, and only the order among those of one rank. -/
theorem bestRule?_congr {label : String} {rules others : List Rule}
    (h : ∀ rank, others.filter (fun r => r.rank? label = some rank) =
      rules.filter fun r => r.rank? label = some rank) :
    bestRule? others label = bestRule? rules label := by
  -- both lists have the same matches
  have hmem : ∀ (rule : Rule) (rank : Rank), rule.rank? label = some rank →
      (rule ∈ others ↔ rule ∈ rules) := by
    intro rule rank hrank
    have hfilter : rule ∈ others.filter (fun r => r.rank? label = some rank) ↔
        rule ∈ rules.filter fun r => r.rank? label = some rank := by rw [h rank]
    simpa [List.mem_filter, hrank] using hfilter
  refine Option.ext fun rule => ?_
  simp only [bestRule?_eq_some_iff_find?, ← List.head?_filter, h]
  refine exists_congr fun rank => and_congr_right fun _ => ?_
  constructor
  · exact fun hgreatest other hother k hk => hgreatest other ((hmem other k hk).2 hother) k hk
  · exact fun hgreatest other hother k hk => hgreatest other ((hmem other k hk).1 hother) k hk

/-- Where an entry of a list stands once another has been put in at a place. -/
def shifted (place i : Nat) : Nat := if i < place then i else i + 1

theorem getElem?_shifted (before after : List Rule) (entry : Rule) (i : Nat) :
    (before ++ entry :: after)[shifted before.length i]? = (before ++ after)[i]? := by
  unfold shifted
  split
  case isTrue h => rw [List.getElem?_append_left h, List.getElem?_append_left h]
  case isFalse h =>
    rw [List.getElem?_append_right (by omega), List.getElem?_append_right (by omega),
      show i + 1 - before.length = i - before.length + 1 by omega, List.getElem?_cons_succ]

/-- One more rule decides itself, or the same one as before does. -/
theorem bestIndex?_insert (label : String) (before after : List Rule) (entry : Rule) :
    bestIndex? (before ++ entry :: after) label = some before.length ∨
      bestIndex? (before ++ entry :: after) label =
        (bestIndex? (before ++ after) label).map (shifted before.length) := by
  cases hindex : bestIndex? (before ++ entry :: after) label with
  | none =>
    -- with no match among all rules there is none without the new one either
    have hnone : bestIndex? (before ++ after) label = none := by
      rw [bestIndex?, Option.map_eq_none_iff, best?_eq_none_iff] at hindex ⊢
      exact fun rule hrule => hindex rule (by
        rcases List.mem_append.1 hrule with h | h <;> simp [h])
    exact .inr (by rw [hnone]; rfl)
  | some i =>
    obtain ⟨first, rule, last, rank, hsplit, rfl, hrank, hunbeaten⟩ :=
      bestIndex?_eq_some_iff.1 hindex
    -- the rule that decides stands behind the new one, is the new one or stands before it
    rcases List.append_eq_append_iff.1 hsplit with ⟨between, rfl, hafter⟩ | ⟨between, rfl, hlast⟩
    · cases between with
      | nil => exact .inl (by simp)
      | cons moved between =>
        obtain rfl : entry = moved := (List.cons.inj hafter).1
        obtain rfl : after = between ++ rule :: last := (List.cons.inj hafter).2
        have hold : bestIndex? (before ++ (between ++ rule :: last)) label =
            some (before ++ between).length := by
          refine bestIndex?_eq_some_iff.2 ⟨before ++ between, rule, last, rank, ?_, rfl, hrank,
            ⟨fun other hother => hunbeaten.earlier other ?_, hunbeaten.later⟩⟩
          · rw [List.append_assoc]
          · rcases List.mem_append.1 hother with h | h <;> simp [h]
        refine .inr ?_
        rw [hold, Option.map_some, shifted, if_neg (by simp)]
        simp
        omega
    · cases between with
      | nil => exact .inl (by simp)
      | cons moved between =>
        obtain rfl : rule = moved := (List.cons.inj hlast).1
        obtain rfl : last = between ++ entry :: after := (List.cons.inj hlast).2
        have hold : bestIndex? (first ++ rule :: between ++ after) label = some first.length := by
          refine bestIndex?_eq_some_iff.2 ⟨first, rule, between ++ after, rank, ?_, rfl, hrank,
            ⟨hunbeaten.earlier, fun other hother => hunbeaten.later other ?_⟩⟩
          · rw [List.append_assoc, List.cons_append]
          · rcases List.mem_append.1 hother with h | h <;> simp [h]
        refine .inr ?_
        rw [hold, Option.map_some, shifted, if_pos (by simp)]

theorem best_insert (label : String) (before after : List Rule) (entry : Rule) :
    (bestIndex? (before ++ entry :: after) label = some before.length ∧
        bestRule? (before ++ entry :: after) label = some entry) ∨
      (bestIndex? (before ++ entry :: after) label =
          (bestIndex? (before ++ after) label).map (shifted before.length) ∧
        bestRule? (before ++ entry :: after) label = bestRule? (before ++ after) label) := by
  rcases bestIndex?_insert label before after entry with hnew | hold
  · refine .inl ⟨hnew, ?_⟩
    rw [bestRule?, hnew, Option.bind_some, List.getElem?_append_right (Nat.le_refl _),
      Nat.sub_self, List.getElem?_cons_zero]
  · refine .inr ⟨hold, ?_⟩
    rw [bestRule?, bestRule?, hold]
    cases bestIndex? (before ++ after) label with
    | none => rfl
    | some i => exact getElem?_shifted before after entry i

/-! ## The choice -/

/-- Between `before` and `after`, a rule is the first of the best matches: those before it are worse
and those after it no better. -/
structure FirstBest (label : String) (before : List Rule) (rule : Rule) (after : List Rule) :
    Prop where
  fits : rule.Matches label
  earlier : ∀ other ∈ before, other.Matches label → rule.Outranks other
  later : ∀ other ∈ after, other.Matches label → ¬other.Outranks rule

theorem firstBest_iff {label : String} {before after : List Rule} {rule : Rule} :
    FirstBest label before rule after ↔
      ∃ rank, rule.rank? label = some rank ∧ Unbeaten label rank before after := by
  constructor
  · rintro ⟨hfits, hearlier, hlater⟩
    obtain ⟨rank, hrank⟩ := matches_iff_exists.1 hfits
    refine ⟨rank, hrank, ⟨fun other hother k hk => ?_, fun other hother k hk => ?_⟩⟩
    · rw [below_iff_outranks hrank hk]
      exact hearlier other hother (matches_iff_exists.2 ⟨k, hk⟩)
    · rw [← Bool.not_eq_true, below_iff_outranks hk hrank]
      exact hlater other hother (matches_iff_exists.2 ⟨k, hk⟩)
  · rintro ⟨rank, hrank, hunbeaten⟩
    refine ⟨matches_iff_exists.2 ⟨rank, hrank⟩, fun other hother hfits => ?_,
      fun other hother hfits => ?_⟩
    all_goals obtain ⟨k, hk⟩ := matches_iff_exists.1 hfits
    · rw [← below_iff_outranks hrank hk]
      exact hunbeaten.earlier other hother k hk
    · rw [← below_iff_outranks hk hrank, Bool.not_eq_true]
      exact hunbeaten.later other hother k hk

/-- Two matches of which neither is better. -/
def Tied (label : String) (a b : Rule) : Prop :=
  a.Matches label ∧ b.Matches label ∧ ¬a.Outranks b ∧ ¬b.Outranks a

theorem tied_iff {label : String} {a b : Rule} {rank : Rank} (h : a.rank? label = some rank) :
    Tied label a b ↔ b.rank? label = some rank := by
  constructor
  · rintro ⟨-, hfits, hab, hba⟩
    obtain ⟨k, hk⟩ := matches_iff_exists.1 hfits
    rw [← below_iff_outranks h hk, Bool.not_eq_true] at hab
    rw [← below_iff_outranks hk h, Bool.not_eq_true] at hba
    rw [hk, Rank.eq_of_not_below hab hba]
  · intro hb
    refine ⟨matches_iff_exists.2 ⟨rank, h⟩, matches_iff_exists.2 ⟨rank, hb⟩, ?_, ?_⟩
    · rw [← below_iff_outranks h hb, Rank.below_irrefl]
      exact Bool.false_ne_true
    · rw [← below_iff_outranks hb h, Rank.below_irrefl]
      exact Bool.false_ne_true

instance (rule : Rule) : Decidable rule.HasAffix := inferInstanceAs (Decidable (_ ∨ _))

instance (a b : Rule) : Decidable (a.Outranks b) := inferInstanceAs (Decidable (_ ∨ _))

instance (label : String) (a b : Rule) : Decidable (Tied label a b) :=
  inferInstanceAs (Decidable (_ ∧ _))

theorem bestRule?_of_tied {label : String} {rules others : List Rule}
    (h : ∀ rule : Rule, rule.Matches label →
      others.filter (Tied label rule) = rules.filter (Tied label rule)) :
    bestRule? others label = bestRule? rules label := by
  refine bestRule?_congr fun rank => ?_
  by_cases hsome : ∃ rule : Rule, rule.rank? label = some rank
  · obtain ⟨rule, hrank⟩ := hsome
    simpa only [tied_iff hrank] using h rule (matches_iff_exists.2 ⟨rank, hrank⟩)
  · -- no rule at all has this rank
    have hnone : ∀ rules : List Rule, rules.filter (fun r => r.rank? label = some rank) = [] :=
      fun rules => List.filter_eq_nil_iff.2 fun rule _ hrank =>
        hsome ⟨rule, of_decide_eq_true hrank⟩
    rw [hnone, hnone]

theorem bestRule?_of_matches {label : String} {rules others : List Rule}
    (h : others.filter (Matches · label) = rules.filter (Matches · label)) :
    bestRule? others label = bestRule? rules label := by
  refine bestRule?_of_tied fun rule hfits => ?_
  -- what is tied with a rule is found among the matches
  have hamong : ∀ rules : List Rule, rules.filter (Tied label rule) =
      (rules.filter (Matches · label)).filter (Tied label rule) := by
    intro rules
    rw [List.filter_filter]
    refine List.filter_congr fun other _ => ?_
    by_cases htied : Tied label rule other
    · simp [htied, htied.2.1]
    · simp [htied]
  rw [hamong, hamong rules, h]

/-- The choice of a rule for a label. None is chosen exactly if none matches, and else the first of
the best matches. One more rule, put in anywhere, is chosen itself or leaves the choice as it is.
Other lists with the same matches in the same order give the same choice, and so do those in which
just the tied matches are in the same order, wherever they stand. -/
theorem choice_firstBest (rules : List Rule) (label : String) :
    (bestRule? rules label = none ↔ ∀ rule ∈ rules, ¬rule.Matches label) ∧
      (∀ i, bestIndex? rules label = some i ↔ ∃ before rule after,
        rules = before ++ rule :: after ∧ before.length = i ∧ FirstBest label before rule after) ∧
      (∀ rule, bestRule? rules label = some rule ↔ ∃ before after,
        rules = before ++ rule :: after ∧ FirstBest label before rule after) ∧
      (∀ before after entry, rules = before ++ after →
        (bestIndex? (before ++ entry :: after) label = some before.length ∧
            bestRule? (before ++ entry :: after) label = some entry) ∨
          (bestIndex? (before ++ entry :: after) label =
              (bestIndex? rules label).map (shifted before.length) ∧
            bestRule? (before ++ entry :: after) label = bestRule? rules label)) ∧
      (∀ others : List Rule, others.filter (Matches · label) = rules.filter (Matches · label) →
        bestRule? others label = bestRule? rules label) ∧
      ∀ others : List Rule, (∀ rule : Rule, rule.Matches label →
          others.filter (Tied label rule) = rules.filter (Tied label rule)) →
        bestRule? others label = bestRule? rules label := by
  refine ⟨?_, fun i => ?_, fun rule => ?_, ?_, fun others => bestRule?_of_matches,
    fun others => bestRule?_of_tied⟩
  · simp only [bestRule?_eq_none_iff, ← rank?_isSome_iff, Option.not_isSome_iff_eq_none]
  · simp only [bestIndex?_eq_some_iff, firstBest_iff, exists_and_left]
  · simp only [bestRule?_eq_some_iff, firstBest_iff, exists_and_left]
  · rintro before after entry rfl
    exact best_insert label before after entry

/-- A rule for all labels. -/
def anyLabel : Rule := { partition := some 4 }

/-- A rule for all labels of file systems. -/
def fileSystems : Rule := { labelPrefix := some "fs", partition := some 1 }

/-- A rule for one file system. -/
def rootOnly : Rule := { label := some "fs -> root", partition := some 3 }

theorem choice_firstBest_home :
    bestRule? [anyLabel, fileSystems] "fs -> home" = some fileSystems ∧
      (bestRule? ([anyLabel] ++ rootOnly :: [fileSystems]) "fs -> home" = some rootOnly ∨
        bestRule? ([anyLabel] ++ rootOnly :: [fileSystems]) "fs -> home" = some fileSystems) ∧
      bestRule? [anyLabel, rootOnly, fileSystems] "fs -> home" = some fileSystems ∧
      bestRule? [fileSystems, anyLabel] "fs -> home" = some fileSystems := by
  obtain ⟨-, -, hchoice, hinsert, hmatches, htied⟩ :=
    choice_firstBest [anyLabel, fileSystems] "fs -> home"
  have hrule : bestRule? [anyLabel, fileSystems] "fs -> home" = some fileSystems :=
    (hchoice fileSystems).2 ⟨[anyLabel], [], rfl, by decide, by decide, by decide⟩
  rw [hrule] at hinsert hmatches htied
  refine ⟨hrule, ?_, hmatches _ (by decide), htied _ fun rule hfits => ?_⟩
  · rcases hinsert [anyLabel] [fileSystems] rootOnly rfl with ⟨-, hnew⟩ | ⟨-, hold⟩
    · exact .inl hnew
    · exact .inr hold
  · -- the two rules have different ranks, so that none is tied with both
    obtain ⟨rank, hrank⟩ := matches_iff_exists.1 hfits
    have hany : anyLabel.rank? "fs -> home" = some ⟨0, 0⟩ := by decide
    have hprefix : fileSystems.rank? "fs -> home" = some ⟨1, 2⟩ := by decide
    simp only [tied_iff hrank, List.filter_cons, List.filter_nil, hany, hprefix]
    by_cases h : rank = ⟨0, 0⟩ <;> simp [h, eq_comm]

end Rule
end BlockMux
