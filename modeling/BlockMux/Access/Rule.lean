/-!
# Access rules

A rule says which sessions it is for, by their labels, and what they may do. The rule that fits a
label best decides: an exact label beats any other match, a longer prefix and suffix beat shorter
ones, a rule without label attributes serves where nothing else matches, and among equals the
first rule wins.

* `bestRule_isSome` — there is a best rule exactly when some rule matches.
-/

namespace BlockMux

/-- Which sessions a rule is for, the partition it binds them to, and their rights. -/
structure Rule where
  label : Option String := none
  labelPrefix : Option String := none
  labelSuffix : Option String := none
  partition : Option Nat := none
  readable : Bool := true
  writeable : Bool := true
  deriving DecidableEq, Repr

/-- How well a rule matches: a tier, and within it the length of what matched in bytes. -/
structure Rank where
  tier : Nat
  length : Nat
  deriving DecidableEq, Repr

namespace Rank

/-- Whether `a` is a worse match than `b`. -/
def below (a b : Rank) : Bool := a.tier < b.tier || (a.tier == b.tier && a.length < b.length)

end Rank

namespace Rule

/-- Whether a label starts with the prefix of the rule, if there is one. -/
def prefixMatches (rule : Rule) (label : String) : Bool :=
  rule.labelPrefix.all fun p => p.toList.isPrefixOf label.toList

/-- Whether a label ends with the suffix of the rule, if there is one. -/
def suffixMatches (rule : Rule) (label : String) : Bool :=
  rule.labelSuffix.all fun s => s.toList.isSuffixOf label.toList

/-- The bytes of an optional text. -/
def affixLength (affix : Option String) : Nat := (affix.map String.utf8ByteSize).getD 0

/-- How well the rule matches a label, `none` if it does not. -/
def rank? (rule : Rule) (label : String) : Option Rank :=
  match rule.label with
  | some exact => if exact = label then some ⟨2, exact.utf8ByteSize⟩ else none
  | none =>
    if rule.labelPrefix.isNone && rule.labelSuffix.isNone then some ⟨0, 0⟩
    else if rule.prefixMatches label && rule.suffixMatches label then
      some ⟨1, affixLength rule.labelPrefix + affixLength rule.labelSuffix⟩
    else none

/-- The position and rank of the best match among `rules`, the first of equals. -/
def best? (label : String) : List Rule → Option (Nat × Rank)
  | [] => none
  | rule :: rules =>
    match rule.rank? label, best? label rules with
    | none, later => later.map fun (i, rank) => (i + 1, rank)
    | some rank, none => some (0, rank)
    | some rank, some (i, later) => if rank.below later then some (i + 1, later) else some (0, rank)

/-- The position of the rule that decides about a label. -/
def bestIndex? (rules : List Rule) (label : String) : Option Nat := (best? label rules).map (·.1)

/-- The rule that decides about a label. -/
def bestRule? (rules : List Rule) (label : String) : Option Rule :=
  (bestIndex? rules label).bind fun i => rules[i]?

theorem best?_isSome {label : String} {rules : List Rule} :
    (best? label rules).isSome = rules.any fun rule => (rule.rank? label).isSome := by
  induction rules with
  | nil => rfl
  | cons rule rules ih =>
    rw [best?, List.any_cons, ← ih]
    split <;> rename_i h₁ h₂ <;> simp_all
    split <;> rfl

theorem best?_lt {label : String} {rules : List Rule} {i : Nat} {rank : Rank}
    (h : best? label rules = some (i, rank)) : i < rules.length := by
  induction rules generalizing i rank with
  | nil => simp [best?] at h
  | cons rule rules ih =>
    rw [best?] at h
    rw [List.length_cons]
    split at h
    · obtain ⟨⟨j, r⟩, hj, heq⟩ := Option.map_eq_some_iff.1 h
      have := ih hj
      simp only [Prod.mk.injEq] at heq
      omega
    · simp only [Option.some.injEq, Prod.mk.injEq] at h
      omega
    · rename_i hrest
      have := ih hrest
      split at h <;> simp only [Option.some.injEq, Prod.mk.injEq] at h <;> omega

theorem bestRule_isSome {label : String} {rules : List Rule} :
    (bestRule? rules label).isSome = rules.any fun rule => (rule.rank? label).isSome := by
  rw [← best?_isSome, bestRule?, bestIndex?]
  cases h : best? label rules with
  | none => rfl
  | some found =>
    have := best?_lt h
    simp [this]

end Rule

/-- The configuration of a multiplexer. -/
structure Config where
  /-- Whether a GUID table is looked for before the boot record. -/
  useGpt : Bool := false
  /-- The capacity of the submit and acknowledgement queues of a session. -/
  queueSize : Nat := 256
  rules : List Rule := []
  deriving DecidableEq, Repr

end BlockMux
