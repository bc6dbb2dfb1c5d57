import BlockMux.Access.Arguments
import BlockMux.Proofs.Trimming

/-!
# The grammar of argument text

Argument text is split by one pass over its characters that remembers whether it is inside quotes;
its items are then trimmed, divided at their first equals sign and freed of one pair of quotes. Here
the same is said without the pass: which commas separate, which text is refused and with what, and
which pairs a text stands for, however its blanks and quotes are laid out.

Main statements:

* `endsQuoted_iff` — text ends inside quotes exactly if their number is odd.
* `items_separated`, `items_of_commasQuoted` — commas outside quotes separate, and no others.
* `even_induction` — text with paired quotes is taken apart at its separating commas.
* `parse_eq_error_iff` — what refused text is refused with.
* `Listing` — the ways to write down a list of pairs.
* `parse_grammar` — how text is split, when it is refused, and that a written list is read back.
-/

namespace BlockMux.Arguments

/-! ## Separating commas -/

/-- Text that is one item: every comma stands behind an odd number of quotes. -/
def CommasQuoted (cs : List Char) : Prop :=
  ∀ before after, cs = before ++ ',' :: after → before.count '"' % 2 = 1

theorem commasQuoted_of_not_mem {cs : List Char} (h : ',' ∉ cs) : CommasQuoted cs := by
  rintro before after rfl
  simp at h

/-- The commas of a text that is put together are those of its parts. -/
theorem commasQuoted_append {xs ys : List Char} : CommasQuoted (xs ++ ys) ↔ CommasQuoted xs ∧
    ∀ before after, ys = before ++ ',' :: after → (xs ++ before).count '"' % 2 = 1 := by
  constructor
  · intro h
    refine ⟨?_, ?_⟩
    · rintro before after rfl
      exact h before (after ++ ys) (by simp)
    · rintro before after rfl
      exact h (xs ++ before) after (by simp)
  · rintro ⟨hleft, hright⟩ before after heq
    -- the comma stands in the right part, or else in the left one
    rcases List.append_eq_append_iff.1 heq with ⟨between, rfl, hys⟩ | ⟨between, rfl, hafter⟩
    · exact hright between after hys
    · cases between with
      | nil =>
        rw [List.append_nil] at hright
        simpa using hright [] after hafter.symm
      | cons c between =>
        obtain ⟨rfl, -⟩ := List.cons.inj hafter
        exact hleft before between rfl

theorem commasQuoted_append_right {xs ys : List Char} (h : ',' ∉ ys) :
    CommasQuoted (xs ++ ys) ↔ CommasQuoted xs := by
  rw [commasQuoted_append]
  refine ⟨And.left, fun hxs => ⟨hxs, ?_⟩⟩
  rintro before after rfl
  simp at h

/-- Whether text that starts inside quotes, or outside, ends inside them. -/
def quotedAfter (quoted : Bool) (cs : List Char) : Bool :=
  cs.foldl (fun quoted c => if c = '"' then !quoted else quoted) quoted

theorem quotedAfter_cons (quoted : Bool) (c : Char) (cs : List Char) :
    quotedAfter quoted (c :: cs) = quotedAfter (if c = '"' then !quoted else quoted) cs := rfl

theorem quotedAfter_eq (quoted : Bool) (cs : List Char) :
    quotedAfter quoted cs = (quoted ^^ decide (cs.count '"' % 2 = 1)) := by
  induction cs generalizing quoted with
  | nil => cases quoted <;> rfl
  | cons c cs ih =>
    rw [quotedAfter_cons, ih, List.count_cons]
    by_cases hc : c = '"'
    · have hcases := Nat.mod_two_eq_zero_or_one (cs.count '"')
      rcases hcases with h | h <;> cases quoted <;> simp [hc, h, Nat.add_mod]
    · simp [hc]

/-- The state that splitting ends in does not depend on where the text was cut: a comma that
separates leaves it as it is. -/
theorem splitItems_quoted (quoted : Bool) (cs : List Char) :
    (splitItems quoted cs).2.2 = quotedAfter quoted cs := by
  induction cs generalizing quoted with
  | nil => rfl
  | cons c cs ih =>
    rw [splitItems, quotedAfter_cons]
    by_cases hcut : c = ',' ∧ quoted = false
    · obtain ⟨rfl, rfl⟩ := hcut
      exact ih false
    · rw [if_neg hcut]
      exact ih _

theorem endsQuoted_iff (cs : List Char) : endsQuoted cs = true ↔ cs.count '"' % 2 = 1 := by
  rw [endsQuoted, splitItems_quoted, quotedAfter_eq]
  simp

theorem not_endsQuoted_iff (cs : List Char) : ¬endsQuoted cs = true ↔ cs.count '"' % 2 = 0 := by
  rw [endsQuoted_iff]
  omega

/-- Splitting goes on behind a comma outside quotes as it does at the start of text. -/
theorem splitItems_separated {quoted : Bool} {before : List Char}
    (h : quotedAfter quoted before = false) (after : List Char) :
    splitItems quoted (before ++ ',' :: after) =
      ((splitItems quoted before).1, (splitItems quoted before).2.1 ++ items after,
        endsQuoted after) := by
  induction before generalizing quoted with
  | nil =>
    obtain rfl : quoted = false := h
    rfl
  | cons c before ih =>
    -- a comma that separates before this one leaves the text outside quotes, as at the start
    rw [quotedAfter_cons] at h
    rw [List.cons_append, splitItems, splitItems]
    by_cases hcut : c = ',' ∧ quoted = false
    · obtain ⟨rfl, rfl⟩ := hcut
      have hrest : splitItems false (before ++ ',' :: after) =
          ((splitItems false before).1, (splitItems false before).2.1 ++ items after,
            endsQuoted after) := ih h
      simp only [if_pos, and_self, hrest]
      rfl
    · rw [if_neg hcut, if_neg hcut, ih h]

/-- Without a comma outside quotes there is nothing to split. -/
theorem splitItems_whole {quoted : Bool} {cs : List Char}
    (h : ∀ before after, cs = before ++ ',' :: after → quotedAfter quoted before = true) :
    (splitItems quoted cs).1 = cs ∧ (splitItems quoted cs).2.1 = [] := by
  induction cs generalizing quoted with
  | nil => exact ⟨rfl, rfl⟩
  | cons c cs ih =>
    have hcut : ¬(c = ',' ∧ quoted = false) := by
      rintro ⟨rfl, rfl⟩
      exact Bool.false_ne_true (h [] cs rfl)
    obtain ⟨hitem, hitems⟩ : (splitItems (if c = '"' then !quoted else quoted) cs).1 = cs ∧
        (splitItems (if c = '"' then !quoted else quoted) cs).2.1 = [] := by
      refine ih ?_
      rintro before after rfl
      exact h (c :: before) after rfl
    rw [splitItems, if_neg hcut]
    exact ⟨congrArg (c :: ·) hitem, hitems⟩

theorem items_separated {before : List Char} (h : before.count '"' % 2 = 0) (after : List Char) :
    items (before ++ ',' :: after) = items before ++ items after := by
  have hquoted : quotedAfter false before = false := by
    rw [quotedAfter_eq]
    simp [h]
  simp only [items, splitItems_separated hquoted after, List.cons_append]

theorem items_of_commasQuoted {cs : List Char} (h : CommasQuoted cs) : items cs = [cs] := by
  obtain ⟨hitem, hitems⟩ : (splitItems false cs).1 = cs ∧ (splitItems false cs).2.1 = [] := by
    refine splitItems_whole ?_
    intro before after hcs
    rw [quotedAfter_eq, h before after hcs]
    rfl
  simp only [items, hitem, hitems]

theorem items_ne_nil (cs : List Char) : items cs ≠ [] := List.cons_ne_nil _ _

theorem exists_separated {cs : List Char} (h : ¬CommasQuoted cs) :
    ∃ before after, cs = before ++ ',' :: after ∧ before.count '"' % 2 = 0 := by
  refine Classical.byContradiction fun hnone => h fun before after hcs => ?_
  have hodd : ¬before.count '"' % 2 = 0 := fun heven => hnone ⟨before, after, hcs, heven⟩
  omega

theorem count_separated (before after : List Char) :
    (before ++ ',' :: after).count '"' = before.count '"' + after.count '"' := by
  rw [List.count_append, List.count_cons_of_ne (by decide)]

/-- Text with paired quotes is one item, or two such texts with a separating comma between. -/
theorem even_induction {P : (cs : List Char) → cs.count '"' % 2 = 0 → Prop}
    (whole : ∀ cs heven, CommasQuoted cs → P cs heven)
    (separated : ∀ before after hbefore hafter heven, P before hbefore → P after hafter →
      P (before ++ ',' :: after) heven)
    (cs : List Char) (heven : cs.count '"' % 2 = 0) : P cs heven := by
  by_cases hquoted : CommasQuoted cs
  · exact whole cs heven hquoted
  · -- both sides of a comma that separates are shorter, and have paired quotes again
    obtain ⟨before, after, hcs, hbefore⟩ := exists_separated hquoted
    have hlength : cs.length = before.length + (after.length + 1) := by
      rw [hcs, List.length_append, List.length_cons]
    have hafter : after.count '"' % 2 = 0 := by
      rw [hcs, count_separated] at heven
      omega
    subst hcs
    exact separated before after hbefore hafter heven
      (even_induction whole separated before hbefore)
      (even_induction whole separated after hafter)
termination_by cs.length

/-- Each item has paired quotes, and its commas inside them. -/
theorem mem_items {cs : List Char} (heven : cs.count '"' % 2 = 0) {item : List Char}
    (hitem : item ∈ items cs) : item.count '"' % 2 = 0 ∧ CommasQuoted item := by
  induction cs, heven using even_induction with
  | whole cs heven hquoted =>
    rw [items_of_commasQuoted hquoted, List.mem_singleton] at hitem
    exact hitem ▸ ⟨heven, hquoted⟩
  | separated before after hbefore hafter heven ihBefore ihAfter =>
    rw [items_separated hbefore] at hitem
    exact (List.mem_append.1 hitem).elim ihBefore ihAfter

theorem intercalate_append {parts rest : List (List Char)} (hparts : parts ≠ [])
    (hrest : rest ≠ []) : [','].intercalate (parts ++ rest) =
      [','].intercalate parts ++ ',' :: [','].intercalate rest := by
  induction parts with
  | nil => exact absurd rfl hparts
  | cons part parts ih =>
    cases parts with
    | nil =>
      rw [List.singleton_append, List.intercalate_cons_of_ne_nil hrest, List.intercalate_singleton,
        List.append_assoc, List.singleton_append]
    | cons next parts =>
      have hnext : next :: parts ≠ [] := List.cons_ne_nil _ _
      have hboth : next :: parts ++ rest ≠ [] := List.append_ne_nil_of_left_ne_nil hnext rest
      rw [List.cons_append, List.intercalate_cons_of_ne_nil hboth, ih hnext,
        List.intercalate_cons_of_ne_nil hnext]
      simp only [List.append_assoc]

/-- Nothing is lost in splitting. -/
theorem intercalate_items {cs : List Char} (heven : cs.count '"' % 2 = 0) :
    [','].intercalate (items cs) = cs := by
  induction cs, heven using even_induction with
  | whole cs heven hquoted => rw [items_of_commasQuoted hquoted, List.intercalate_singleton]
  | separated before after hbefore hafter heven ihBefore ihAfter =>
    rw [items_separated hbefore, intercalate_append (items_ne_nil _) (items_ne_nil _), ihBefore,
      ihAfter]

theorem count_intercalate {parts : List (List Char)}
    (h : ∀ part ∈ parts, part.count '"' % 2 = 0) :
    ([','].intercalate parts).count '"' % 2 = 0 := by
  induction parts with
  | nil => rfl
  | cons part parts ih =>
    have hfirst := h part List.mem_cons_self
    have hrest := ih fun p hp => h p (List.mem_cons_of_mem part hp)
    cases parts with
    | nil => rwa [List.intercalate_singleton]
    | cons next parts =>
      rw [List.intercalate_cons_of_ne_nil (List.cons_ne_nil _ _), List.append_assoc,
        List.singleton_append, count_separated]
      omega

/-- Texts with paired quotes that are put together with commas are split one by one. -/
theorem items_intercalate {parts : List (List Char)} (hne : parts ≠ [])
    (h : ∀ part ∈ parts, part.count '"' % 2 = 0) :
    items ([','].intercalate parts) = parts.flatMap items := by
  induction parts with
  | nil => exact absurd rfl hne
  | cons part parts ih =>
    cases parts with
    | nil => rw [List.intercalate_singleton, List.flatMap_singleton]
    | cons next parts =>
      rw [List.intercalate_cons_of_ne_nil (List.cons_ne_nil _ _), List.append_assoc,
        List.singleton_append, items_separated (h part List.mem_cons_self),
        ih (List.cons_ne_nil _ _) fun p hp => h p (List.mem_cons_of_mem part hp)]
      exact List.flatMap_cons.symm

theorem flatMap_items {parts : List (List Char)} (h : ∀ part ∈ parts, CommasQuoted part) :
    parts.flatMap items = parts := by
  rw [List.flatMap_def, List.map_congr_left fun part hpart => items_of_commasQuoted (h part hpart)]
  exact List.flatMap_singleton' parts

/-- A comma that separates: an even number of quotes stands before it. -/
def Separates (cs : List Char) (i : Nat) : Prop :=
  cs[i]? = some ',' ∧ (cs.take i).count '"' % 2 = 0

/-- The places where text is split are those of its separating commas. -/
theorem separates_iff {cs : List Char} (heven : cs.count '"' % 2 = 0) (i : Nat) :
    Separates cs i ↔ ∃ first rest, first ≠ [] ∧ rest ≠ [] ∧ items cs = first ++ rest ∧
      ([','].intercalate first).length = i := by
  constructor
  · -- the items before the comma are those of the text before it
    rintro ⟨hcomma, hquotes⟩
    obtain ⟨hlt, hget⟩ := List.getElem?_eq_some_iff.1 hcomma
    have hcs : cs = cs.take i ++ ',' :: cs.drop (i + 1) := by
      rw [← hget, List.getElem_cons_drop, List.take_append_drop]
    refine ⟨items (cs.take i), items (cs.drop (i + 1)), items_ne_nil _, items_ne_nil _, ?_, ?_⟩
    · rw [← items_separated hquotes, ← hcs]
    · rw [intercalate_items hquotes, List.length_take]
      omega
  · -- joined again, the items up to the place are the text before a comma
    rintro ⟨first, rest, hfirst, hrest, hitems, rfl⟩
    have hcs : cs = [','].intercalate first ++ ',' :: [','].intercalate rest := by
      rw [← intercalate_append hfirst hrest, ← hitems, intercalate_items heven]
    have hquotes : ([','].intercalate first).count '"' % 2 = 0 := by
      refine count_intercalate fun part hpart => (mem_items heven ?_).1
      exact hitems ▸ List.mem_append_left rest hpart
    refine ⟨?_, ?_⟩
    · rw [hcs, List.getElem?_append_right (Nat.le_refl _), Nat.sub_self, List.getElem?_cons_zero]
    · rwa [hcs, List.take_left]

/-! ## Reading items -/

/-- An item that is no pair: it has no equals sign, or only blanks before the first one. -/
def Malformed (item : List Char) : Prop :=
  '=' ∉ item ∨ ∃ key value, Text.Blank key ∧ item = key ++ '=' :: value

/-- The first of the items that is neither blank nor a pair. -/
def FirstMalformed (items : List (List Char)) (item : List Char) : Prop :=
  ∃ before after, items = before ++ item :: after ∧ item ≠ [] ∧ Malformed item ∧
    ∀ other ∈ before, other = [] ∨ ¬Malformed other

theorem readItem_of_missing {item : List Char} (h : '=' ∉ item) :
    readItem item = .error (.malformed (String.ofList item)) := by
  have hdrop : item.dropWhile (· ≠ '=') = [] := by
    rw [← List.append_nil item, List.dropWhile_append_of_pos]
    · rfl
    · intro c hc
      exact decide_eq_true fun heq : c = '=' => h (heq ▸ hc)
  simp only [readItem, hdrop]

/-- An item is divided at its first equals sign. -/
theorem readItem_divided {key value : List Char} (h : '=' ∉ key) :
    readItem (key ++ '=' :: value) =
      if Text.trim key = [] then .error (.malformed (String.ofList (key ++ '=' :: value)))
      else .ok (String.ofList (Text.trim key), String.ofList (unquote (Text.trim value))) := by
  have hbefore : ∀ c ∈ key, decide (c ≠ '=') = true :=
    fun c hc => decide_eq_true fun heq : c = '=' => h (heq ▸ hc)
  have htake : (key ++ '=' :: value).takeWhile (· ≠ '=') = key := by
    rw [List.takeWhile_append_of_pos hbefore, List.takeWhile_cons_of_neg (by simp), List.append_nil]
  have hdrop : (key ++ '=' :: value).dropWhile (· ≠ '=') = '=' :: value := by
    rw [List.dropWhile_append_of_pos hbefore, List.dropWhile_cons_of_neg (by simp)]
  simp only [readItem, htake, hdrop]

theorem exists_divided {item : List Char} (h : '=' ∈ item) :
    ∃ key value, item = key ++ '=' :: value ∧ '=' ∉ key :=
  List.eq_append_cons_of_mem h

/-- There is only one way to divide an item at its first equals sign. -/
theorem divided_unique {key value key' value' : List Char} (hkey : '=' ∉ key) (hkey' : '=' ∉ key')
    (h : key ++ '=' :: value = key' ++ '=' :: value') : key = key' ∧ value = value' := by
  rcases List.append_eq_append_iff.1 h with ⟨between, rfl, hrest⟩ | ⟨between, rfl, hrest⟩
  all_goals
    cases between with
    | nil => simp_all
    | cons c between => simp_all

theorem readItem_eq_error_iff {item : List Char} {e : ArgumentError} :
    readItem item = .error e ↔ Malformed item ∧ e = .malformed (String.ofList item) := by
  by_cases hequals : '=' ∈ item
  · obtain ⟨key, value, rfl, hkey⟩ := exists_divided hequals
    have hmalformed : Malformed (key ++ '=' :: value) ↔ Text.trim key = [] := by
      rw [Text.trim_eq_nil_iff]
      constructor
      · rintro (hmissing | ⟨blank, other, hblank, heq⟩)
        · exact absurd hequals hmissing
        -- blanks have no equals sign, so that they are all of the key
        · exact (divided_unique hkey (Text.not_mem_of_blank hblank (by decide)) heq).1 ▸ hblank
      · exact fun hblank => .inr ⟨key, value, hblank, rfl⟩
    rw [readItem_divided hkey, hmalformed]
    split
    case isTrue hblank => exact ⟨fun h => ⟨hblank, (Except.error.inj h).symm⟩, fun h => h.2 ▸ rfl⟩
    case isFalse hkey => exact ⟨fun h => (nomatch h), fun h => absurd h.1 hkey⟩
  · rw [readItem_of_missing hequals]
    exact ⟨fun h => ⟨.inl hequals, (Except.error.inj h).symm⟩, fun h => h.2 ▸ rfl⟩

theorem firstMalformed_cons {i item : List Char} {items : List (List Char)} :
    FirstMalformed (i :: items) item ↔ i ≠ [] ∧ Malformed i ∧ item = i ∨
      (i = [] ∨ ¬Malformed i) ∧ FirstMalformed items item := by
  constructor
  · rintro ⟨before, after, hitems, hne, hmalformed, hbefore⟩
    cases before with
    | nil =>
      obtain ⟨rfl, rfl⟩ := List.cons.inj hitems
      exact .inl ⟨hne, hmalformed, rfl⟩
    | cons j before =>
      obtain ⟨rfl, rfl⟩ := List.cons.inj hitems
      exact .inr ⟨hbefore _ List.mem_cons_self, before, after, rfl, hne, hmalformed,
        fun other hother => hbefore other (List.mem_cons_of_mem _ hother)⟩
  · rintro (⟨hne, hmalformed, rfl⟩ | ⟨hi, before, after, rfl, hne, hmalformed, hbefore⟩)
    · exact ⟨[], items, rfl, hne, hmalformed, fun other hother => nomatch hother⟩
    · refine ⟨i :: before, after, rfl, hne, hmalformed, ?_⟩
      intro other hother
      rcases List.mem_cons.1 hother with rfl | hother
      · exact hi
      · exact hbefore other hother

theorem readItems_cons_blank {item : List Char} (h : Text.trim item = [])
    (items : List (List Char)) : readItems (item :: items) = readItems items := by
  simp only [readItems, h, if_true]

theorem readItems_cons {item : List Char} (h : Text.trim item ≠ []) (items : List (List Char)) :
    readItems (item :: items) = (readItem (Text.trim item)).bind fun pair =>
      (readItems items).map (pair :: ·) := by
  simp only [readItems, if_neg h]
  cases readItem (Text.trim item) with
  | error e => rfl
  | ok pair => cases readItems items <;> rfl

theorem readItems_eq_error_iff {items : List (List Char)} {e : ArgumentError} :
    readItems items = .error e ↔ ∃ item, FirstMalformed (items.map Text.trim) item ∧
      e = .malformed (String.ofList item) := by
  induction items with
  | nil =>
    refine ⟨fun h => (nomatch h), ?_⟩
    rintro ⟨item, ⟨before, after, hitems, -⟩, -⟩
    simp at hitems
  | cons i items ih =>
    simp only [List.map_cons, firstMalformed_cons]
    by_cases hblank : Text.trim i = []
    · rw [readItems_cons_blank hblank, ih]
      simp [hblank]
    · rw [readItems_cons hblank]
      cases hread : readItem (Text.trim i) with
      | error e' =>
        -- the first item is refused, and no later one is looked at
        obtain ⟨hmalformed, rfl⟩ := readItem_eq_error_iff.1 hread
        constructor
        · exact fun h => ⟨_, .inl ⟨hblank, hmalformed, rfl⟩, (Except.error.inj h).symm⟩
        · rintro ⟨item, ⟨-, -, rfl⟩ | ⟨hfine, -⟩, rfl⟩
          · rfl
          · exact absurd hmalformed (hfine.resolve_left hblank)
      | ok pair =>
        have hfine : ¬Malformed (Text.trim i) := by
          intro hmalformed
          rw [readItem_eq_error_iff.2 ⟨hmalformed, rfl⟩] at hread
          cases hread
        have hrest : (readItems items).map (pair :: ·) = .error e ↔ readItems items = .error e := by
          cases readItems items <;> simp [Except.map]
        rw [Except.bind, hrest, ih]
        simp [hfine]

theorem parse_eq_error_iff {s : String} {e : ArgumentError} :
    parse s = .error e ↔ s.toList.count '"' % 2 = 1 ∧ e = .unterminatedQuote ∨
      s.toList.count '"' % 2 = 0 ∧ ∃ item, FirstMalformed ((items s.toList).map Text.trim) item ∧
        e = .malformed (String.ofList item) := by
  unfold parse
  split
  case isTrue hends =>
    have hodd := (endsQuoted_iff _).1 hends
    simp [hodd, eq_comm]
  case isFalse hends =>
    have heven := (not_endsQuoted_iff _).1 hends
    rw [← readItems_eq_error_iff]
    cases readItems (items s.toList) <;> simp [Except.map, heven]

/-! ## Writing pairs down -/

/-- Text that stands between quotes. -/
def Enclosed (cs : List Char) : Prop := ∃ inner, cs = '"' :: (inner ++ ['"'])

theorem unquote_enclosed (inner : List Char) : unquote ('"' :: (inner ++ ['"'])) = inner := by
  simp [unquote]

/-- Quotes keep the blanks between them. -/
theorem trimmed_enclosed (inner : List Char) : Text.Trimmed ('"' :: (inner ++ ['"'])) := by
  refine ⟨fun c hc => ?_, fun c hc => ?_⟩
  · obtain rfl := Option.some.inj hc
    rfl
  · rw [← List.cons_append, List.getLast?_concat] at hc
    obtain rfl := Option.some.inj hc
    rfl

theorem unquote_of_not_enclosed {cs : List Char} (h : ¬Enclosed cs) : unquote cs = cs := by
  unfold unquote
  split
  · rename_i rest
    split
    · rename_i hlast
      obtain ⟨inner, rfl⟩ := List.getLast?_eq_some_iff.1 hlast
      exact absurd ⟨inner, rfl⟩ h
    · rfl
  · rfl

/-- A key that can be written down: it is not blank, and free of characters with a meaning. -/
structure PlainKey (key : List Char) : Prop where
  nonempty : key ≠ []
  trimmed : Text.Trimmed key
  unquoted : '"' ∉ key
  undivided : ',' ∉ key
  unequal : '=' ∉ key

/-- The ways to write a value down: as it is, or between quotes. -/
inductive WrittenValue (value : List Char) : List Char → Prop
  | bare (trimmed : Text.Trimmed value) (unquoted : '"' ∉ value) (undivided : ',' ∉ value) :
      WrittenValue value value
  | quoted (unquoted : '"' ∉ value) : WrittenValue value ('"' :: (value ++ ['"']))

/-- The ways to write a list of pairs down as items, with blank items and other blanks at will. -/
inductive Listing : List (List Char) → List (String × String) → Prop
  | nil : Listing [] []
  | blank {item : List Char} {items : List (List Char)} {pairs : List (String × String)}
      (blank : Text.Blank item) (rest : Listing items pairs) : Listing (item :: items) pairs
  | pair {a key b c value written d : List Char} {items : List (List Char)}
      {pairs : List (String × String)} (plain : PlainKey key) (writes : WrittenValue value written)
      (blanks : ∀ cs ∈ [a, b, c, d], Text.Blank cs) (rest : Listing items pairs) :
      Listing ((a ++ key ++ b ++ '=' :: (c ++ written ++ d)) :: items)
        ((String.ofList key, String.ofList value) :: pairs)

theorem WrittenValue.trimmed {value written : List Char} (h : WrittenValue value written) :
    Text.Trimmed written := by
  cases h with
  | bare trimmed => exact trimmed
  | quoted => exact trimmed_enclosed value

theorem WrittenValue.unquote_eq {value written : List Char} (h : WrittenValue value written) :
    unquote written = value := by
  cases h with
  | bare trimmed unquoted undivided =>
    refine unquote_of_not_enclosed ?_
    rintro ⟨inner, rfl⟩
    exact unquoted List.mem_cons_self
  | quoted unquoted => exact unquote_enclosed value

/-- What is read from an item with a key does not depend on the blanks around it. -/
theorem readItem_trim {key : List Char} (h : '=' ∉ key) (hkey : Text.trim key ≠ [])
    (value : List Char) : Text.trim (key ++ '=' :: value) ≠ [] ∧
      readItem (Text.trim (key ++ '=' :: value)) =
        .ok (String.ofList (Text.trim key), String.ofList (unquote (Text.trim value))) := by
  have htrim : Text.trim (key ++ '=' :: value) = Text.trimStart key ++ '=' :: Text.trimEnd value :=
    Text.trim_append_cons (by decide) key value
  have hstart : '=' ∉ Text.trimStart key := fun hmem => h (List.dropWhile_sublist _ |>.mem hmem)
  rw [htrim, readItem_divided hstart, Text.trim_trimStart, Text.trim_trimEnd, if_neg hkey]
  exact ⟨by simp, rfl⟩

/-- A written pair is one item. -/
theorem whole_of_written {left value written right : List Char}
    (writes : WrittenValue value written) (hleft : '"' ∉ left ∧ ',' ∉ left)
    (hright : '"' ∉ right ∧ ',' ∉ right) :
    (left ++ written ++ right).count '"' % 2 = 0 ∧ CommasQuoted (left ++ written ++ right) := by
  have hcount : (left ++ written ++ right).count '"' = written.count '"' := by
    rw [List.count_append, List.count_append, List.count_eq_zero.2 hleft.1,
      List.count_eq_zero.2 hright.1]
    omega
  rw [hcount]
  cases writes with
  | bare trimmed unquoted undivided =>
    rw [List.count_eq_zero.2 unquoted]
    refine ⟨rfl, commasQuoted_of_not_mem ?_⟩
    simp [hleft.2, undivided, hright.2]
  | quoted unquoted =>
    have htwo : ('"' :: (value ++ ['"'])).count '"' = 2 := by
      simp [List.count_eq_zero.2 unquoted]
    refine ⟨by rw [htwo], ?_⟩
    -- a comma stands in the value, behind the first of the two quotes
    have hsplit : left ++ '"' :: (value ++ ['"']) ++ right =
        (left ++ ['"']) ++ value ++ ('"' :: right) := by simp
    rw [hsplit, commasQuoted_append_right (by simp [hright.2]), commasQuoted_append]
    refine ⟨commasQuoted_of_not_mem (by simp [hleft.2]), ?_⟩
    rintro before after rfl
    have hbefore : '"' ∉ before := fun hmem => unquoted (List.mem_append_left _ hmem)
    simp [List.count_eq_zero.2 hleft.1, List.count_eq_zero.2 hbefore]

/-- A pair with blanks around its key and its value is one item, which is read as the pair. -/
theorem read_written {a key b c value written d : List Char} (plain : PlainKey key)
    (writes : WrittenValue value written) (blanks : ∀ cs ∈ [a, b, c, d], Text.Blank cs) :
    (a ++ key ++ b ++ '=' :: (c ++ written ++ d)).count '"' % 2 = 0 ∧
      CommasQuoted (a ++ key ++ b ++ '=' :: (c ++ written ++ d)) ∧
      Text.trim (a ++ key ++ b ++ '=' :: (c ++ written ++ d)) ≠ [] ∧
      readItem (Text.trim (a ++ key ++ b ++ '=' :: (c ++ written ++ d))) =
        .ok (String.ofList key, String.ofList value) := by
  -- the blanks are free of all characters with a meaning
  have hfree : ∀ x : Char, Text.isBlank x = false → ∀ cs ∈ [a, b, c, d], x ∉ cs :=
    fun x hx cs hcs => Text.not_mem_of_blank (blanks cs hcs) hx
  have hquote := hfree '"' (by decide)
  have hcomma := hfree ',' (by decide)
  have hequals := hfree '=' (by decide)
  simp only [List.forall_mem_cons] at hquote hcomma hequals
  have hitem : a ++ key ++ b ++ '=' :: (c ++ written ++ d) =
      (a ++ key ++ b ++ '=' :: c) ++ written ++ d := by simp
  obtain ⟨heven, hwhole⟩ : (a ++ key ++ b ++ '=' :: (c ++ written ++ d)).count '"' % 2 = 0 ∧
      CommasQuoted (a ++ key ++ b ++ '=' :: (c ++ written ++ d)) := by
    rw [hitem]
    refine whole_of_written writes ?_ ⟨hquote.2.2.2.1, hcomma.2.2.2.1⟩
    simp [hquote, hcomma, plain.unquoted, plain.undivided]
  have hkey : Text.trim (a ++ key ++ b) = key :=
    Text.trim_of_blanks (blanks a (by simp)) plain.trimmed (blanks b (by simp))
  have hvalue : Text.trim (c ++ written ++ d) = written :=
    Text.trim_of_blanks (blanks c (by simp)) writes.trimmed (blanks d (by simp))
  have hunequal : '=' ∉ a ++ key ++ b := by simp [hequals, plain.unequal]
  obtain ⟨hne, hread⟩ :=
    readItem_trim hunequal (hkey.symm ▸ plain.nonempty) (c ++ written ++ d)
  rw [hkey, hvalue, writes.unquote_eq] at hread
  exact ⟨heven, hwhole, hne, hread⟩

/-- Written items are read as the pairs that they were written for, and are not split. -/
theorem Listing.read {items : List (List Char)} {pairs : List (String × String)}
    (h : Listing items pairs) :
    (∀ item ∈ items, item.count '"' % 2 = 0 ∧ CommasQuoted item) ∧ readItems items = .ok pairs := by
  induction h with
  | nil => exact ⟨fun item hitem => (nomatch hitem), rfl⟩
  | blank blank rest ih =>
    refine ⟨List.forall_mem_cons.2 ⟨⟨?_, ?_⟩, ih.1⟩, ?_⟩
    · rw [List.count_eq_zero.2 (Text.not_mem_of_blank blank (by decide))]
    · exact commasQuoted_of_not_mem (Text.not_mem_of_blank blank (by decide))
    · rw [readItems_cons_blank (Text.trim_eq_nil_iff.2 blank), ih.2]
  | pair plain writes blanks rest ih =>
    obtain ⟨heven, hwhole, hne, hread⟩ := read_written plain writes blanks
    refine ⟨List.forall_mem_cons.2 ⟨⟨heven, hwhole⟩, ih.1⟩, ?_⟩
    rw [readItems_cons hne, hread, ih.2]
    rfl

theorem parse_of_listing {s : String} {written : List (List Char)} {pairs : List (String × String)}
    (h : Listing written pairs) (hs : s.toList = [','].intercalate written) :
    parse s = .ok ⟨pairs⟩ := by
  obtain ⟨hwhole, hread⟩ := h.read
  have heven : s.toList.count '"' % 2 = 0 := by
    rw [hs]
    exact count_intercalate fun part hpart => (hwhole part hpart).1
  have hitems : readItems (items s.toList) = .ok pairs := by
    cases written with
    | nil =>
      -- no items are written as no text, which is read as one blank item
      obtain rfl : pairs = [] := Except.ok.inj hread.symm
      rw [hs]
      rfl
    | cons item written =>
      rw [hs, items_intercalate (List.cons_ne_nil _ _) fun part hpart => (hwhole part hpart).1,
        flatMap_items fun part hpart => (hwhole part hpart).2, hread]
  rw [parse, if_neg ((not_endsQuoted_iff _).2 heven), hitems]
  rfl

/-- A value that is found is that of the first pair with the key. -/
theorem get?_eq_some_iff {args : Arguments} {key value : String} :
    args.get? key = some value ↔ ∃ before after, args.pairs = before ++ (key, value) :: after ∧
      ∀ pair ∈ before, pair.1 ≠ key := by
  obtain ⟨pairs⟩ := args
  show pairs.lookup key = some value ↔ ∃ before after, pairs = before ++ (key, value) :: after ∧
    ∀ pair ∈ before, pair.1 ≠ key
  induction pairs with
  | nil => simp
  | cons pair pairs ih =>
    obtain ⟨k, v⟩ := pair
    by_cases hk : k = key
    · subst hk
      rw [List.lookup_cons_self, Option.some.injEq]
      constructor
      · rintro rfl
        exact ⟨[], pairs, rfl, fun pair hpair => nomatch hpair⟩
      · rintro ⟨before, after, hpairs, hbefore⟩
        cases before with
        | nil => exact (Prod.mk.inj (List.cons.inj hpairs).1).2
        | cons pair before =>
          obtain ⟨rfl, -⟩ := List.cons.inj hpairs
          exact absurd rfl (hbefore _ List.mem_cons_self)
    · rw [List.lookup_cons, beq_false_of_ne (Ne.symm hk)]
      simp only [ih]
      constructor
      · -- the first pair has another key, and is one more before the one that is found
        rintro ⟨before, after, rfl, hbefore⟩
        exact ⟨(k, v) :: before, after, rfl, List.forall_mem_cons.2 ⟨hk, hbefore⟩⟩
      · rintro ⟨before, after, hpairs, hbefore⟩
        cases before with
        | nil => exact absurd (Prod.mk.inj (List.cons.inj hpairs).1).1 hk
        | cons pair before =>
          obtain ⟨rfl, rfl⟩ := List.cons.inj hpairs
          exact ⟨before, after, rfl, fun p hp => hbefore p (List.mem_cons_of_mem _ hp)⟩

/-- How argument text is read. It is refused for its quotes exactly if their number is odd. Else it
is split at exactly the commas behind an even number of quotes, and refused for the first item that
is neither blank nor a pair, if there is one. A list of pairs is read back from each way to write it
down, and then the first pair with a key says what its value is. -/
theorem parse_grammar (s : String) :
    (parse s = .error .unterminatedQuote ↔ s.toList.count '"' % 2 = 1) ∧
      (s.toList.count '"' % 2 = 0 →
        [','].intercalate (items s.toList) = s.toList ∧
          (∀ i, Separates s.toList i ↔ ∃ first rest, first ≠ [] ∧ rest ≠ [] ∧
            items s.toList = first ++ rest ∧ ([','].intercalate first).length = i) ∧
          ∀ e, parse s = .error e ↔ ∃ item, FirstMalformed ((items s.toList).map Text.trim) item ∧
            e = .malformed (String.ofList item)) ∧
      ∀ written pairs, Listing written pairs → s.toList = [','].intercalate written →
        ∃ args, parse s = .ok args ∧ args.pairs = pairs ∧
          ∀ key value, args.get? key = some value ↔ ∃ before after,
            pairs = before ++ (key, value) :: after ∧ ∀ pair ∈ before, pair.1 ≠ key := by
  refine ⟨?_, fun heven => ⟨intercalate_items heven, separates_iff heven, fun e => ?_⟩, ?_⟩
  · rw [parse_eq_error_iff]
    simp
  · rw [parse_eq_error_iff]
    simp [heven]
  · intro written pairs hlisting hs
    exact ⟨⟨pairs⟩, parse_of_listing hlisting hs, rfl, fun key value => get?_eq_some_iff⟩

/-- Two pairs with one key and one with a quoted value, an empty item between, blanks at will. -/
def spacedText : String := " n = 1K ,,\tlabel=\"b, c\" ,n="

/-- Its items, each as it is laid out. -/
def spacedItems : List (List Char) :=
  [[' '] ++ ['n'] ++ [' '] ++ '=' :: ([' '] ++ ['1', 'K'] ++ [' ']), [],
    ['\t'] ++ ['l', 'a', 'b', 'e', 'l'] ++ [] ++ '=' ::
      ([] ++ '"' :: (['b', ',', ' ', 'c'] ++ ['"']) ++ [' ']),
    [] ++ ['n'] ++ [] ++ '=' :: ([] ++ [] ++ [])]

theorem plainKey_n : PlainKey ['n'] :=
  ⟨by decide, Text.trimmed_of_all rfl, by decide, by decide, by decide⟩

theorem plainKey_label : PlainKey ['l', 'a', 'b', 'e', 'l'] :=
  ⟨by decide, Text.trimmed_of_all rfl, by decide, by decide, by decide⟩

theorem spacedItems_listing :
    Listing spacedItems [("n", "1K"), ("label", "b, c"), ("n", "")] := by
  refine .pair plainKey_n (.bare (Text.trimmed_of_all rfl) (by decide) (by decide))
    (Text.blanks_of_all rfl) ?_
  refine .blank Text.blank_nil ?_
  refine .pair plainKey_label (.quoted (by decide)) (Text.blanks_of_all rfl) ?_
  exact .pair plainKey_n (.bare (Text.trimmed_of_all rfl) (by decide) (by decide))
    (Text.blanks_of_all rfl) .nil

theorem parse_grammar_spaced :
    spacedText.toList.count '"' % 2 = 0 ∧
      Listing spacedItems [("n", "1K"), ("label", "b, c"), ("n", "")] ∧
      spacedText.toList = [','].intercalate spacedItems ∧
      Separates spacedText.toList 8 ∧ ¬Separates spacedText.toList 19 ∧
      ∃ args, parse spacedText = .ok args ∧ args.get? "n" = some "1K" := by
  have heven : spacedText.toList.count '"' % 2 = 0 := by decide
  have hs : spacedText.toList = [','].intercalate spacedItems := by decide
  obtain ⟨-, hsplit, hread⟩ := parse_grammar spacedText
  obtain ⟨args, hparse, hpairs, hget⟩ := hread _ _ spacedItems_listing hs
  refine ⟨heven, spacedItems_listing, hs, ?_, ?_, args, hparse, ?_⟩
  · exact ((hsplit heven).2.1 8).2 ⟨spacedItems.take 1, spacedItems.drop 1, by decide⟩
  · exact fun h => absurd h.2 (by decide)
  · exact (hget "n" "1K").2 ⟨[], _, rfl, fun pair hpair => nomatch hpair⟩

end BlockMux.Arguments
