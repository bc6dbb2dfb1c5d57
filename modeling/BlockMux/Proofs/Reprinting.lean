import BlockMux.Proofs.ArgumentGrammar

/-!
# Which arguments can be printed and read again

Arguments are printed as text of the same format that they are read from. A value with a comma or a
space is put in quotes then, and any other value is printed as it is. That is enough for most
values, but not for all that can be read: a printed value may bring quotes of its own, which pair up
with those around it or are taken for them, and it may start or end with a blank that is no space.

Main statements:

* `Parsed`, `parsed_of_parse` — what the keys and values are like that can be read at all.
* `Survives`, `reread_iff` — the pairs that are read back from their printed items.
* `survives_of_plain` — quotes and unusual blanks are all that can keep a pair from it.
* `reparse_iff` — arguments are read back from their printed text exactly if all pairs are.
* `quotes_lost` — this is not so for all arguments.
-/

namespace BlockMux.Arguments

/-! ## Reading some items after others -/

theorem readItems_cons_eq_ok {item : List Char} (h : Text.trim item ≠ [])
    {items : List (List Char)} {pairs : List (String × String)} :
    readItems (item :: items) = .ok pairs ↔ ∃ pair rest, readItem (Text.trim item) = .ok pair ∧
      readItems items = .ok rest ∧ pairs = pair :: rest := by
  rw [readItems_cons h]
  cases readItem (Text.trim item) with
  | error e => simp [Except.bind]
  | ok pair => cases readItems items <;> simp [Except.bind, Except.map, eq_comm]

theorem readItems_append_eq_ok {xs ys : List (List Char)} {pairs : List (String × String)} :
    readItems (xs ++ ys) = .ok pairs ↔
      ∃ first rest, readItems xs = .ok first ∧ readItems ys = .ok rest ∧ pairs = first ++ rest := by
  induction xs generalizing pairs with
  | nil => simp [readItems]
  | cons item xs ih =>
    rw [List.cons_append]
    by_cases hblank : Text.trim item = []
    · rw [readItems_cons_blank hblank, readItems_cons_blank hblank, ih]
    · simp only [readItems_cons_eq_ok hblank, ih]
      constructor
      · rintro ⟨pair, later, hpair, ⟨first, rest, hfirst, hrest, rfl⟩, rfl⟩
        exact ⟨pair :: first, rest, ⟨pair, first, hpair, hfirst, rfl⟩, hrest, rfl⟩
      · rintro ⟨_, rest, ⟨pair, first, hpair, hfirst, rfl⟩, hrest, rfl⟩
        exact ⟨pair, first ++ rest, hpair, ⟨first, rest, hfirst, hrest, rfl⟩, rfl⟩

/-- Each pair that is read comes from an item. -/
theorem exists_item_of_mem {items : List (List Char)} {pairs : List (String × String)}
    (h : readItems items = .ok pairs) {pair : String × String} (hpair : pair ∈ pairs) :
    ∃ item ∈ items, readItem (Text.trim item) = .ok pair := by
  induction items generalizing pairs with
  | nil =>
    obtain rfl := Except.ok.inj h
    simp at hpair
  | cons item items ih =>
    by_cases hblank : Text.trim item = []
    · rw [readItems_cons_blank hblank] at h
      obtain ⟨other, hother, hread⟩ := ih h hpair
      exact ⟨other, List.mem_cons_of_mem item hother, hread⟩
    · obtain ⟨first, rest, hfirst, hrest, rfl⟩ := (readItems_cons_eq_ok hblank).1 h
      rcases List.mem_cons.1 hpair with rfl | hlater
      · exact ⟨item, List.mem_cons_self, hfirst⟩
      · obtain ⟨other, hother, hread⟩ := ih hrest hlater
        exact ⟨other, List.mem_cons_of_mem item hother, hread⟩

/-- Text with a character that is neither blank nor a comma is read as one pair at least. -/
theorem length_pos_of_read {cs : List Char} (heven : cs.count '"' % 2 = 0) {c : Char} (hc : c ∈ cs)
    (hblank : Text.isBlank c = false) (hcomma : c ≠ ',') {pairs : List (String × String)}
    (h : readItems (items cs) = .ok pairs) : 0 < pairs.length := by
  induction cs, heven using even_induction generalizing pairs with
  | whole cs heven hquoted =>
    have hne : Text.trim cs ≠ [] :=
      fun hnil => Text.not_mem_of_blank (Text.trim_eq_nil_iff.1 hnil) hblank hc
    rw [items_of_commasQuoted hquoted] at h
    obtain ⟨pair, rest, -, -, rfl⟩ := (readItems_cons_eq_ok hne).1 h
    exact Nat.succ_pos _
  | separated before after hbefore hafter heven ihBefore ihAfter =>
    rw [items_separated hbefore] at h
    obtain ⟨first, rest, hfirst, hrest, rfl⟩ := readItems_append_eq_ok.1 h
    rw [List.length_append]
    -- the character stands on one of the two sides
    rcases List.mem_append.1 hc with hleft | hright
    · have hpos := ihBefore hleft hfirst
      omega
    · have hpos := ihAfter ((List.mem_cons.1 hright).resolve_left hcomma) hrest
      omega

/-! ## Pairs that can be read -/

theorem count_trim (cs : List Char) : (Text.trim cs).count '"' = cs.count '"' := by
  obtain ⟨left, right, hleft, hright, hcs⟩ := Text.exists_blanks cs
  have hnone : ∀ {blanks : List Char}, Text.Blank blanks → blanks.count '"' = 0 :=
    fun h => List.count_eq_zero.2 (Text.not_mem_of_blank h (by decide))
  conv =>
    rhs
    rw [hcs, List.count_append, List.count_append, hnone hleft, hnone hright]
  omega

theorem commasQuoted_trim {cs : List Char} (h : CommasQuoted cs) : CommasQuoted (Text.trim cs) := by
  obtain ⟨left, right, hleft, -, hcs⟩ := Text.exists_blanks cs
  rw [hcs] at h
  have htrimmed := (commasQuoted_append.1 (commasQuoted_append.1 h).1).2
  intro before after hsplit
  have hquotes := htrimmed before after hsplit
  rwa [List.count_append,
    List.count_eq_zero.2 (Text.not_mem_of_blank hleft (by decide)), Nat.zero_add] at hquotes

theorem count_unquote (cs : List Char) : (unquote cs).count '"' % 2 = cs.count '"' % 2 := by
  by_cases henclosed : Enclosed cs
  · obtain ⟨inner, rfl⟩ := henclosed
    rw [unquote_enclosed, List.count_cons_self, List.count_append, List.count_singleton_self]
    omega
  · rw [unquote_of_not_enclosed henclosed]

/-- What can be said of a key and its value once they have been read. -/
structure Parsed (key value : List Char) : Prop where
  nonempty : key ≠ []
  trimmed : Text.Trimmed key
  unequal : '=' ∉ key
  commas : CommasQuoted key
  paired : (key.count '"' + value.count '"') % 2 = 0

theorem parsed_of_readItem {item : List Char} (heven : item.count '"' % 2 = 0)
    (hquoted : CommasQuoted item) {pair : String × String} (h : readItem item = .ok pair) :
    Parsed pair.1.toList pair.2.toList := by
  by_cases hequals : '=' ∈ item
  · obtain ⟨key, value, rfl, hkey⟩ := exists_divided hequals
    rw [readItem_divided hkey] at h
    split at h
    · simp at h
    · rename_i hne
      obtain rfl := Except.ok.inj h
      have hcount : (key ++ '=' :: value).count '"' = key.count '"' + value.count '"' := by
        rw [List.count_append, List.count_cons_of_ne (by decide)]
      have hvalue := count_unquote (Text.trim value)
      rw [count_trim] at hvalue
      rw [String.toList_ofList, String.toList_ofList]
      refine ⟨hne, Text.trimmed_trim key, ?_, ?_, ?_⟩
      · -- what is left of the key once the blanks are gone is part of it
        obtain ⟨left, right, -, -, hsplit⟩ := Text.exists_blanks key
        rw [hsplit] at hkey
        exact fun hmem => hkey (List.mem_append_left _ (List.mem_append_right _ hmem))
      · exact commasQuoted_trim (commasQuoted_append.1 hquoted).1
      · rw [count_trim]
        omega
  · rw [readItem_of_missing hequals] at h
    simp at h

theorem parsed_of_parse {s : String} {args : Arguments} (h : parse s = .ok args)
    {pair : String × String} (hpair : pair ∈ args.pairs) :
    Parsed pair.1.toList pair.2.toList := by
  unfold parse at h
  split at h
  · simp at h
  · rename_i hends
    have heven := (not_endsQuoted_iff _).1 hends
    cases hread : readItems (items s.toList) with
    | error e =>
      rw [hread] at h
      cases h
    | ok pairs =>
      rw [hread] at h
      obtain rfl := Except.ok.inj h
      obtain ⟨item, hitem, hitemRead⟩ := exists_item_of_mem hread hpair
      obtain ⟨hpaired, hquoted⟩ := mem_items heven hitem
      exact parsed_of_readItem (by rw [count_trim]; exact hpaired) (commasQuoted_trim hquoted)
        hitemRead

/-! ## Printed pairs -/

/-- A pair as it is printed, in characters. -/
def printed (key value : List Char) : List Char :=
  if ',' ∈ value ∨ ' ' ∈ value then key ++ '=' :: '"' :: (value ++ ['"']) else key ++ '=' :: value

theorem toList_printPair (pair : String × String) :
    (printPair pair).toList = printed pair.1.toList pair.2.toList := by
  have hany : pair.2.toList.any (fun c => decide (c = ',' ∨ c = ' ')) = true ↔
      ',' ∈ pair.2.toList ∨ ' ' ∈ pair.2.toList := by
    simp only [List.any_eq_true, decide_eq_true_eq]
    constructor
    · rintro ⟨c, hc, rfl | rfl⟩
      · exact .inl hc
      · exact .inr hc
    · rintro (hc | hc)
      · exact ⟨',', hc, .inl rfl⟩
      · exact ⟨' ', hc, .inr rfl⟩
  unfold printPair printed
  by_cases h : ',' ∈ pair.2.toList ∨ ' ' ∈ pair.2.toList
  · rw [if_pos (hany.2 h), if_pos h]
    simp
  · rw [if_neg fun hprint => h (hany.1 hprint), if_neg h]
    simp

/-- A pair that is read back from its printed item. A value that is put in quotes must have its own
commas behind an even number of quotes, counted from the key on: only then do the new quotes cover
them. Any other value must start and end with no blank, and not with a pair of quotes. -/
def Survives (key value : List Char) : Prop :=
  if ',' ∈ value ∨ ' ' ∈ value then
    ∀ before after, value = before ++ ',' :: after → (key ++ before).count '"' % 2 = 0
  else Text.Trimmed value ∧ ¬Enclosed value

/-- Without quotes, and with no other blanks than spaces at its ends, a value is read back. -/
theorem survives_of_plain {key value : List Char} (hkey : '"' ∉ key) (hvalue : '"' ∉ value)
    (hstart : ∀ c ∈ value.head?, Text.isBlank c = true → c = ' ')
    (hend : ∀ c ∈ value.getLast?, Text.isBlank c = true → c = ' ') : Survives key value := by
  unfold Survives
  split
  · rintro before after rfl
    have hbefore : '"' ∉ key ++ before := by
      intro hmem
      rcases List.mem_append.1 hmem with hmem | hmem
      · exact hkey hmem
      · exact hvalue (List.mem_append_left _ hmem)
    rw [List.count_eq_zero.2 hbefore]
  · rename_i hplain
    have hspace : ' ' ∉ value := fun hmem => hplain (.inr hmem)
    refine ⟨⟨fun c hc => ?_, fun c hc => ?_⟩, ?_⟩
    · refine Bool.eq_false_iff.2 fun hblank => hspace ?_
      exact hstart c hc hblank ▸ List.mem_of_mem_head? hc
    · refine Bool.eq_false_iff.2 fun hblank => hspace ?_
      exact hend c hc hblank ▸ List.mem_of_getLast? hc
    · rintro ⟨inner, rfl⟩
      exact hvalue List.mem_cons_self

theorem even_printed {key value : List Char} (h : Parsed key value) :
    (printed key value).count '"' % 2 = 0 := by
  have hpaired := h.paired
  unfold printed
  split
  · rw [List.count_append, List.count_cons_of_ne (by decide), List.count_cons_self,
      List.count_append, List.count_singleton_self]
    omega
  · rwa [List.count_append, List.count_cons_of_ne (by decide)]

/-- The commas of a value that is put in quotes. -/
theorem commasQuoted_quoted {key value : List Char} (h : Parsed key value) :
    CommasQuoted (key ++ '=' :: '"' :: (value ++ ['"'])) ↔
      ∀ before after, value = before ++ ',' :: after → (key ++ before).count '"' % 2 = 0 := by
  have hsplit : key ++ '=' :: '"' :: (value ++ ['"']) = key ++ ['=', '"'] ++ value ++ ['"'] := by
    simp
  have hcount : ∀ before, (key ++ ['=', '"'] ++ before).count '"' =
      (key ++ before).count '"' + 1 := by
    intro before
    simp only [List.count_append]
    have hone : ['=', '"'].count '"' = 1 := by decide
    omega
  rw [hsplit, commasQuoted_append_right (by decide), commasQuoted_append,
    commasQuoted_append_right (by decide)]
  constructor
  · -- behind the opening quote the parity is the other one
    rintro ⟨-, hvalue⟩ before after hcomma
    have hodd := hvalue before after hcomma
    rw [hcount] at hodd
    omega
  · intro hvalue
    refine ⟨h.commas, ?_⟩
    intro before after hcomma
    have heven := hvalue before after hcomma
    rw [hcount]
    omega

/-- A text that is one item is read as one pair. -/
theorem readItems_whole {key value written : List Char} (h : Parsed key value)
    (hquoted : CommasQuoted (key ++ '=' :: written)) :
    readItems (items (key ++ '=' :: written)) =
      .ok [(String.ofList key, String.ofList (unquote (Text.trim written)))] := by
  have hkey : Text.trim key = key := Text.trim_of_trimmed h.trimmed
  obtain ⟨hne, hread⟩ := readItem_trim h.unequal (hkey.symm ▸ h.nonempty) written
  rw [items_of_commasQuoted hquoted]
  exact (readItems_cons_eq_ok hne).2 ⟨_, [], hread, rfl, by rw [hkey]⟩

theorem length_unquote_le (cs : List Char) : (unquote cs).length ≤ cs.length := by
  by_cases henclosed : Enclosed cs
  · obtain ⟨inner, rfl⟩ := henclosed
    rw [unquote_enclosed, List.length_cons, List.length_append]
    omega
  · exact Nat.le_of_eq (congrArg List.length (unquote_of_not_enclosed henclosed))

/-- Nothing is taken off exactly from a value without blanks or a pair of quotes at its ends. -/
theorem unquote_trim_eq_self_iff {value : List Char} :
    unquote (Text.trim value) = value ↔ Text.Trimmed value ∧ ¬Enclosed value := by
  constructor
  · intro h
    obtain ⟨left, right, -, -, hsplit⟩ := Text.exists_blanks value
    -- what is left is as long as the value, so there were no blanks to take off
    have hlengths := congrArg List.length hsplit
    have hunquote := length_unquote_le (Text.trim value)
    rw [h] at hunquote
    rw [List.length_append, List.length_append] at hlengths
    have hleft : left = [] := List.eq_nil_of_length_eq_zero (by omega)
    have hright : right = [] := List.eq_nil_of_length_eq_zero (by omega)
    have htrim : Text.trim value = value := by
      rw [hleft, hright, List.nil_append, List.append_nil] at hsplit
      exact hsplit.symm
    refine ⟨htrim ▸ Text.trimmed_trim value, ?_⟩
    rintro ⟨inner, rfl⟩
    rw [htrim, unquote_enclosed] at h
    have hlength := congrArg List.length h
    simp at hlength
    omega
  · rintro ⟨htrimmed, hopen⟩
    rw [Text.trim_of_trimmed htrimmed, unquote_of_not_enclosed hopen]

/-- Text that is divided by a comma is not read as a single pair if there is more than blanks and
commas on either side. -/
theorem readItems_ne_singleton {before after : List Char}
    (heven : (before ++ ',' :: after).count '"' % 2 = 0) (hbefore : before.count '"' % 2 = 0)
    {c d : Char} (hc : c ∈ before ∧ Text.isBlank c = false ∧ c ≠ ',')
    (hd : d ∈ after ∧ Text.isBlank d = false ∧ d ≠ ',') (pair : String × String) :
    readItems (items (before ++ ',' :: after)) ≠ .ok [pair] := by
  rw [count_separated] at heven
  rw [items_separated hbefore]
  intro hread
  obtain ⟨first, rest, hfirst, hrest, hpairs⟩ := readItems_append_eq_ok.1 hread
  have hlength := congrArg List.length hpairs
  rw [List.length_append, List.length_singleton] at hlength
  -- each side gives a pair of its own
  have hfirstPos := length_pos_of_read hbefore hc.1 hc.2.1 hc.2.2 hfirst
  have hrestPos := length_pos_of_read (by omega) hd.1 hd.2.1 hd.2.2 hrest
  omega

/-- The first character of a key is one that counts. -/
theorem Parsed.exists_head {key value : List Char} (h : Parsed key value) :
    ∃ c rest, key = c :: rest ∧ Text.isBlank c = false ∧ c ≠ ',' := by
  cases hkey : key with
  | nil => exact absurd hkey h.nonempty
  | cons c rest =>
    refine ⟨c, rest, rfl, h.trimmed.1 c (by rw [hkey]; rfl), ?_⟩
    rintro rfl
    have hquotes := h.commas [] rest hkey
    simp at hquotes

/-- The last character comes after any other that is told apart from it. -/
theorem mem_of_append_eq {xs before after : List Char} {x y : Char}
    (h : xs ++ [x] = before ++ y :: after) (hne : x ≠ y) : x ∈ after := by
  rcases List.eq_nil_or_concat after with rfl | ⟨init, last, rfl⟩
  · exact absurd (List.cons.inj (List.append_inj' h rfl).2).1 hne
  · rw [List.concat_eq_append, ← List.cons_append, ← List.append_assoc] at h
    obtain ⟨rfl, -⟩ := List.cons.inj (List.append_inj' h rfl).2
    rw [List.concat_eq_append]
    exact List.mem_append_right _ List.mem_cons_self

/-- If a pair with a value in quotes is read as one pair, then it is one item. -/
theorem commasQuoted_of_single {key value : List Char} (h : Parsed key value)
    (heven : (key ++ '=' :: '"' :: (value ++ ['"'])).count '"' % 2 = 0) {pair : String × String}
    (hread : readItems (items (key ++ '=' :: '"' :: (value ++ ['"']))) = .ok [pair]) :
    CommasQuoted (key ++ '=' :: '"' :: (value ++ ['"'])) := by
  refine Classical.byContradiction ?_
  intro hopen
  obtain ⟨before, after, hsplit, hbefore⟩ := exists_separated hopen
  obtain ⟨c, rest, rfl, hblank, hcomma⟩ := h.exists_head
  -- the key starts before the comma that divides the text, and the closing quote comes after it
  have hc : c ∈ before := by
    cases before with
    | nil => exact absurd (List.cons.inj hsplit).1 hcomma
    | cons d before => exact (List.cons.inj hsplit).1 ▸ List.mem_cons_self
  have hends : (c :: rest ++ '=' :: '"' :: value) ++ ['"'] = before ++ ',' :: after := by
    simpa using hsplit
  have hquote : '"' ∈ after := mem_of_append_eq hends (by decide)
  rw [hsplit] at heven hread
  exact readItems_ne_singleton heven hbefore ⟨hc, hblank, hcomma⟩
    ⟨hquote, by decide, by decide⟩ pair hread

/-- A pair is read back from its printed text, and nothing else from it, exactly if it survives. -/
theorem reread_iff {key value : List Char} (h : Parsed key value) :
    readItems (items (printed key value)) = .ok [(String.ofList key, String.ofList value)] ↔
      Survives key value := by
  have heven := even_printed h
  unfold printed Survives at *
  by_cases hquote : ',' ∈ value ∨ ' ' ∈ value
  · rw [if_pos hquote] at heven ⊢
    rw [if_pos hquote, ← commasQuoted_quoted h]
    constructor
    · exact commasQuoted_of_single h heven
    · intro hquoted
      rw [readItems_whole h hquoted, Text.trim_of_trimmed (trimmed_enclosed value),
        unquote_enclosed]
  · rw [if_neg hquote, if_neg hquote]
    -- a bare value has no comma, so the printed pair is one item as the key is
    have hplain : ',' ∉ '=' :: value := by
      intro hcomma
      exact hquote (.inl ((List.mem_cons.1 hcomma).resolve_left (by decide)))
    have hquoted : CommasQuoted (key ++ '=' :: value) :=
      (commasQuoted_append_right hplain).2 h.commas
    rw [readItems_whole h hquoted, ← unquote_trim_eq_self_iff]
    constructor
    · intro hread
      have hvalue := congrArg Prod.snd (List.cons.inj (Except.ok.inj hread)).1
      simpa using congrArg String.toList hvalue
    · intro hvalue
      rw [hvalue]

/-! ## Printed lists of pairs -/

/-- The text of a list of pairs, in characters. -/
def printedList (pairs : List (String × String)) : List Char :=
  [',', ' '].intercalate (pairs.map fun pair => printed pair.1.toList pair.2.toList)

theorem toList_print (args : Arguments) : args.print.toList = printedList args.pairs := by
  have htexts : args.pairs.map (String.toList ∘ printPair) =
      args.pairs.map fun pair => printed pair.1.toList pair.2.toList :=
    List.map_congr_left fun pair _ => toList_printPair pair
  rw [print, String.toList_intercalate, List.map_map, htexts, printedList]
  rfl

theorem printedList_singleton (pair : String × String) :
    printedList [pair] = printed pair.1.toList pair.2.toList := List.intercalate_singleton

theorem printedList_cons {pair : String × String} {pairs : List (String × String)}
    (h : pairs ≠ []) : printedList (pair :: pairs) =
      printed pair.1.toList pair.2.toList ++ ',' :: ' ' :: printedList pairs := by
  have hmap : pairs.map (fun pair => printed pair.1.toList pair.2.toList) ≠ [] :=
    fun hnil => h (List.map_eq_nil_iff.1 hnil)
  rw [printedList, List.map_cons, List.intercalate_cons_of_ne_nil hmap, List.append_assoc]
  rfl

/-- A blank in front changes nothing. -/
theorem readItems_space (cs : List Char) :
    readItems (items (' ' :: cs)) = readItems (items cs) := by
  have htrim : Text.trim (' ' :: (splitItems false cs).1) = Text.trim (splitItems false cs).1 := rfl
  have hitems : items (' ' :: cs) =
      (' ' :: (splitItems false cs).1) :: (splitItems false cs).2.1 := by
    simp [items, splitItems]
  rw [hitems, items]
  simp only [readItems, htrim]

theorem even_printedList {pairs : List (String × String)}
    (h : ∀ pair ∈ pairs, Parsed pair.1.toList pair.2.toList) :
    (printedList pairs).count '"' % 2 = 0 := by
  induction pairs with
  | nil => rfl
  | cons pair pairs ih =>
    have hfirst := even_printed (h pair List.mem_cons_self)
    have hrest := ih fun p hp => h p (List.mem_cons_of_mem pair hp)
    -- between two printed pairs stand a comma and a space, which are no quotes
    by_cases hnil : pairs = []
    · rwa [hnil, printedList_singleton]
    · rw [printedList_cons hnil, count_separated, List.count_cons_of_ne (by decide)]
      omega

/-- What is read from printed pairs is read from one after the other. -/
theorem readItems_printedList {pair : String × String} {pairs ps : List (String × String)}
    (h : Parsed pair.1.toList pair.2.toList) :
    readItems (items (printedList (pair :: pairs))) = .ok ps ↔ ∃ first rest,
      readItems (items (printed pair.1.toList pair.2.toList)) = .ok first ∧
        readItems (items (printedList pairs)) = .ok rest ∧ ps = first ++ rest := by
  by_cases hnil : pairs = []
  · subst hnil
    have hempty : readItems (items (printedList [])) = .ok [] := rfl
    rw [printedList_singleton, hempty]
    constructor
    · exact fun hread => ⟨ps, [], hread, rfl, (List.append_nil ps).symm⟩
    · rintro ⟨first, rest, hfirst, hrest, rfl⟩
      obtain rfl := Except.ok.inj hrest
      rwa [List.append_nil]
  · rw [printedList_cons hnil, items_separated (even_printed h), readItems_append_eq_ok]
    simp only [readItems_space]

/-- A printed pair is read as one at least. -/
theorem length_pos_of_printed {key value : List Char} (h : Parsed key value)
    {pairs : List (String × String)} (hread : readItems (items (printed key value)) = .ok pairs) :
    0 < pairs.length := by
  obtain ⟨c, rest, rfl, hblank, hcomma⟩ := h.exists_head
  have hc : c ∈ printed (c :: rest) value := by
    unfold printed
    split <;> simp
  exact length_pos_of_read (even_printed h) hc hblank hcomma hread

theorem length_le_of_read {pairs ps : List (String × String)}
    (h : ∀ pair ∈ pairs, Parsed pair.1.toList pair.2.toList)
    (hread : readItems (items (printedList pairs)) = .ok ps) : pairs.length ≤ ps.length := by
  induction pairs generalizing ps with
  | nil => exact Nat.zero_le _
  | cons pair pairs ih =>
    have hpair := h pair List.mem_cons_self
    obtain ⟨first, rest, hfirst, hrest, rfl⟩ := (readItems_printedList hpair).1 hread
    have hpos := length_pos_of_printed hpair hfirst
    have hlater := ih (fun p hp => h p (List.mem_cons_of_mem pair hp)) hrest
    rw [List.length_append, List.length_cons]
    omega

theorem rereadList_iff {pairs : List (String × String)}
    (h : ∀ pair ∈ pairs, Parsed pair.1.toList pair.2.toList) :
    readItems (items (printedList pairs)) = .ok pairs ↔
      ∀ pair ∈ pairs, Survives pair.1.toList pair.2.toList := by
  induction pairs with
  | nil => exact ⟨fun _ pair hpair => (nomatch hpair), fun _ => rfl⟩
  | cons pair pairs ih =>
    have hpair := h pair List.mem_cons_self
    have hlater := fun p hp => h p (List.mem_cons_of_mem pair hp)
    have hfirst := reread_iff hpair
    rw [String.ofList_toList, String.ofList_toList] at hfirst
    rw [readItems_printedList hpair, List.forall_mem_cons, ← ih hlater, ← hfirst]
    constructor
    · rintro ⟨first, rest, hread, hrest, hpairs⟩
      -- each printed pair gives one at least, so the first gives just its own
      have hpos := length_pos_of_printed hpair hread
      have hlength := length_le_of_read hlater hrest
      have hboth := congrArg List.length hpairs
      rw [List.length_append, List.length_cons] at hboth
      have hone : first.length = 1 := by omega
      obtain ⟨only, rfl⟩ := List.length_eq_one_iff.1 hone
      obtain ⟨rfl, rfl⟩ := List.cons.inj hpairs
      exact ⟨hread, hrest⟩
    · rintro ⟨hread, hrest⟩
      exact ⟨[pair], pairs, hread, hrest, rfl⟩

/-! ## Arguments -/

theorem parse_print_eq_ok {args other : Arguments}
    (h : ∀ pair ∈ args.pairs, Parsed pair.1.toList pair.2.toList) :
    parse args.print = .ok other ↔
      readItems (items (printedList args.pairs)) = .ok other.pairs := by
  have heven := even_printedList h
  rw [parse, toList_print, if_neg ((not_endsQuoted_iff _).2 heven)]
  obtain ⟨pairs⟩ := other
  cases readItems (items (printedList args.pairs)) <;> simp [Except.map]

/-- Arguments that were read are read back from their printed text exactly if each of their pairs is
read back from its own part of it. -/
theorem reparse_iff {s : String} {args : Arguments} (h : parse s = .ok args) :
    parse args.print = .ok args ↔
      ∀ pair ∈ args.pairs, Survives pair.1.toList pair.2.toList := by
  have hparsed : ∀ pair ∈ args.pairs, Parsed pair.1.toList pair.2.toList :=
    fun pair hpair => parsed_of_parse h hpair
  rw [parse_print_eq_ok hparsed, rereadList_iff hparsed]

/-- A label that needs quotes and a number that does not are both read back. -/
theorem reparse_label :
    parse "label = \"fs -> root\", n=64K" = .ok ⟨[("label", "fs -> root"), ("n", "64K")]⟩ ∧
      parse (print ⟨[("label", "fs -> root"), ("n", "64K")]⟩) =
        .ok ⟨[("label", "fs -> root"), ("n", "64K")]⟩ := by
  have hread : parse "label = \"fs -> root\", n=64K" =
      .ok ⟨[("label", "fs -> root"), ("n", "64K")]⟩ := rfl
  have hlabel : Survives "label".toList "fs -> root".toList := by
    refine survives_of_plain (by decide) (by decide) (fun c hc hblank => ?_) fun c hc hblank => ?_
    · obtain rfl := Option.some.inj hc
      exact absurd hblank (by decide)
    · obtain rfl := Option.some.inj hc
      exact absurd hblank (by decide)
  have hnumber : Survives "n".toList "64K".toList := by
    rw [Survives, if_neg (by decide)]
    refine ⟨Text.trimmed_of_all rfl, ?_⟩
    rintro ⟨inner, henclosed⟩
    exact absurd (List.cons.inj henclosed).1 (by decide)
  refine ⟨hread, (reparse_iff hread).2 ?_⟩
  simp only [List.forall_mem_cons]
  exact ⟨hlabel, hnumber, fun pair hpair => nomatch hpair⟩

/-- A value with quotes of its own loses them when it is read again. -/
theorem quotes_lost : ¬∀ s args, parse s = .ok args → parse args.print = .ok args := by
  intro h
  have hread : parse "label=\"\"disk\"\"" = .ok ⟨[("label", "\"disk\"")]⟩ := rfl
  have hagain : parse (print ⟨[("label", "\"disk\"")]⟩) = .ok ⟨[("label", "disk")]⟩ := rfl
  have hsame := Except.ok.inj ((h _ _ hread).symm.trans hagain)
  exact absurd hsame (by decide)

end BlockMux.Arguments
