import BlockMux.Text.Blank

/-!
# Blanks around text

What trimming does, said with the blanks that it takes off: whatever stands between blanks is found
by it, and whatever it takes off is blank.

Main statements:

* `trim_of_blanks` — trimmed text is found between blanks.
* `exists_blanks`, `trimmed_trim` — trimming takes off blanks only, and all that stand at the ends.
* `trim_append_cons` — the two sides of a character that is not blank are trimmed on their own.
-/

namespace BlockMux.Text

/-- Text of blank characters alone. -/
def Blank (cs : List Char) : Prop := ∀ c ∈ cs, isBlank c = true

/-- Text that neither starts nor ends with a blank character. -/
def Trimmed (cs : List Char) : Prop :=
  (∀ c ∈ cs.head?, isBlank c = false) ∧ ∀ c ∈ cs.getLast?, isBlank c = false

theorem blank_nil : Blank [] := fun _ hc => nomatch hc

theorem blanks_of_all {texts : List (List Char)} (h : texts.all (·.all isBlank) = true) :
    ∀ cs ∈ texts, Blank cs :=
  fun cs hcs => List.all_eq_true.1 (List.all_eq_true.1 h cs hcs)

/-- Text without any blank character is trimmed. -/
theorem trimmed_of_all {cs : List Char} (h : cs.all (fun c => !isBlank c) = true) : Trimmed cs := by
  have hnone : ∀ c ∈ cs, isBlank c = false := by simpa using h
  exact ⟨fun c hc => hnone c (List.mem_of_mem_head? hc),
    fun c hc => hnone c (List.mem_of_getLast? hc)⟩

theorem not_mem_of_blank {cs : List Char} {c : Char} (h : Blank cs)
    (hc : isBlank c = false) : c ∉ cs :=
  fun hmem => Bool.false_ne_true (hc ▸ h c hmem)

theorem trimStart_of_blank {cs : List Char} (h : Blank cs) (rest : List Char) :
    trimStart (cs ++ rest) = trimStart rest := List.dropWhile_append_of_pos h

theorem trimEnd_of_blank {cs : List Char} (h : Blank cs) (before : List Char) :
    trimEnd (before ++ cs) = trimEnd before := by
  have hreverse : Blank cs.reverse := fun c hc => h c (List.mem_reverse.1 hc)
  rw [trimEnd, List.reverse_append, trimStart_of_blank hreverse, trimEnd]

theorem trimStart_eq_self {cs : List Char} (h : ∀ c ∈ cs.head?, isBlank c = false) :
    trimStart cs = cs := by
  cases cs with
  | nil => rfl
  | cons c cs => rw [trimStart, List.dropWhile_cons_of_neg (by simpa using h c rfl)]

theorem trimEnd_eq_self {cs : List Char} (h : ∀ c ∈ cs.getLast?, isBlank c = false) :
    trimEnd cs = cs := by
  rw [trimEnd, trimStart_eq_self, List.reverse_reverse]
  rwa [List.head?_reverse]

/-- What stands before a character that is not blank is trimmed on its own. -/
theorem trimStart_append_cons {c : Char} (hc : isBlank c = false) (before after : List Char) :
    trimStart (before ++ c :: after) = trimStart before ++ c :: after := by
  rw [trimStart, List.dropWhile_append]
  split
  · rename_i hempty
    rw [List.dropWhile_cons_of_neg (by simp [hc]), trimStart, List.isEmpty_iff.1 hempty,
      List.nil_append]
  · rfl

theorem trimEnd_append_cons {c : Char} (hc : isBlank c = false) (before after : List Char) :
    trimEnd (before ++ c :: after) = before ++ c :: trimEnd after := by
  have hreverse : (before ++ c :: after).reverse = after.reverse ++ c :: before.reverse := by simp
  rw [trimEnd, hreverse, trimStart_append_cons hc]
  simp [trimEnd]

theorem trim_append_cons {c : Char} (hc : isBlank c = false) (before after : List Char) :
    trim (before ++ c :: after) = trimStart before ++ c :: trimEnd after := by
  rw [trim, trimStart_append_cons hc, trimEnd_append_cons hc]

/-- Blanks around trimmed text are all that trimming takes off. -/
theorem trim_of_blanks {left cs right : List Char} (hleft : Blank left) (hcs : Trimmed cs)
    (hright : Blank right) : trim (left ++ cs ++ right) = cs := by
  rw [List.append_assoc, trim, trimStart_of_blank hleft]
  -- of an empty text only blanks are left, which the end is trimmed of
  cases cs with
  | nil =>
    rw [List.nil_append, ← List.append_nil right, trimStart_of_blank hright]
    rfl
  | cons c cs =>
    have hstart : trimStart (c :: cs ++ right) = c :: cs ++ right := trimStart_eq_self hcs.1
    rw [hstart, trimEnd_of_blank hright, trimEnd_eq_self hcs.2]

theorem blank_takeWhile (cs : List Char) : Blank (cs.takeWhile isBlank) :=
  List.all_eq_true.1 List.all_takeWhile

theorem exists_trimEnd (cs : List Char) : ∃ right, Blank right ∧ cs = trimEnd cs ++ right := by
  refine ⟨(cs.reverse.takeWhile isBlank).reverse,
    fun c hc => blank_takeWhile _ c (List.mem_reverse.1 hc), ?_⟩
  rw [trimEnd, trimStart, ← List.reverse_append, List.takeWhile_append_dropWhile,
    List.reverse_reverse]

/-- What trimming takes off is blank. -/
theorem exists_blanks (cs : List Char) :
    ∃ left right, Blank left ∧ Blank right ∧ cs = left ++ trim cs ++ right := by
  obtain ⟨right, hright, hend⟩ := exists_trimEnd (trimStart cs)
  refine ⟨cs.takeWhile isBlank, right, blank_takeWhile cs, hright, ?_⟩
  rw [List.append_assoc, trim, ← hend, trimStart, List.takeWhile_append_dropWhile]

theorem head?_trimStart {cs : List Char} {c : Char} (h : c ∈ (trimStart cs).head?) :
    isBlank c = false := by
  have hfirst := List.head?_dropWhile_not isBlank cs
  rw [trimStart] at h
  rw [Option.mem_def.1 h] at hfirst
  simpa using hfirst

theorem trimmed_trim (cs : List Char) : Trimmed (trim cs) := by
  refine ⟨fun c hc => ?_, fun c hc => ?_⟩
  · -- the first character that is left is also the first before the end was trimmed
    obtain ⟨right, -, hend⟩ := exists_trimEnd (trimStart cs)
    have hfirst : c ∈ (trimStart cs).head? := by
      rw [hend, List.head?_append, ← trim, Option.mem_def.1 hc]
      rfl
    exact head?_trimStart hfirst
  · -- the end is trimmed as the start of the reversed text
    rw [trim, trimEnd, List.getLast?_reverse] at hc
    exact head?_trimStart hc

theorem trim_trimStart (cs : List Char) : trim (trimStart cs) = trim cs := by
  rw [trim, trimStart_eq_self fun c hc => head?_trimStart hc, trim]

theorem trim_trimEnd (cs : List Char) : trim (trimEnd cs) = trim cs := by
  obtain ⟨right, hright, hcs⟩ := exists_trimEnd cs
  conv =>
    rhs
    rw [hcs]
  rw [trim, trim, trimStart, trimStart, List.dropWhile_append]
  split
  · -- nothing is left of either
    rename_i hempty
    have hblank : right.dropWhile isBlank = [] := by
      rw [← List.append_nil right, List.dropWhile_append_of_pos hright, List.dropWhile_nil]
    rw [List.isEmpty_iff.1 hempty, hblank]
  · rw [trimEnd_of_blank hright]

theorem trim_of_trimmed {cs : List Char} (h : Trimmed cs) : trim cs = cs := by
  have htrim := trim_of_blanks blank_nil h blank_nil
  rwa [List.append_nil] at htrim

theorem trim_eq_nil_iff {cs : List Char} : trim cs = [] ↔ Blank cs := by
  constructor
  · intro h
    obtain ⟨left, right, hleft, hright, hcs⟩ := exists_blanks cs
    rw [h, List.append_nil] at hcs
    intro c hc
    rw [hcs] at hc
    exact (List.mem_append.1 hc).elim (hleft c) (hright c)
  · intro h
    have hnil : Trimmed [] := trimmed_of_all rfl
    simpa using trim_of_blanks h hnil blank_nil

end BlockMux.Text
