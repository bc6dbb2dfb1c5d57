import BlockMux.Access.Quantity
import Mathlib.Data.List.Forall2
import Mathlib.Data.Nat.Digits.Defs
import Mathlib.Tactic.IntervalCases
import Mathlib.Tactic.Ring

/-!
# Quantities are read exactly

Which texts are quantities, and what number each of them stands for, can be told without a word on
how they are read: a number in digits, with its marks around it. The number is exact, however long
the text; only a quantity that is no word is refused, whether its digits are too many or its suffix
is too large.

Main statements:

* `Digits.Writes`, `Digits.Numeral`, `Digits.digits?_eq_some_iff` — digits and the numbers that they
  stand for.
* `Unscaled`, `Written`, `written_iff` — the texts of quantities.
* `read?_eq_some_iff` — a text is read as a number exactly if it is a text of that number, and the
  number is a word.
* `quantities_exact` — all of this for any text, with what is refused.
-/

namespace BlockMux

namespace Digits

/-! ## Digits -/

/-- A character writes a digit; the letters may be of either case. -/
def Writes (c : Char) (d : Nat) : Prop :=
  "0123456789abcdef".toList[d]? = some c ∨ "0123456789ABCDEF".toList[d]? = some c

instance (c : Char) (d : Nat) : Decidable (Writes c d) := inferInstanceAs (Decidable (_ ∨ _))

/-- One or more digits of a radix, the most significant first, and the number they stand for. -/
def Numeral (radix : Nat) (cs : List Char) (n : Nat) : Prop :=
  cs ≠ [] ∧ ∃ ds : List Nat, List.Forall₂ (fun c d => Writes c d ∧ d < radix) cs ds ∧
    n = Nat.ofDigits radix ds.reverse

/-- Where the characters of the digits stand. -/
theorem writes_iff {c : Char} {d : Nat} :
    Writes c d ↔ d < 10 ∧ c.toNat = 48 + d ∨
      10 ≤ d ∧ d < 16 ∧ (c.toNat = 87 + d ∨ c.toNat = 55 + d) := by
  constructor
  · intro h
    have hlt : d < 16 := by
      rcases h with h | h
      · exact (List.getElem?_eq_some_iff.1 h).1
      · exact (List.getElem?_eq_some_iff.1 h).1
    unfold Writes at h
    -- one digit at a time, with its character in either alphabet
    interval_cases d <;> rcases h with h | h <;> obtain rfl := Option.some.inj h <;> decide
  · intro h
    rw [← Char.ofNat_toNat c]
    rcases h with ⟨hd, hc⟩ | ⟨hd, hd', hc | hc⟩
    · rw [hc]
      interval_cases d <;> decide
    · rw [hc]
      interval_cases d <;> decide
    · rw [hc]
      interval_cases d <;> decide

theorem digit?_eq_some_iff {radix : Nat} {c : Char} {d : Nat} :
    digit? radix c = some d ↔ Writes c d ∧ d < radix := by
  rw [writes_iff]
  simp only [digit?, Option.ite_none_right_eq_some, Option.some.injEq]
  split
  case isTrue => omega
  case isFalse =>
    split
    case isTrue => omega
    case isFalse =>
      split
      case isTrue => omega
      case isFalse => omega

/-- The number that is continued counts as one more digit in front. -/
theorem digitsFrom?_eq_some_iff {radix acc : Nat} {cs : List Char} {n : Nat} :
    digitsFrom? radix acc cs = some n ↔
      ∃ ds : List Nat, List.Forall₂ (fun c d => Writes c d ∧ d < radix) cs ds ∧
        n = Nat.ofDigits radix (acc :: ds).reverse := by
  induction cs generalizing acc with
  | nil => simp [digitsFrom?, eq_comm, List.forall₂_nil_left_iff]
  | cons c cs ih =>
    -- a digit of the text moves into the number in front, one place up
    have hstep (d : Nat) (ds : List Nat) : Nat.ofDigits radix ((acc * radix + d) :: ds).reverse =
        Nat.ofDigits radix (acc :: d :: ds).reverse := by
      rw [Nat.ofDigits_reverse_cons, Nat.ofDigits_reverse_cons, Nat.ofDigits_reverse_cons,
        List.length_cons]
      ring
    simp only [digitsFrom?, Option.bind_eq_some_iff, ih, digit?_eq_some_iff]
    constructor
    · rintro ⟨d, hd, ds, hds, rfl⟩
      exact ⟨d :: ds, .cons hd hds, hstep d ds⟩
    · rintro ⟨_, hds, rfl⟩
      cases hds with
      | cons hd hds => exact ⟨_, hd, _, hds, (hstep _ _).symm⟩

theorem digits?_eq_some_iff {radix : Nat} {cs : List Char} {n : Nat} :
    digits? radix cs = some n ↔ Numeral radix cs n := by
  cases cs with
  | nil => simp [digits?, Numeral]
  | cons c cs => simp [digits?, Numeral, digitsFrom?_eq_some_iff, Nat.ofDigits_append_zero]

theorem Numeral.digit {radix : Nat} {cs : List Char} {n : Nat} (h : Numeral radix cs n) {c : Char}
    (hc : c ∈ cs) : ∃ d < radix, Writes c d := by
  obtain ⟨-, ds, hds, -⟩ := h
  induction hds with
  | nil => cases hc
  | cons hd _ ih =>
    rcases List.mem_cons.1 hc with rfl | hc
    · exact ⟨_, hd.2, hd.1⟩
    · exact ih hc

end Digits

namespace Quantity

open Digits (Writes Numeral writes_iff digits?_eq_some_iff)

-- powers are those of the core library, as for the reader
attribute [local instance (high)] instPowNat

/-! ## Numbers -/

/-- A numeral with or without a plus sign in front. -/
inductive Signed (radix : Nat) : List Char → Nat → Prop
  | bare {cs : List Char} {n : Nat} (h : Numeral radix cs n) : Signed radix cs n
  | plus {cs : List Char} {n : Nat} (h : Numeral radix cs n) : Signed radix ('+' :: cs) n

/-- A number without suffix; hexadecimal digits are announced, and the sign comes after that. -/
inductive Unscaled : List Char → Nat → Prop
  | decimal {cs : List Char} {n : Nat} (h : Signed 10 cs n) : Unscaled cs n
  | lowerHex {cs : List Char} {n : Nat} (h : Signed 16 cs n) : Unscaled ('0' :: 'x' :: cs) n
  | upperHex {cs : List Char} {n : Nat} (h : Signed 16 cs n) : Unscaled ('0' :: 'X' :: cs) n

theorem Signed.plus_or_digit {radix : Nat} {cs : List Char} {n : Nat} (h : Signed radix cs n)
    {c : Char} (hc : c ∈ cs) : c = '+' ∨ ∃ d < radix, Writes c d := by
  cases h with
  | bare h => exact .inr (h.digit hc)
  | plus h =>
    rcases List.mem_cons.1 hc with rfl | hc
    · exact .inl rfl
    · exact .inr (h.digit hc)

theorem unsigned?_eq_some_iff {radix : Nat} {cs : List Char} {n : Nat} :
    unsigned? radix cs = some n ↔ Signed radix cs n := by
  unfold unsigned?
  split
  case h_1 cs =>
    rw [digits?_eq_some_iff]
    refine ⟨.plus, fun h => ?_⟩
    cases h with
    | plus h => exact h
    | bare h =>
      -- a plus sign is no digit
      obtain ⟨d, -, hd⟩ := h.digit List.mem_cons_self
      have hcode : ('+').toNat = 43 := rfl
      rw [writes_iff, hcode] at hd
      omega
  case h_2 cs hplus =>
    rw [digits?_eq_some_iff]
    refine ⟨.bare, fun h => ?_⟩
    cases h with
    | plus h => exact absurd rfl (hplus _)
    | bare h => exact h

theorem number?_eq_some_iff {cs : List Char} {n : Nat} :
    number? cs = some n ↔ Unscaled cs n := by
  unfold number?
  split
  case h_1 cs =>
    rw [unsigned?_eq_some_iff]
    refine ⟨.lowerHex, fun h => ?_⟩
    cases h with
    | lowerHex h => exact h
    | decimal h =>
      -- in a decimal number, the `x` would have to be a digit
      exact absurd (h.plus_or_digit (c := 'x') (by simp)) (by decide)
  case h_2 cs =>
    rw [unsigned?_eq_some_iff]
    refine ⟨.upperHex, fun h => ?_⟩
    cases h with
    | upperHex h => exact h
    | decimal h => exact absurd (h.plus_or_digit (c := 'X') (by simp)) (by decide)
  case h_3 cs hlower hupper =>
    rw [unsigned?_eq_some_iff]
    refine ⟨.decimal, fun h => ?_⟩
    cases h with
    | decimal h => exact h
    | lowerHex h => exact absurd rfl (hlower _)
    | upperHex h => exact absurd rfl (hupper _)

theorem Signed.exists_numeral {radix : Nat} {cs : List Char} {n : Nat} (h : Signed radix cs n) :
    ∃ sign digits, cs = sign ++ digits ∧ Numeral radix digits n := by
  cases h with
  | bare h => exact ⟨[], _, rfl, h⟩
  | plus h => exact ⟨['+'], _, rfl, h⟩

/-- Whatever announces the radix and the sign, digits come last. -/
theorem Unscaled.exists_numeral {cs : List Char} {n : Nat} (h : Unscaled cs n) :
    ∃ front radix digits, cs = front ++ digits ∧ Numeral radix digits n := by
  cases h with
  | decimal h =>
    obtain ⟨sign, digits, hcs, hdigits⟩ := h.exists_numeral
    exact ⟨sign, 10, digits, hcs, hdigits⟩
  | lowerHex h =>
    obtain ⟨sign, digits, rfl, hdigits⟩ := h.exists_numeral
    exact ⟨'0' :: 'x' :: sign, 16, digits, rfl, hdigits⟩
  | upperHex h =>
    obtain ⟨sign, digits, rfl, hdigits⟩ := h.exists_numeral
    exact ⟨'0' :: 'X' :: sign, 16, digits, rfl, hdigits⟩

theorem Unscaled.exists_concat {cs : List Char} {n : Nat} (h : Unscaled cs n) :
    ∃ body c d, cs = body ++ [c] ∧ Writes c d := by
  obtain ⟨front, radix, digits, rfl, hdigits⟩ := h.exists_numeral
  obtain hnil | ⟨body, c, rfl⟩ := List.eq_nil_or_concat digits
  · exact absurd hnil hdigits.1
  · obtain ⟨d, -, hd⟩ := hdigits.digit (c := c) (by simp)
    exact ⟨front ++ body, c, d, by simp, hd⟩

/-! ## Suffixes -/

/-- The suffixes, and the powers of 1024 that they stand for. -/
def suffixes : List (Char × Nat) := [('K', 1), ('k', 1), ('M', 2), ('m', 2), ('G', 3), ('g', 3)]

theorem scale?_eq_some_iff {c : Char} {k : Nat} : scale? c = some k ↔ (c, k) ∈ suffixes := by
  constructor
  · intro h
    unfold scale? at h
    split at h
    case isTrue hc => rcases hc with rfl | rfl <;> obtain rfl := Option.some.inj h <;> decide
    case isFalse =>
      split at h
      case isTrue hc => rcases hc with rfl | rfl <;> obtain rfl := Option.some.inj h <;> decide
      case isFalse =>
        split at h
        case isTrue hc => rcases hc with rfl | rfl <;> obtain rfl := Option.some.inj h <;> decide
        case isFalse => cases h
  · intro h
    simp only [suffixes, List.mem_cons, Prod.mk.injEq, List.not_mem_nil, or_false] at h
    rcases h with ⟨rfl, rfl⟩ | ⟨rfl, rfl⟩ | ⟨rfl, rfl⟩ | ⟨rfl, rfl⟩ | ⟨rfl, rfl⟩ | ⟨rfl, rfl⟩ <;> rfl

/-- No digit is a suffix. -/
theorem scale?_of_writes {c : Char} {d : Nat} (h : Writes c d) : scale? c = none := by
  rw [Option.eq_none_iff_forall_ne_some]
  intro k hk
  -- hexadecimal digits end with `F` and `f`, before the first suffix of either case
  have hcodes : ∀ s ∈ suffixes, 70 < s.1.toNat ∧ s.1.toNat < 97 ∨ 102 < s.1.toNat := by decide
  have hsuffix := hcodes _ (scale?_eq_some_iff.1 hk)
  have hdigit := writes_iff.1 h
  dsimp only at hsuffix
  omega

theorem splitScale_of_some {cs : List Char} {c : Char} {k : Nat} (h : scale? c = some k) :
    splitScale (cs ++ [c]) = (cs, k) := by
  simp [splitScale, h]

theorem splitScale_of_none {cs : List Char} {c : Char} (h : scale? c = none) :
    splitScale (cs ++ [c]) = (cs ++ [c], 0) := by
  simp [splitScale, h]

/-! ## Quantities -/

/-- A text of the quantity `n`, which may be larger than a word. -/
inductive Written : List Char → Nat → Prop
  | unscaled {cs : List Char} {n : Nat} (h : Unscaled cs n) : Written cs n
  | scaled {cs : List Char} {n k : Nat} {c : Char} (h : Unscaled cs n) (hc : (c, k) ∈ suffixes) :
      Written (cs ++ [c]) (n * 1024 ^ k)

theorem written_iff {text : List Char} {n : Nat} :
    Written text n ↔
      ∃ m, number? (splitScale text).1 = some m ∧ n = m * 1024 ^ (splitScale text).2 := by
  constructor
  · intro h
    cases h with
    | unscaled h =>
      -- the last character is a digit, so nothing is taken off
      obtain ⟨body, c, d, rfl, hd⟩ := h.exists_concat
      rw [splitScale_of_none (scale?_of_writes hd)]
      exact ⟨n, number?_eq_some_iff.2 h, (Nat.mul_one n).symm⟩
    | scaled h hc =>
      rw [splitScale_of_some (scale?_eq_some_iff.2 hc)]
      exact ⟨_, number?_eq_some_iff.2 h, rfl⟩
  · rintro ⟨m, hm, rfl⟩
    obtain rfl | ⟨body, c, rfl⟩ := List.eq_nil_or_concat text
    · -- the empty text has no digits
      cases hm
    · rw [List.concat_eq_append] at hm ⊢
      cases hc : scale? c with
      | none =>
        rw [splitScale_of_none hc] at hm ⊢
        rw [Nat.pow_zero, Nat.mul_one]
        exact .unscaled (number?_eq_some_iff.1 hm)
      | some k =>
        rw [splitScale_of_some hc] at hm ⊢
        exact .scaled (number?_eq_some_iff.1 hm) (scale?_eq_some_iff.1 hc)

theorem Written.unique {text : List Char} {m n : Nat} (hm : Written text m)
    (hn : Written text n) : m = n := by
  obtain ⟨a, ha, rfl⟩ := written_iff.1 hm
  obtain ⟨b, hb, rfl⟩ := written_iff.1 hn
  rw [Option.some.inj (ha.symm.trans hb)]

theorem read?_eq_some_iff {text : List Char} {n : Nat} :
    read? text = some n ↔ Written text n ∧ n ≤ maxWord := by
  simp only [read?, Option.bind_eq_some_iff, Option.ite_none_right_eq_some, Option.some.injEq,
    written_iff]
  constructor
  · rintro ⟨m, hm, hle, rfl⟩
    exact ⟨⟨m, hm, rfl⟩, hle⟩
  · rintro ⟨⟨m, hm, rfl⟩, hle⟩
    exact ⟨m, hm, hle, rfl⟩

/-! ## What is refused -/

theorem Signed.ascii {radix : Nat} {cs : List Char} {n : Nat} (h : Signed radix cs n) {c : Char}
    (hc : c ∈ cs) : c.toNat < 128 := by
  rcases h.plus_or_digit hc with rfl | ⟨d, -, hd⟩
  · decide
  · have := writes_iff.1 hd
    omega

theorem Unscaled.ascii {cs : List Char} {n : Nat} (h : Unscaled cs n) {c : Char} (hc : c ∈ cs) :
    c.toNat < 128 := by
  cases h with
  | decimal h => exact h.ascii hc
  | lowerHex h =>
    obtain rfl | rfl | hc : c = '0' ∨ c = 'x' ∨ c ∈ _ := by simpa using hc
    · decide
    · decide
    · exact h.ascii hc
  | upperHex h =>
    obtain rfl | rfl | hc : c = '0' ∨ c = 'X' ∨ c ∈ _ := by simpa using hc
    · decide
    · decide
    · exact h.ascii hc

theorem Written.ascii {text : List Char} {n : Nat} (h : Written text n) {c : Char}
    (hc : c ∈ text) : c.toNat < 128 := by
  cases h with
  | unscaled h => exact h.ascii hc
  | scaled h hsuffix =>
    rcases List.mem_append.1 hc with hc | hc
    · exact h.ascii hc
    · have hcodes : ∀ s ∈ suffixes, s.1.toNat < 128 := by decide
      rw [List.mem_singleton.1 hc]
      exact hcodes _ hsuffix

/-- A text is read as a number exactly if it is a text of this number, and the number is a word. A
text stands for one number at most, so that it is refused exactly if it stands for none or for one
that is too large; and it stands for none if it is empty or has a character beyond the first 128. -/
theorem quantities_exact (text : List Char) :
    (∀ n, read? text = some n ↔ Written text n ∧ n ≤ maxWord) ∧
    (read? text = none ↔ ∀ n, Written text n → maxWord < n) ∧
    (∀ m n, Written text m → Written text n → m = n) ∧
    ∀ n, Written text n → text ≠ [] ∧ ∀ c ∈ text, c.toNat < 128 := by
  refine ⟨fun n => read?_eq_some_iff, ?_, fun m n => Written.unique, fun n h => ?_⟩
  · rw [Option.eq_none_iff_forall_ne_some]
    constructor
    · intro hnone n hn
      exact Nat.not_le.1 fun hle => hnone n (read?_eq_some_iff.2 ⟨hn, hle⟩)
    · intro hlarge n hn
      obtain ⟨hwritten, hle⟩ := read?_eq_some_iff.1 hn
      exact Nat.not_lt.2 hle (hlarge n hwritten)
  · refine ⟨?_, fun c => h.ascii⟩
    rintro rfl
    obtain ⟨m, hm, -⟩ := written_iff.1 h
    cases hm

/-- The last multiple of 1024 that is a word, in hexadecimal digits behind zeros. -/
example : read? "0x+003fFfffFffffFffk".toList = some (maxWord - 1023) := by decide +kernel

/-- The next one is refused, since it is too large after the multiplication alone. -/
example : read? "18014398509481984K".toList = none := by decide +kernel

end Quantity
end BlockMux
