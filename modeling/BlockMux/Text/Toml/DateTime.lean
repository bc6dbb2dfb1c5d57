import BlockMux.Text.Digits

/-!
# Dates and times in TOML

No setting has a date for its value, but a document may hold dates where values do not count, and
these have to exist in the calendar.
-/

namespace BlockMux.Toml

/-- The number of two digits. -/
def two? (a b : Char) : Option Nat := Digits.digits? 10 [a, b]

/-- The days of a month. -/
def daysOf (year month : Nat) : Nat :=
  if month = 2 then
    if year % 4 = 0 ∧ (year % 100 ≠ 0 ∨ year % 400 = 0) then 29 else 28
  else if month ∈ [4, 6, 9, 11] then 30
  else 31

/-- Takes a date. -/
def date? : List Char → Option (List Char)
  | a :: b :: c :: d :: '-' :: e :: f :: '-' :: g :: h :: cs => do
    let year ← Digits.digits? 10 [a, b, c, d]
    let month ← two? e f
    let day ← two? g h
    if 1 ≤ month ∧ month ≤ 12 ∧ 1 ≤ day ∧ day ≤ daysOf year month then some cs else none
  | _ => none

/-- Takes a time of day. -/
def time? : List Char → Option (List Char)
  | a :: b :: ':' :: c :: d :: ':' :: e :: f :: cs => do
    let hour ← two? a b
    let minute ← two? c d
    let second ← two? e f
    if 23 < hour ∨ 59 < minute ∨ 60 < second then none
    else
      match cs with
      | '.' :: cs => if cs.head?.any Char.isDigit then some (cs.dropWhile Char.isDigit) else none
      | cs => some cs
  | _ => none

/-- Whether what follows a time of day is an offset from universal time, or nothing. -/
def isOffset : List Char → Bool
  | [] => true
  | ['Z'] => true
  | ['z'] => true
  | [sign, a, b, ':', c, d] =>
    (sign == '+' || sign == '-') && (two? a b).any (· ≤ 23) && (two? c d).any (· ≤ 59)
  | _ => false

/-- Whether a word is a date. -/
def isDate (cs : List Char) : Bool := date? cs == some []

/-- Whether a word is a time of day after a date. -/
def isTimeOfDate (cs : List Char) : Bool := (time? cs).any isOffset

/-- Whether a word is a date, a time, or both joined by a letter. -/
def isDateTime (cs : List Char) : Bool :=
  match date? cs with
  | some [] => true
  | some (c :: cs) => (c == 'T' || c == 't') && isTimeOfDate cs
  | none => time? cs == some []

end BlockMux.Toml
