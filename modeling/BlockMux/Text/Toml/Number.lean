import BlockMux.Text.Digits

/-!
# Numbers in TOML

Integers have a sign and 64 bits. Floats are decimal numbers that are rounded to doubles; one that
is rounded to positive infinity is no value, while a negative one may be of any size.
-/

namespace BlockMux.Toml

-- powers are those of the core library, whatever other libraries are loaded
attribute [local instance (high)] instPowNat

/-! ## Integers -/

/-- Digits in which single underscores may stand between two. -/
def isRun (isDigit : Char → Bool) : List Char → Bool
  | [] => false
  | [c] => isDigit c
  | c :: '_' :: cs => isDigit c && isRun isDigit cs
  | c :: cs => isDigit c && isRun isDigit cs

/-- The digits without underscores. -/
def plain (cs : List Char) : List Char := cs.filter (· ≠ '_')

/-- The number of a run of digits. -/
def run? (radix : Nat) (cs : List Char) : Option Nat :=
  if isRun (fun c => (Digits.digit? radix c).isSome) cs then Digits.digits? radix (plain cs)
  else none

/-- A decimal number without sign; only zero itself starts with a zero. -/
def decimal? (cs : List Char) : Option Nat :=
  if cs.head? = some '0' ∧ cs ≠ ['0'] then none else run? 10 cs

/-- Keeps numbers of a 64-bit integer. -/
def checked? (n : Int) : Option Int :=
  if -9223372036854775808 ≤ n ∧ n ≤ 9223372036854775807 then some n else none

/-- The integer that a word denotes. -/
def integer? : List Char → Option Int
  | '0' :: 'x' :: cs => (run? 16 cs).bind fun n => checked? n
  | '0' :: 'o' :: cs => (run? 8 cs).bind fun n => checked? n
  | '0' :: 'b' :: cs => (run? 2 cs).bind fun n => checked? n
  | '+' :: cs => (decimal? cs).bind fun n => checked? n
  | '-' :: cs => (decimal? cs).bind fun n => checked? (-n)
  | cs => (decimal? cs).bind fun n => checked? n

/-! ## Decimal numbers -/

/-- The number `significand * 10 ^ exponent`, written with `length` digits. -/
structure Decimal where
  significand : Nat
  length : Nat
  exponent : Int
  deriving DecidableEq, Repr

namespace Decimal

/-- Numbers from here on are rounded to infinity: half a step above the largest double. -/
@[irreducible] def infinite : Nat := 2 ^ (1024 : Nat) - 2 ^ (970 : Nat)

/-- Whether the number is rounded to infinity. -/
def overflows (d : Decimal) : Bool :=
  match d.exponent with
  | .ofNat k =>
    -- ten to the power 309 is infinite, so higher powers need not be computed
    d.significand != 0 && (309 ≤ k || infinite ≤ d.significand * 10 ^ k)
  | .negSucc k =>
    -- with no digit before the point the number is less than one
    k + 1 < d.length && infinite * 10 ^ (k + 1) ≤ d.significand

/-- The number of digits before and after the point. -/
def ofParts? (whole fraction : List Char) (exponent : Int) : Option Decimal :=
  let digits := plain whole ++ plain fraction
  (Digits.digits? 10 digits).map fun n =>
    ⟨n, digits.length, exponent - (plain fraction).length⟩

end Decimal

/-! ## Floats -/

/-- Takes a sign off. -/
def dropSign : List Char → List Char
  | '+' :: cs => cs
  | '-' :: cs => cs
  | cs => cs

/-- Whether a character opens an exponent. -/
def isExponentMark (c : Char) : Bool := c == 'e' || c == 'E'

/-- An exponent with its mark. -/
def exponent? : List Char → Option Int
  | [] => none
  | mark :: cs =>
    if isExponentMark mark then
      match cs with
      | '-' :: cs => (run? 10 cs).map fun n => -(n : Int)
      | cs => (run? 10 (dropSign cs)).map fun n => (n : Int)
    else none

/-- A decimal number with a fraction, an exponent, or both. -/
def float? (cs : List Char) : Option Decimal :=
  let whole := cs.takeWhile fun c => c != '.' && !isExponentMark c
  if (decimal? whole).isNone then none
  else
    match cs.drop whole.length with
    | '.' :: cs =>
      let fraction := cs.takeWhile fun c => !isExponentMark c
      if (run? 10 fraction).isNone then none
      else
        match cs.drop fraction.length with
        | [] => Decimal.ofParts? whole fraction 0
        | rest => (exponent? rest).bind (Decimal.ofParts? whole fraction)
    | rest => (exponent? rest).bind (Decimal.ofParts? whole [])

/-- Whether a word is a float. Infinity has a word of its own, and a positive number does not
stand for it. -/
def isFloat (cs : List Char) : Bool :=
  let magnitude := dropSign cs
  magnitude == ['i', 'n', 'f'] || magnitude == ['n', 'a', 'n'] ||
    (float? magnitude).any fun d => cs.head? == some '-' || !d.overflows

end BlockMux.Toml
