import BlockMux.Data.Word
import BlockMux.Text.Digits

/-!
# Quantities

A quantity is an unsigned integer as clients write it: decimal or `0x` hexadecimal digits, an
optional plus sign before them, and an optional suffix `K`, `M` or `G` in either case for a power
of 1024. It must fit into a 64-bit word after the multiplication.
-/

namespace BlockMux.Quantity

-- powers are those of the core library, whatever other libraries are loaded
attribute [local instance (high)] instPowNat

/-- Digits after an optional plus sign. -/
def unsigned? (radix : Nat) : List Char → Option Nat
  | '+' :: cs => Digits.digits? radix cs
  | cs => Digits.digits? radix cs

/-- A number without suffix; `0x` or `0X` announces hexadecimal digits. -/
def number? : List Char → Option Nat
  | '0' :: 'x' :: cs => unsigned? 16 cs
  | '0' :: 'X' :: cs => unsigned? 16 cs
  | cs => unsigned? 10 cs

/-- The power of 1024 that a suffix stands for. -/
def scale? (c : Char) : Option Nat :=
  if c = 'K' ∨ c = 'k' then some 1
  else if c = 'M' ∨ c = 'm' then some 2
  else if c = 'G' ∨ c = 'g' then some 3
  else none

/-- Takes the suffix off: the rest and the power of 1024. -/
def splitScale (cs : List Char) : List Char × Nat :=
  match cs.getLast?.bind scale? with
  | some k => (cs.dropLast, k)
  | none => (cs, 0)

/-- Reads a quantity, `none` if the text is not one or it exceeds `maxWord`. -/
def read? (cs : List Char) : Option Nat :=
  (number? (splitScale cs).1).bind fun n =>
    if n * 1024 ^ (splitScale cs).2 ≤ maxWord then some (n * 1024 ^ (splitScale cs).2) else none

end BlockMux.Quantity
