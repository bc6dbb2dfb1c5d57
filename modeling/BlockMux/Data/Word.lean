/-!
# The 64-bit limit

Block numbers, sizes and addresses are natural numbers, so sums and products are exact. The
machine word shows only as a bound: a number that has to be stored is at most `maxWord`, and a
few sums stick there.

* `satAdd_eq_of_le` — below the bound the sticking sum is the sum.
-/

namespace BlockMux

/-- The largest number a 64-bit word holds. -/
def maxWord : Nat := 18446744073709551615

/-- The sum, or `maxWord` where the sum is larger. -/
def satAdd (a b : Nat) : Nat := min (a + b) maxWord

theorem satAdd_eq_of_le {a b : Nat} (h : a + b ≤ maxWord) : satAdd a b = a + b :=
  Nat.min_eq_left h

theorem satAdd_le (a b : Nat) : satAdd a b ≤ a + b := Nat.min_le_left _ _

end BlockMux
