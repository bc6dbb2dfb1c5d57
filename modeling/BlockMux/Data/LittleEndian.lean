/-!
# Little-endian numbers

Numbers in disk records are stored least significant byte first.

* `ofBytes_lt` — `n` bytes hold a number below `256 ^ n`.
-/

namespace BlockMux.LittleEndian

-- powers are those of the core library, whatever other libraries are loaded
attribute [local instance (high)] instPowNat

/-- The number that `bytes` hold, least significant byte first. -/
def ofBytes : List UInt8 → Nat
  | [] => 0
  | b :: bytes => b.toNat + 256 * ofBytes bytes

/-- The number of `width` bytes at `pos` in a record. -/
def field (record : List UInt8) (pos width : Nat) : Nat :=
  ofBytes ((record.drop pos).take width)

theorem ofBytes_lt (bytes : List UInt8) : ofBytes bytes < 256 ^ bytes.length := by
  induction bytes with
  | nil => simp [ofBytes]
  | cons b bytes ih =>
    have := b.toNat_lt
    simp only [ofBytes, List.length_cons, Nat.pow_succ]
    omega

theorem field_lt (record : List UInt8) (pos width : Nat) :
    field record pos width < 256 ^ width := by
  refine Nat.lt_of_lt_of_le (ofBytes_lt _) (Nat.pow_le_pow_right (by decide) ?_)
  simp only [List.length_take]
  omega

end BlockMux.LittleEndian
