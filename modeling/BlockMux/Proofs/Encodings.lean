import BlockMux.Data.LittleEndian
import BlockMux.Text.Utf16

/-!
# Written numbers and names

How numbers and names are written into records, beside the functions that read them back.

Main statements:

* `ofBytes_toBytes`, `toBytes_ofBytes` — as many bytes as a number needs hold the number, and a
  number of that many bytes determines them.
* `decode_encode` — text is read back from its 16-bit units, pairs of halves included.
* `encode_ne_zero` — only the character zero has the unit zero.
-/

namespace BlockMux

/-! ## Numbers -/

namespace LittleEndian

-- as where the numbers are read: powers are those of the core library
attribute [local instance (high)] instPowNat

/-- The number `n` in `width` bytes, least significant byte first; what does not fit is lost. -/
def toBytes : (width n : Nat) → List UInt8
  | 0, _ => []
  | width + 1, n => UInt8.ofNat n :: toBytes width (n / 256)

theorem length_toBytes (width n : Nat) : (toBytes width n).length = width := by
  induction width generalizing n with
  | zero => rfl
  | succ width ih => rw [toBytes, List.length_cons, ih]

theorem ofBytes_toBytes {width n : Nat} (h : n < 256 ^ width) : ofBytes (toBytes width n) = n := by
  induction width generalizing n with
  | zero =>
    rw [Nat.pow_zero] at h
    simp only [toBytes, ofBytes]
    omega
  | succ width ih =>
    rw [Nat.pow_succ] at h
    have hrest : n / 256 < 256 ^ width := by omega
    have hbyte : (UInt8.ofNat n).toNat = n % 256 := UInt8.toNat_ofNat'
    rw [toBytes, ofBytes, ih hrest, hbyte]
    omega

theorem toBytes_ofBytes (bytes : List UInt8) : toBytes bytes.length (ofBytes bytes) = bytes := by
  induction bytes with
  | nil => rfl
  | cons b bytes ih =>
    have hb := b.toNat_lt
    have hrest : (b.toNat + 256 * ofBytes bytes) / 256 = ofBytes bytes := by omega
    have hbyte : UInt8.ofNat (b.toNat + 256 * ofBytes bytes) = b := by
      refine UInt8.toNat_inj.1 ?_
      rw [UInt8.toNat_ofNat']
      omega
    rw [ofBytes, List.length_cons, toBytes, hrest, hbyte, ih]

theorem ofBytes_injective {xs ys : List UInt8} (hlength : xs.length = ys.length)
    (h : ofBytes xs = ofBytes ys) : xs = ys := by
  rw [← toBytes_ofBytes xs, ← toBytes_ofBytes ys, hlength, h]

/-- A field where a number was written holds the number. -/
theorem field_of_written {record : List UInt8} {pos width n : Nat}
    (written : (record.drop pos).take width = toBytes width n) (h : n < 256 ^ width) :
    field record pos width = n := by
  rw [field, written, ofBytes_toBytes h]

end LittleEndian

/-! ## Names -/

namespace Utf16

/-- The units of a character: itself, or a pair of halves where it needs more than 16 bits. -/
def encodeChar (c : Char) : List Nat :=
  if c.toNat < 0x10000 then [c.toNat]
  else [0xD800 + (c.toNat - 0x10000) / 0x400, 0xDC00 + (c.toNat - 0x10000) % 0x400]

/-- The units of a text. -/
def encode (cs : List Char) : List Nat := cs.flatMap encodeChar

/-- No character is half of a pair, or beyond the last pair. -/
theorem toNat_cases (c : Char) : c.toNat < 0xD800 ∨ 0xDFFF < c.toNat ∧ c.toNat < 0x110000 := c.valid

theorem decode_encodeChar (c : Char) (units : List Nat) :
    decode (encodeChar c ++ units) = c :: decode units := by
  have hc := toNat_cases c
  by_cases hsmall : c.toNat < 0x10000
  · have hhigh : isHigh c.toNat = false := by
      simp only [isHigh, Bool.and_eq_false_iff, decide_eq_false_iff_not]
      omega
    have hlow : isLow c.toNat = false := by
      simp only [isLow, Bool.and_eq_false_iff, decide_eq_false_iff_not]
      omega
    rw [encodeChar, if_pos hsmall, List.singleton_append, decode.eq_def]
    simp only [hhigh, hlow, Bool.false_eq_true, if_false, Char.ofNat_toNat]
  · have hhigh : isHigh (0xD800 + (c.toNat - 0x10000) / 0x400) = true := by
      simp only [isHigh, Bool.and_eq_true, decide_eq_true_eq]
      omega
    have hlow : isLow (0xDC00 + (c.toNat - 0x10000) % 0x400) = true := by
      simp only [isLow, Bool.and_eq_true, decide_eq_true_eq]
      omega
    have hpair : ofPair (0xD800 + (c.toNat - 0x10000) / 0x400)
        (0xDC00 + (c.toNat - 0x10000) % 0x400) = c := by
      rw [ofPair, show 0x10000 + (0xD800 + (c.toNat - 0x10000) / 0x400 - 0xD800) * 0x400 +
        (0xDC00 + (c.toNat - 0x10000) % 0x400 - 0xDC00) = c.toNat by omega, Char.ofNat_toNat]
    rw [encodeChar, if_neg hsmall, List.cons_append, List.singleton_append, decode.eq_def]
    simp only [hhigh, hlow, hpair, if_true]

theorem decode_encode (cs : List Char) : decode (encode cs) = cs := by
  induction cs with
  | nil => rfl
  | cons c cs ih => rw [encode, List.flatMap_cons, decode_encodeChar, ← encode, ih]

theorem encode_lt {cs : List Char} {unit : Nat} (h : unit ∈ encode cs) : unit < 0x10000 := by
  obtain ⟨c, -, hunit⟩ := List.mem_flatMap.1 h
  have hc := toNat_cases c
  unfold encodeChar at hunit
  split at hunit
  · rename_i hsmall
    rwa [List.mem_singleton.1 hunit]
  · simp only [List.mem_cons, List.not_mem_nil, or_false] at hunit
    omega

theorem encode_ne_zero {cs : List Char} (h : Char.ofNat 0 ∉ cs) {unit : Nat}
    (hunit : unit ∈ encode cs) : unit ≠ 0 := by
  obtain ⟨c, hc, hunit⟩ := List.mem_flatMap.1 hunit
  unfold encodeChar at hunit
  split at hunit
  · rintro rfl
    have hzero : c.toNat = 0 := (List.mem_singleton.1 hunit).symm
    exact h (by rwa [← hzero, Char.ofNat_toNat])
  · simp only [List.mem_cons, List.not_mem_nil, or_false] at hunit
    omega

end Utf16
end BlockMux
