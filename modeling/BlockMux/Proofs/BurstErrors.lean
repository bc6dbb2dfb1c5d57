import BlockMux.Data.Crc32
import BlockMux.Proofs.Encodings
import Mathlib.Logic.Function.Iterate
import Mathlib.Data.Nat.Bitwise

/-!
# A checksum shows every short burst

The register of the checksum has 32 bits, and shifting loses none of them. Four bytes that are fed
into it are therefore all still there afterwards, and no bytes that follow can make good for them.

Main statements:

* `shift_xor`, `shift_injective` — shifting is linear, and different registers stay different.
* `register_eq_iterate` — feeding at most four bytes is the same as adding the number they hold to
  the register and shifting them out at once.
* `checksum_ne_of_burst` — texts that differ, but only within four bytes in a row, have different
  checksums.
-/

namespace BlockMux.Crc32

open LittleEndian (ofBytes)

-- as for the bytes of numbers: powers are those of the core library
attribute [local instance (high)] instPowNat

/-! ## One shift -/

theorem toNat_and_one (r : UInt32) : (r &&& 1).toNat = r.toNat % 2 := by
  rw [UInt32.toNat_and, show (1 : UInt32).toNat = 1 from rfl, Nat.and_one_is_mod]

theorem and_one_eq_one_iff (r : UInt32) : r &&& 1 = 1 ↔ r.toNat % 2 = 1 := by
  rw [← toNat_and_one, ← UInt32.toNat_inj]
  rfl

theorem toNat_shiftRight_one (r : UInt32) : (r >>> 1).toNat = r.toNat / 2 := by
  rw [UInt32.toNat_shiftRight]
  exact Nat.shiftRight_one _

/-- A register whose last bit is zero is halved. -/
theorem toNat_shift_of_even {r : UInt32} (h : r.toNat % 2 = 0) : (shift r).toNat = r.toNat / 2 := by
  have hlast : ¬r &&& 1 = 1 := by
    rw [and_one_eq_one_iff]
    omega
  rw [shift, if_neg hlast, toNat_shiftRight_one]

theorem xor_mod_two (a b : Nat) : (a ^^^ b) % 2 = (a % 2 + b % 2) % 2 := by
  rw [Nat.xor_mod_two_eq]
  omega

theorem shift_xor (r s : UInt32) : shift (r ^^^ s) = shift r ^^^ shift s := by
  have hlast : (r ^^^ s).toNat % 2 = (r.toNat % 2 + s.toNat % 2) % 2 := by
    rw [UInt32.toNat_xor, xor_mod_two]
  -- the polynomial is added for each of the two that has its last bit set; twice is not at all
  simp only [shift, and_one_eq_one_iff, UInt32.shiftRight_xor, hlast]
  rcases Nat.mod_two_eq_zero_or_one r.toNat with hr | hr
  · rcases Nat.mod_two_eq_zero_or_one s.toNat with hs | hs
    · simp [hr, hs]
    · simp [hr, hs, UInt32.xor_assoc]
  · rcases Nat.mod_two_eq_zero_or_one s.toNat with hs | hs
    · have hlate : r >>> 1 ^^^ s >>> 1 ^^^ polynomial = r >>> 1 ^^^ polynomial ^^^ s >>> 1 := by
        ac_rfl
      simp [hr, hs, hlate]
    · have htwice : r >>> 1 ^^^ polynomial ^^^ (s >>> 1 ^^^ polynomial) =
          r >>> 1 ^^^ s >>> 1 ^^^ (polynomial ^^^ polynomial) := by ac_rfl
      simp [hr, hs, htwice]

theorem eq_zero_of_shift_eq_zero {r : UInt32} (h : shift r = 0) : r = 0 := by
  refine UInt32.toNat_inj.1 ?_
  have hbound := r.toNat_lt
  rcases Nat.mod_two_eq_zero_or_one r.toNat with hr | hr
  · have hhalf := toNat_shift_of_even hr
    rw [h] at hhalf
    simp only [UInt32.toNat_zero] at hhalf ⊢
    omega
  · -- the first bit of the polynomial is set, but none that was shifted there
    rw [shift, if_pos ((and_one_eq_one_iff r).2 hr), UInt32.xor_eq_zero_iff] at h
    have hhalf := congrArg UInt32.toNat h
    rw [toNat_shiftRight_one, show polynomial.toNat = 3988292384 from rfl] at hhalf
    omega

theorem shift_injective : Function.Injective shift := by
  intro r s h
  refine UInt32.xor_eq_zero_iff.1 (eq_zero_of_shift_eq_zero ?_)
  rw [shift_xor, h, UInt32.xor_self]

/-! ## Many shifts -/

theorem iterate_shift_xor (n : Nat) (r s : UInt32) :
    shift^[n] (r ^^^ s) = shift^[n] r ^^^ shift^[n] s := by
  induction n generalizing r s with
  | zero => rfl
  | succ n ih => rw [Function.iterate_succ_apply, shift_xor, ih]; rfl

/-- Zero bits are shifted out without a trace. -/
theorem toNat_iterate_shift {n m : Nat} {r : UInt32} (h : r.toNat = 2 ^ n * m) :
    (shift^[n] r).toNat = m := by
  induction n generalizing r with
  | zero => simpa using h
  | succ n ih =>
    have hdouble : r.toNat = 2 * (2 ^ n * m) := by
      rw [h, Nat.pow_succ]
      ac_rfl
    refine ih ?_
    rw [toNat_shift_of_even (by omega)]
    omega

theorem update_eq (r : UInt32) (byte : UInt8) : update r byte = shift^[8] (r ^^^ byte.toUInt32) :=
  rfl

theorem update_injective (byte : UInt8) : Function.Injective fun r => update r byte := by
  intro r s h
  have hshifted : shift^[8] (r ^^^ byte.toUInt32) = shift^[8] (s ^^^ byte.toUInt32) := h
  have hxor := shift_injective.iterate 8 hshifted
  rwa [UInt32.xor_left_inj] at hxor

theorem register_injective (bytes : List UInt8) : Function.Injective fun r => register r bytes := by
  induction bytes with
  | nil => exact fun r s h => h
  | cons b bytes ih => exact fun r s h => update_injective b (ih h)

/-! ## Four bytes -/

/-- A byte in front of other bytes takes the bits that they leave. -/
theorem ofNat_ofBytes_cons (b : UInt8) {bytes : List UInt8} (h : bytes.length ≤ 3) :
    UInt32.ofNat (ofBytes (b :: bytes)) =
      b.toUInt32 ^^^ UInt32.ofNat (256 * ofBytes bytes) := by
  have hb := b.toNat_lt
  have hrest : ofBytes bytes < 256 ^ 3 :=
    Nat.lt_of_lt_of_le (LittleEndian.ofBytes_lt bytes) (Nat.pow_le_pow_right (by decide) h)
  refine UInt32.toNat_inj.1 ?_
  rw [LittleEndian.ofBytes, UInt32.toNat_xor, UInt8.toNat_toUInt32, UInt32.toNat_ofNat',
    UInt32.toNat_ofNat', Nat.mod_eq_of_lt (by omega), Nat.mod_eq_of_lt (by omega)]
  refine Nat.eq_of_testBit_eq fun i => ?_
  rw [Nat.testBit_xor, Nat.add_comm, show 256 = 2 ^ 8 from rfl, Nat.testBit_two_pow_mul_add _ hb,
    Nat.testBit_two_pow_mul]
  by_cases hi : i < 8
  · have hlt : ¬8 ≤ i := by omega
    simp [hi, hlt]
  · have hhigh : b.toNat.testBit i = false := by
      refine Nat.testBit_lt_two_pow (Nat.lt_of_lt_of_le hb ?_)
      exact Nat.pow_le_pow_right (by decide) (by omega)
    have hge : 8 ≤ i := by omega
    simp [hi, hhigh, hge]

theorem register_eq_iterate {bytes : List UInt8} (h : bytes.length ≤ 4) (r : UInt32) :
    register r bytes = shift^[8 * bytes.length] (r ^^^ UInt32.ofNat (ofBytes bytes)) := by
  induction bytes generalizing r with
  | nil => simp [register, LittleEndian.ofBytes]
  | cons b bytes ih =>
    rw [List.length_cons] at h
    have hrest : ofBytes bytes < 256 ^ 3 :=
      Nat.lt_of_lt_of_le (LittleEndian.ofBytes_lt bytes) (Nat.pow_le_pow_right (by decide)
        (by omega))
    -- the later bytes may be added eight bits higher before the first one is shifted out
    have hearly : UInt32.ofNat (ofBytes bytes) =
        shift^[8] (UInt32.ofNat (256 * ofBytes bytes)) := by
      refine UInt32.toNat_inj.1 ?_
      rw [toNat_iterate_shift (m := ofBytes bytes), UInt32.toNat_ofNat',
        Nat.mod_eq_of_lt (by omega)]
      rw [UInt32.toNat_ofNat', Nat.mod_eq_of_lt (by omega)]
    calc register r (b :: bytes)
        = register (update r b) bytes := rfl
      _ = shift^[8 * bytes.length] (update r b ^^^ UInt32.ofNat (ofBytes bytes)) :=
          ih (by omega) _
      _ = shift^[8 * bytes.length]
            (shift^[8] ((r ^^^ b.toUInt32) ^^^ UInt32.ofNat (256 * ofBytes bytes))) := by
          rw [update_eq, hearly, ← iterate_shift_xor]
      _ = shift^[8 * (bytes.length + 1)]
            (r ^^^ (b.toUInt32 ^^^ UInt32.ofNat (256 * ofBytes bytes))) := by
          rw [← Function.iterate_add_apply, UInt32.xor_assoc, Nat.mul_succ]
      _ = shift^[8 * (b :: bytes).length] (r ^^^ UInt32.ofNat (ofBytes (b :: bytes))) := by
          rw [ofNat_ofBytes_cons b (by omega), List.length_cons]

/-- The register keeps apart what at most four bytes can say. -/
theorem eq_of_register_eq {r : UInt32} {xs ys : List UInt8} (hlength : xs.length = ys.length)
    (hshort : xs.length ≤ 4) (h : register r xs = register r ys) : xs = ys := by
  have hword : ∀ zs : List UInt8, zs.length ≤ 4 → ofBytes zs < 2 ^ 32 := fun zs hzs =>
    Nat.lt_of_lt_of_le (LittleEndian.ofBytes_lt zs)
      (Nat.le_trans (Nat.pow_le_pow_right (by decide) hzs) (by decide))
  rw [register_eq_iterate hshort, register_eq_iterate (hlength ▸ hshort), hlength] at h
  have hxor := shift_injective.iterate _ h
  rw [UInt32.xor_right_inj] at hxor
  have hnumber := congrArg UInt32.toNat hxor
  rw [UInt32.toNat_ofNat', UInt32.toNat_ofNat', Nat.mod_eq_of_lt (hword xs hshort),
    Nat.mod_eq_of_lt (hword ys (hlength ▸ hshort))] at hnumber
  exact LittleEndian.ofBytes_injective hlength hnumber

/-- Texts of one length that are different, but agree outside of four bytes in a row, have
different checksums. -/
theorem checksum_ne_of_burst {xs ys : List UInt8} (first : Nat) (hlength : xs.length = ys.length)
    (hsame : ∀ i, i < first ∨ first + 4 ≤ i → xs[i]? = ys[i]?) (hne : xs ≠ ys) :
    checksum xs ≠ checksum ys := by
  have hbefore : xs.take first = ys.take first := by
    refine List.ext_getElem? fun i => ?_
    simp only [List.getElem?_take]
    split
    · rename_i hi
      exact hsame i (Or.inl hi)
    · rfl
  have hafter : xs.drop (first + 4) = ys.drop (first + 4) := by
    refine List.ext_getElem? fun i => ?_
    rw [List.getElem?_drop, List.getElem?_drop]
    exact hsame _ (Or.inr (Nat.le_add_right _ _))
  have hsplit : ∀ zs : List UInt8,
      zs = zs.take first ++ ((zs.drop first).take 4 ++ zs.drop (first + 4)) := by
    intro zs
    rw [← List.drop_drop, List.take_append_drop, List.take_append_drop]
  intro h
  have hregister : register 0xFFFFFFFF xs = register 0xFFFFFFFF ys := by
    rwa [checksum, checksum, UInt32.xor_left_inj] at h
  rw [hsplit xs, hsplit ys, hbefore, hafter, register_append, register_append, register_append,
    register_append] at hregister
  have hburst : (xs.drop first).take 4 = (ys.drop first).take 4 := by
    refine eq_of_register_eq ?_ (List.length_take_le _ _) (register_injective _ hregister)
    simp [hlength]
  exact hne (by rw [hsplit xs, hsplit ys, hbefore, hburst, hafter])

end BlockMux.Crc32
