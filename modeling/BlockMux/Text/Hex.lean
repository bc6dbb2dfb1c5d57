/-!
# Hexadecimal text

Bytes as two lower case digits each.
-/

namespace BlockMux.Hex

/-- The digit of a value below 16. -/
def digit (n : Nat) : Char :=
  if n < 10 then Char.ofNat (48 + n) else Char.ofNat (87 + n)

/-- The two digits of a byte. -/
def ofByte (b : UInt8) : List Char := [digit (b.toNat / 16), digit (b.toNat % 16)]

/-- The digits of `bytes` in order. -/
def ofBytes (bytes : List UInt8) : List Char := bytes.flatMap ofByte

end BlockMux.Hex
