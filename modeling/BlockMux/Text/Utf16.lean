/-!
# UTF-16 text

Names in GUID partition tables are sequences of 16-bit units. Units that form no character are
read as the replacement character.
-/

namespace BlockMux.Utf16

/-- Whether a unit is the first half of a pair. -/
def isHigh (unit : Nat) : Bool := 0xD800 ≤ unit && unit ≤ 0xDBFF

/-- Whether a unit is the second half of a pair. -/
def isLow (unit : Nat) : Bool := 0xDC00 ≤ unit && unit ≤ 0xDFFF

/-- Stands for a half without its partner. -/
def replacement : Char := Char.ofNat 0xFFFD

/-- The character of a pair. -/
def ofPair (high low : Nat) : Char :=
  Char.ofNat (0x10000 + (high - 0xD800) * 0x400 + (low - 0xDC00))

/-- The characters that `units` hold. -/
def decode : List Nat → List Char
  | [] => []
  | unit :: units =>
    if isHigh unit then
      match units with
      | [] => [replacement]
      | next :: rest =>
        if isLow next then ofPair unit next :: decode rest
        else replacement :: decode (next :: rest)
    else if isLow unit then replacement :: decode units
    else Char.ofNat unit :: decode units

end BlockMux.Utf16
