/-!
# The CRC-32 checksum

The checksum of GUID partition tables: reflected polynomial `0x04C11DB7`, register set to ones
before the first byte and inverted after the last.

* `register_append` — the register after two texts is that after the second, started from that
  after the first.
-/

namespace BlockMux.Crc32

/-- The polynomial with its bits reversed. -/
def polynomial : UInt32 := 0xEDB88320

/-- Shifts one bit out of the register. -/
def shift (register : UInt32) : UInt32 :=
  if register &&& 1 = 1 then (register >>> 1) ^^^ polynomial else register >>> 1

/-- Feeds one byte into the register. -/
def update (register : UInt32) (byte : UInt8) : UInt32 :=
  let r := register ^^^ byte.toUInt32
  shift (shift (shift (shift (shift (shift (shift (shift r)))))))

/-- The register after all of `bytes`. -/
def register (start : UInt32) (bytes : List UInt8) : UInt32 := bytes.foldl update start

/-- The checksum of `bytes`. -/
def checksum (bytes : List UInt8) : UInt32 := register 0xFFFFFFFF bytes ^^^ 0xFFFFFFFF

theorem register_append (start : UInt32) (xs ys : List UInt8) :
    register start (xs ++ ys) = register (register start xs) ys :=
  List.foldl_append

end BlockMux.Crc32
