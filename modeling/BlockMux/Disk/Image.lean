import BlockMux.Data.Memory
import BlockMux.Data.Word

/-!
# Disk images

An image is a run of bytes that is read and written in whole ranges. A range may be marked
unreadable or unwritable, as on a worn medium: an access that touches it fails and moves no byte.

* `read_eq_ok` — when a read succeeds, and what it returns.
* `readBlocks_eq_ok_iff` — the same for whole blocks.
-/

namespace BlockMux

/-- Why an access to an image fails. -/
inductive IoError where
  /-- The range reaches beyond the end of the image. -/
  | endOfImage
  /-- The range touches a part of the medium that cannot be accessed. -/
  | badMedium
  /-- Blocks are too small to hold a boot record. -/
  | blockTooSmall
  /-- Blocks of no bytes. -/
  | blockEmpty
  /-- The byte position of a block exceeds a 64-bit word. -/
  | positionTooLarge
  /-- The byte length of a run of blocks exceeds a 64-bit word. -/
  | lengthTooLarge
  deriving DecidableEq, Repr

namespace IoError

/-- The text of the error. -/
def message : IoError → String
  | endOfImage => "failed to fill whole buffer"
  | badMedium => "injected"
  | blockTooSmall => "block size smaller than a boot record"
  | blockEmpty => "block size must not be zero"
  | positionTooLarge => "LBA out of range"
  | lengthTooLarge => "length out of range"

/-- Errors that mean that there is nothing at the place asked for, rather than a failing medium. -/
def isAbsence : IoError → Bool
  | badMedium => false
  | _ => true

end IoError

/-- A disk image with its failing ranges `[first, end)`. -/
structure Image where
  contents : Memory
  badRead : Option (Nat × Nat) := none
  badWrite : Option (Nat × Nat) := none
  /-- How often the write cache was asked to be flushed. -/
  flushes : Nat := 0
  deriving DecidableEq, Repr

namespace Image

/-- Whether `len` bytes from `pos` on touch the range. -/
def touches (range : Option (Nat × Nat)) (pos len : Nat) : Bool :=
  match range with
  | none => false
  | some (first, stop) => 0 < len && pos < stop && first < pos + len

/-- Reads `len` bytes from `pos` on. -/
def read (image : Image) (pos len : Nat) : Except IoError (List UInt8) :=
  if len = 0 then .ok []
  else if touches image.badRead pos len then .error .badMedium
  else if image.contents.size < pos + len then .error .endOfImage
  else .ok (image.contents.read pos len)

/-- Writes `bytes` from `pos` on. -/
def write (image : Image) (pos : Nat) (bytes : List UInt8) : Except IoError Image :=
  if touches image.badWrite pos bytes.length then .error .badMedium
  else .ok { image with contents := image.contents.write pos bytes }

/-- Reads `count` blocks from block `lba` on. -/
def readBlocks (image : Image) (lba count blockSize : Nat) : Except IoError (List UInt8) :=
  if maxWord < lba * blockSize then .error .positionTooLarge
  else if maxWord < count * blockSize then .error .lengthTooLarge
  else image.read (lba * blockSize) (count * blockSize)

/-- Reads blocks that may be absent: beyond the end of the image there are none. -/
def readBlocks? (image : Image) (lba count blockSize : Nat) :
    Except IoError (Option (List UInt8)) :=
  match image.readBlocks lba count blockSize with
  | .ok bytes => .ok (some bytes)
  | .error e => if e.isAbsence then .ok none else .error e

theorem read_eq_ok {image : Image} {pos len : Nat} (hlen : 0 < len) {bytes : List UInt8} :
    image.read pos len = .ok bytes ↔
      touches image.badRead pos len = false ∧ pos + len ≤ image.contents.size ∧
        image.contents.read pos len = bytes := by
  unfold read
  split
  · omega
  · split
    · simp_all
    · split
      · rename_i hpast
        exact ⟨fun h => (by cases h), fun h => absurd h.2.1 (by omega)⟩
      · rename_i hinside
        have hend : pos + len ≤ image.contents.size := by omega
        simp_all

theorem readBlocks_eq_ok_iff {image : Image} {lba count blockSize : Nat} {bytes : List UInt8} :
    image.readBlocks lba count blockSize = .ok bytes ↔
      lba * blockSize ≤ maxWord ∧ count * blockSize ≤ maxWord ∧
        (0 < count * blockSize → touches image.badRead (lba * blockSize) (count * blockSize) = false ∧
          lba * blockSize + count * blockSize ≤ image.contents.size) ∧
        image.contents.read (lba * blockSize) (count * blockSize) = bytes := by
  unfold readBlocks
  split
  · exact ⟨fun h => (by cases h), fun h => absurd h.1 (by omega)⟩
  · split
    · exact ⟨fun h => (by cases h), fun h => absurd h.2.1 (by omega)⟩
    · rename_i hpos hlen
      rcases Nat.eq_zero_or_pos (count * blockSize) with hzero | hsome
      · rw [hzero]
        simp [read, Memory.read]
        omega
      · rw [read_eq_ok hsome]
        constructor
        · rintro ⟨hreadable, hinside, heq⟩
          exact ⟨by omega, by omega, fun _ => ⟨hreadable, hinside⟩, heq⟩
        · rintro ⟨-, -, hrange, heq⟩
          exact ⟨(hrange hsome).1, (hrange hsome).2, heq⟩

theorem readBlocks?_of_found {image : Image} {lba count blockSize : Nat} {bytes : List UInt8}
    (h : image.readBlocks lba count blockSize = .ok bytes) :
    image.readBlocks? lba count blockSize = .ok (some bytes) := by
  rw [readBlocks?, h]

end Image
end BlockMux
