import BlockMux.Session.Session
import Mathlib.Data.List.Perm.Basic

/-!
# The sequential reference

What the packets of one session come to when they are carried out one at a time, in the order they
were submitted, on nothing but the bytes of the session's window and of its buffer. A packet that
fails the checks or touches a bad block is acknowledged as failed; any other packet copies exactly
the bytes of its blocks.

* `bytes_run`, `acks_run` — what a run of the reference leaves.
* `acks_perm` — its acknowledgements, sorted by what became of the packets.
-/

namespace BlockMux

/-- The bytes of a session's window and of its buffer. -/
structure Bytes where
  window : List UInt8
  buffer : List UInt8
  deriving DecidableEq, Repr

namespace Bytes

/-- `len` of the bytes from `pos` on. -/
def slice (bytes : List UInt8) (pos len : Nat) : List UInt8 := (bytes.drop pos).take len

/-- The bytes with `new` in place of those from `pos` on. -/
def splice (bytes : List UInt8) (pos : Nat) (new : List UInt8) : List UInt8 :=
  bytes.take pos ++ (new ++ bytes.drop (pos + new.length))

/-- Copies the blocks of a packet between window and buffer. -/
def copy (s : Session) (bytes : Bytes) (packet : Packet) : Bytes :=
  let pos := packet.block * s.blockSize
  let len := packet.count * s.blockSize
  match packet.operation with
  | .read => { bytes with
      buffer := splice bytes.buffer packet.offset (slice bytes.window pos len) }
  | .write => { bytes with
      window := splice bytes.window pos (slice bytes.buffer packet.offset len) }
  | .unsupported _ => bytes

end Bytes

/-- Whether the blocks of a packet touch the bad ones, `[first, stop)` on the device. -/
def Session.touchesBad (s : Session) (bad : Option (Nat × Nat)) (packet : Packet) : Bool :=
  match bad with
  | none => false
  | some (first, stop) =>
    s.grant.offset + packet.block < stop && first < s.grant.offset + packet.block + packet.count

/-- Bytes, and the acknowledgements so far. -/
structure Reference where
  bytes : Bytes
  acks : List Packet := []
  deriving DecidableEq, Repr

namespace Reference

/-- Acknowledges a packet. -/
def acknowledge (ref : Reference) (packet : Packet) (success : Bool) : Reference :=
  { ref with acks := ref.acks ++ [{ packet with succeeded := success }] }

/-- Runs one packet from its checks to its acknowledgement. -/
def step (s : Session) (bad : Option (Nat × Nat)) (ref : Reference) (packet : Packet) :
    Reference :=
  if !s.accepts packet then ref.acknowledge packet false
  else if s.touchesBad bad packet then ref.acknowledge packet false
  else { ref with bytes := ref.bytes.copy s packet }.acknowledge packet true

/-- Runs packets one after the other. -/
def run (s : Session) (bad : Option (Nat × Nat)) (ref : Reference) (packets : List Packet) :
    Reference :=
  packets.foldl (step s bad) ref

/-- Whether a packet is carried out. -/
def carries (s : Session) (bad : Option (Nat × Nat)) (packet : Packet) : Bool :=
  s.accepts packet && !s.touchesBad bad packet

variable {s : Session} {bad : Option (Nat × Nat)}

theorem step_eq (ref : Reference) (packet : Packet) :
    step s bad ref packet =
      ⟨if carries s bad packet then ref.bytes.copy s packet else ref.bytes,
        ref.acks ++ [{ packet with succeeded := carries s bad packet }]⟩ := by
  unfold step carries
  by_cases haccepts : s.accepts packet = true
  · by_cases hbad : s.touchesBad bad packet = true
    · simp [haccepts, hbad, acknowledge]
    · simp [haccepts, hbad, acknowledge]
  · simp [haccepts, acknowledge]

/-- Only the packets that are carried out move bytes. -/
theorem bytes_run (ref : Reference) (packets : List Packet) :
    (run s bad ref packets).bytes =
      (packets.filter (carries s bad)).foldl (Bytes.copy s) ref.bytes := by
  -- on the packets; one that is not carried out is skipped on both sides
  induction packets generalizing ref with
  | nil => rfl
  | cons packet packets ih =>
    rw [run, List.foldl_cons, ← run, ih, step_eq]
    by_cases h : carries s bad packet = true
    · rw [List.filter_cons_of_pos h, if_pos h]
      rfl
    · rw [List.filter_cons_of_neg h, if_neg h]

/-- Every packet is acknowledged, with whether it was carried out. -/
theorem acks_run (ref : Reference) (packets : List Packet) :
    (run s bad ref packets).acks =
      ref.acks ++ packets.map fun packet : Packet =>
        { packet with succeeded := carries s bad packet } := by
  induction packets generalizing ref with
  | nil => exact (List.append_nil _).symm
  | cons packet packets ih =>
    rw [run, List.foldl_cons, ← run, ih, step_eq, List.map_cons, List.append_assoc]
    rfl

/-- The packets carried out, those that fail the checks and those on bad blocks make up all. -/
theorem acks_perm (packets : List Packet) :
    ((packets.filter (carries s bad)).map (fun packet : Packet =>
        { packet with succeeded := true }) ++
      ((packets.filter fun packet => !s.accepts packet) ++
        (packets.filter s.accepts).filter (s.touchesBad bad)).map fun packet : Packet =>
          { packet with succeeded := false }).Perm
      (packets.map fun packet : Packet => { packet with succeeded := carries s bad packet }) := by
  -- each packet falls into exactly one of the three groups
  induction packets with
  | nil => exact .refl _
  | cons packet packets ih =>
    by_cases haccepts : s.accepts packet = true
    · by_cases hbad : s.touchesBad bad packet = true
      · -- the packet stands behind all that were carried out or failed the checks
        have hcarries : carries s bad packet = false := by simp [carries, hbad]
        rw [List.filter_cons_of_neg (by simp [hcarries]),
          List.filter_cons_of_neg (by simp [haccepts]), List.filter_cons_of_pos haccepts,
          List.filter_cons_of_pos hbad, List.map_append, List.map_cons, List.map_cons, hcarries,
          ← List.append_assoc]
        refine List.perm_middle.trans (List.Perm.cons _ ?_)
        rw [List.append_assoc, ← List.map_append]
        exact ih
      · have hcarries : carries s bad packet = true := by simp [carries, haccepts, hbad]
        rw [List.filter_cons_of_pos hcarries, List.filter_cons_of_neg (by simp [haccepts]),
          List.filter_cons_of_pos haccepts, List.filter_cons_of_neg hbad, List.map_cons,
          List.map_cons, hcarries]
        exact ih.cons _
    · have hcarries : carries s bad packet = false := by simp [carries, haccepts]
      rw [List.filter_cons_of_neg (by simp [hcarries]),
        List.filter_cons_of_pos (by simp [haccepts]), List.filter_cons_of_neg haccepts,
        List.cons_append, List.map_cons, List.map_cons, hcarries]
      exact List.perm_middle.trans (ih.cons _)

end Reference
end BlockMux
