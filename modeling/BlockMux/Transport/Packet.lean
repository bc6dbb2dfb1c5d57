/-!
# Packets

A packet is a client's request for one run of blocks. It travels from the client to its session
and comes back as an acknowledgement.
-/

namespace BlockMux

/-- What a client asks a session to do. -/
inductive Operation where
  /-- Read blocks into the payload. -/
  | read
  /-- Write the payload to blocks. -/
  | write
  /-- Something this library does not know. -/
  | unsupported (code : Nat)
  deriving DecidableEq, Repr

namespace Operation

/-- The operation of a code. -/
def ofCode (code : Nat) : Operation :=
  if code = 0 then read else if code = 1 then write else unsupported code

/-- The code of an operation. -/
def code : Operation → Nat
  | read => 0
  | write => 1
  | unsupported code => code

end Operation

/-- The operations a device or a session allows. -/
structure Operations where
  read : Bool
  write : Bool
  deriving DecidableEq, Repr

namespace Operations

/-- Reading and writing. -/
def readWrite : Operations := ⟨true, true⟩

/-- Whether an operation is among those allowed. -/
def supports (allowed : Operations) : Operation → Bool
  | .read => allowed.read
  | .write => allowed.write
  | .unsupported _ => false

end Operations

/-- A request for `count` blocks from block `block` of the session's window on. The payload is
`size` bytes of the shared buffer from `offset` on. -/
structure Packet where
  operation : Operation
  block : Nat
  count : Nat
  offset : Nat
  size : Nat
  /-- Whether the request was carried out. -/
  succeeded : Bool := false
  deriving DecidableEq, Repr

end BlockMux
