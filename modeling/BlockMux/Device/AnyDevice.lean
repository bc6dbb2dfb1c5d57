import BlockMux.Device.Ram
import BlockMux.Device.Scripted
import BlockMux.Device.StreamDevice

/-!
# Devices of any kind

One type for the kinds of devices there are; each acts as the device inside does.
-/

namespace BlockMux

/-- A device in memory, on an image, or following a script. -/
inductive AnyDevice where
  | ram (device : Ram)
  | image (device : ImageDevice)
  | scripted (device : Scripted)
  deriving DecidableEq, Repr

namespace AnyDevice

/-- Asks the device inside for a transfer. -/
def submit (device : AnyDevice) (arena : Arena) (t : Transfer) (request : Request) :
    Reply AnyDevice :=
  match device with
  | ram d => (Driver.submit d arena t request).map ram
  | image d => (Driver.submit d arena t request).map image
  | scripted d => (Driver.submit d arena t request).map scripted

/-- Asks the device inside for a buffer. -/
def allocate (device : AnyDevice) (arena : Arena) (size : Nat) :
    Option (AnyDevice × Arena × SharedBuffer) :=
  match device with
  | ram d => (Driver.allocate d arena size).map fun (d, rest) => (ram d, rest)
  | image d => (Driver.allocate d arena size).map fun (d, rest) => (image d, rest)
  | scripted d => (Driver.allocate d arena size).map fun (d, rest) => (scripted d, rest)

/-- Gives a buffer back to the device inside. -/
def release (device : AnyDevice) (buffer : SharedBuffer) : AnyDevice :=
  match device with
  | ram d => ram (Driver.release d buffer)
  | image d => image (Driver.release d buffer)
  | scripted d => scripted (Driver.release d buffer)

/-- Lets the device inside take a step. -/
def advance (device : AnyDevice) (arena : Arena) (step : DeviceStep) : Progress AnyDevice :=
  match device with
  | ram d => (Device.advance d arena step).map ram
  | image d => (Device.advance d arena step).map image
  | scripted d => (Device.advance d arena step).map scripted

instance : Device AnyDevice where
  blockCount
    | ram d => Driver.blockCount d
    | image d => Driver.blockCount d
    | scripted d => Driver.blockCount d
  blockSize
    | ram d => Driver.blockSize d
    | image d => Driver.blockSize d
    | scripted d => Driver.blockSize d
  operations
    | ram d => Driver.operations d
    | image d => Driver.operations d
    | scripted d => Driver.operations d
  usesAddresses
    | ram d => Driver.usesAddresses d
    | image d => Driver.usesAddresses d
    | scripted d => Driver.usesAddresses d
  submit := submit
  sync
    | ram d => ram (Driver.sync d)
    | image d => image (Driver.sync d)
    | scripted d => scripted (Driver.sync d)
  allocate := allocate
  release := release
  advance := advance

end AnyDevice
end BlockMux
