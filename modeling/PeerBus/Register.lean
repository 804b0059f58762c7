/-
# `PeerBus.Register` — the register block

Four 32-bit registers at the start of a block of 256 bytes:

| offset | register | access |
| :-- | :-- | :-- |
| 0 | interrupt mask | read and write |
| 4 | interrupt status | read |
| 8 | position | read |
| 12 | doorbell | write |
-/
namespace PeerBus

/-- A register of a device. -/
inductive Register where
  | intrMask
  | intrStatus
  | ivPosition
  | doorbell
  deriving DecidableEq

namespace Register

/-- Every register, by ascending offset. -/
def all : List Register := [intrMask, intrStatus, ivPosition, doorbell]

/-- The word of the block that is the register. -/
def index : Register → Nat
  | intrMask => 0
  | intrStatus => 1
  | ivPosition => 2
  | doorbell => 3

/-- The byte offset of the register in the block. -/
def offset (r : Register) : Nat := 4 * r.index

/-- The name of the register. -/
def name : Register → String
  | intrMask => "IntrMask"
  | intrStatus => "IntrStatus"
  | ivPosition => "IvPosition"
  | doorbell => "Doorbell"

/-- The size of the block in bytes. -/
def blockSize : Nat := 256

/-- The mask that lets every interrupt through. -/
def maskAll : UInt32 := 0xFFFFFFFF

/-- The status read from a device that has gone away. -/
def statusInvalid : UInt32 := 0xFFFFFFFF

end Register

end PeerBus
