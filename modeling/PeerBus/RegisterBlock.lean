/-
# `PeerBus.RegisterBlock` — register blocks

The four registers of a device are reached in one of three ways: through a block that records
what is written to it, through plain words of memory, or through an endpoint of a fabric.
-/
import PeerBus.Table
import PeerBus.Doorbell

namespace PeerBus

/-- A block that records the doorbells written to it and shows a status and a position that are
set from outside. -/
structure Recorder where
  mask : UInt32 := 0
  status : UInt32 := 0
  position : UInt32 := 0
  /-- Every doorbell so far, in order. -/
  doorbells : List Message := []

instance : Inhabited Recorder := ⟨{}⟩

/-- The receiving side of a peer on a fabric. -/
structure Endpoint where
  peer : PeerId
  mask : UInt32 := 0
  status : UInt32 := 0
  line : Ref .line
  fabric : Ref .fabric

instance : Inhabited Endpoint := ⟨{ peer := .first, line := ⟨0⟩, fabric := ⟨0⟩ }⟩

/-- A way to reach the four registers of a device. -/
inductive Registers where
  /-- A recording block. -/
  | recorder (block : Ref .recorder)
  /-- Plain words of memory. -/
  | words (block : Ref .words)
  /-- An endpoint of a fabric. -/
  | endpoint (endpoint : Ref .endpoint)
  deriving DecidableEq

end PeerBus
