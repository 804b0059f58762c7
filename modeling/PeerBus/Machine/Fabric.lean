/-
# `PeerBus.Machine.Fabric` — operations on fabrics

Endpoints are made, replaced and taken away; a device attached through a fabric uses the registers,
the line and the window that its endpoint was made with.
-/
import PeerBus.Machine.Device

namespace PeerBus

/-- What a fabric hands to whoever attaches a device. -/
structure Resources where
  endpoint : Ref .endpoint
  line : Ref .line
  window : Ref .region

namespace Machine

/-- Makes the endpoint of a peer, in place of one that is there already. -/
def resources (m : Machine) (ref : Ref .fabric) (peer : PeerId) : Machine × Resources :=
  let fabric := m.fabrics.get ref
  let (m, line) := m.addLine fabric.nextLine
  let endpoint := m.endpoints.fresh
  ({ m with
      endpoints := m.endpoints.push { peer := peer, line := line, fabric := ref }
      fabrics := m.fabrics.modify ref fun f =>
        { f.connect peer endpoint with nextLine := f.nextLine + 1 } },
    ⟨endpoint, line, fabric.window⟩)

/-- Makes the endpoint of a peer and attaches a device to it. -/
def fabricAttach (m : Machine) (ref : Ref .fabric) (peer : PeerId) :
    Machine × Except DeviceError (Ref .device) :=
  let (m, resources) := m.resources ref peer
  m.attach (some (.endpoint resources.endpoint)) (some resources.window) resources.line

/-- Takes the endpoint of a peer away; the answer tells whether there was one. -/
def fabricRemove (m : Machine) (ref : Ref .fabric) (peer : PeerId) : Machine × Bool :=
  ({ m with fabrics := m.fabrics.modify ref fun f => f.disconnect peer },
    ((m.fabrics.get ref).endpoint? peer).isSome)

/-- Latches a status word of any kind on the endpoint of a peer and raises its line. -/
def fabricRaise (m : Machine) (ref : Ref .fabric) (peer : PeerId) (status : UInt32) :
    Machine × Bool :=
  match (m.fabrics.get ref).endpoint? peer with
  | some endpoint => m.deliver endpoint status true
  | none => (m, false)

/-- Nobody holds the fabric any more. -/
def retireFabric (m : Machine) (ref : Ref .fabric) : Machine :=
  { m with fabrics := m.fabrics.modify ref fun f => { f with live := false } }

end Machine

end PeerBus
