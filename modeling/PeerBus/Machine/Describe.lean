/-
# `PeerBus.Machine.Describe` — how objects are shown

The texts that show objects as values.  Addresses differ from run to run and are written `PTR`.
-/
import PeerBus.Machine.Fabric
import PeerBus.Machine.Stream
import PeerBus.Handshake.Session

namespace PeerBus

namespace Machine

/-- The text of something that may be missing. -/
def describeOption {α : Type} (describe : α → String) : Option α → String
  | none => "None"
  | some a => s!"Some({describe a})"

/-- The size of a region in bytes. -/
def regionSize (m : Machine) (region : Ref .region) : UInt64 := (m.regions.get region).size

/-- The text that shows a window. -/
def describeWindow (m : Machine) (region : Ref .region) : String :=
  s!"SharedWindow({(m.regionSize region).toNat} bytes)"

/-- The text that shows the memory of a window, mapped as a whole. -/
def describeMapping (m : Machine) (region : Ref .region) : String :=
  s!"Mapping(PTR, {(m.regionSize region).toNat} bytes)"

/-- The text that shows a block of memory of the program's own. -/
def describeHeap (m : Machine) (region : Ref .region) : String :=
  s!"HeapRegion({(m.regionSize region).toNat} bytes)"

/-- The text that shows a block of memory mapped from elsewhere. -/
def describeExternal (m : Machine) (region : Ref .region) : String :=
  s!"MmioRegion(PTR, {(m.regionSize region).toNat} bytes)"

/-- The text that shows registers in mapped memory. -/
def describeMappedRegisters : String := "MmioRegisters(PTR)"

/-- The text that shows a registration. -/
def describeSeat (m : Machine) (seat : Seat) : String :=
  s!"IrqRegistration(irq {(m.lines.get seat.line).number.toNat}, #{seat.token.toNat})"

/-- The text that shows what operations on a device share. -/
def describeHandle (m : Machine) (ref : Ref .device) : String :=
  let d := m.devices.get ref
  let peer := describeOption PeerId.describe d.peer
  let window := describeOption m.describeWindow d.window
  s!"DeviceHandle \x7b peer: {peer}, window: {window}, enabled: {d.enabled}, .. \x7d"

/-- The text that shows an attached device. -/
def describeDevice (m : Machine) (ref : Ref .device) : String :=
  let handle := m.describeHandle ref
  let irq := describeOption m.describeSeat (m.devices.get ref).seat
  s!"Device \x7b handle: {handle}, irq: {irq} \x7d"

/-- The text that shows a stream. -/
def describeStream (m : Machine) (s : Stream) : String :=
  let handle := m.describeHandle s.device
  s!"Stream \x7b handle: {handle}, position: {s.position.toNat} \x7d"

/-- The text that shows the resources of an endpoint. -/
def describeResources (m : Machine) (resources : Resources) : String :=
  let window := m.describeWindow resources.window
  s!"DeviceResources \x7b registers: true, window: Some({window}) \x7d"

/-- The text that shows a fabric. -/
def describeFabric (m : Machine) (ref : Ref .fabric) : String :=
  let fabric := m.fabrics.get ref
  let window := m.describeWindow fabric.window
  let peers := String.intercalate ", " (fabric.peers.map PeerId.describe)
  s!"Fabric \x7b window: {window}, peers: [{peers}] \x7d"

/-- The text that shows a session. -/
def describeSession (m : Machine) (session : Session) : String :=
  let mapping := m.describeMapping session.region
  s!"ControlSession \x7b mapping: {mapping}, slots: {session.slots.toNat} \x7d"

end Machine

end PeerBus
