/-
# `PeerBus.Proofs.Machine.Attach` — what an attachment makes

To attach a device of a peer to a fabric makes a line, an endpoint and a device, each behind the
objects that are there already, and puts the endpoint into the fabric's map of peers
(`Machine.fabricAttach_eq`).  So the new port is attached (`Port.attached_made`), the ports of all
other peers stay attached (`Port.Attached.fabricAttach`), and two attachments to one live fabric
make a link (`Link.up_made`).
-/
import PeerBus.Proofs.Machine.Link

namespace PeerBus

/-! ## The peers of a fabric -/

namespace Fabric

theorem find?_insertEndpoint (peer q : PeerId) (endpoint : Ref .endpoint)
    (entries : List (PeerId × Ref .endpoint)) :
    (insertEndpoint peer endpoint entries).find? (fun entry => entry.1 = q) =
      if peer = q then some (peer, endpoint) else entries.find? fun entry => entry.1 = q := by
  induction entries with
  | nil => by_cases hq : peer = q <;> simp [insertEndpoint, hq]
  | cons entry rest ih =>
      rw [insertEndpoint]
      split
      · by_cases hq : peer = q <;> simp [hq]
      · rename_i hlt
        split
        · rename_i heq
          by_cases hq : peer = q
          · simp [hq]
          · have hentry : entry.1 ≠ q := heq ▸ hq
            simp [hq, hentry]
        · rename_i hne
          by_cases hentry : entry.1 = q
          · have hq : peer ≠ q := fun h => hne (h.trans hentry.symm)
            simp [hentry, hq]
          · simp [hentry, ih]

/-- A peer that is connected is found, and all others are found as before. -/
theorem endpoint?_connect (f : Fabric) (peer q : PeerId) (endpoint : Ref .endpoint) :
    (f.connect peer endpoint).endpoint? q =
      if peer = q then some endpoint else f.endpoint? q := by
  rw [endpoint?, connect, find?_insertEndpoint]
  by_cases hq : peer = q
  · rw [if_pos hq, if_pos hq]
    rfl
  · rw [if_neg hq, if_neg hq]
    rfl

end Fabric

/-! ## One attachment -/

/-- The port that the attachment of a peer makes. -/
def Port.made (m : Machine) (peer : PeerId) (call : CallId) : Port where
  peer := peer
  endpoint := m.endpoints.fresh
  line := m.lines.fresh
  device := m.devices.fresh
  call := call

/-- An attachment adds to the tables of a machine, and connects the peer. -/
theorem Machine.fabricAttach_eq (m : Machine) (fabric : Ref .fabric) (peer : PeerId) :
    (m.fabricAttach fabric peer).1 = { m with
      lines := m.lines.push
        (Line.request { number := (m.fabrics.get fabric).nextLine } (.device m.devices.fresh))
      endpoints := m.endpoints.push
        { peer := peer, mask := Register.maskAll, line := m.lines.fresh, fabric := fabric }
      fabrics := m.fabrics.modify fabric fun f =>
        { f.connect peer m.endpoints.fresh with nextLine := f.nextLine + 1 }
      devices := m.devices.push
        { registers := .endpoint m.endpoints.fresh
          window := some (m.fabrics.get fabric).window
          enabled := true
          seat := some ⟨m.lines.fresh, 1⟩ } } := by
  simp only [Machine.fabricAttach, Machine.resources, Machine.attach, Machine.request,
    Machine.addLine, Machine.writeRegister, Table.modify_push_fresh, Table.get_push_fresh]

namespace Port

variable {m : Machine} {fabric : Ref .fabric}

theorem attached_made (h : m.fabrics.Has fabric) (peer : PeerId) (call : CallId) :
    (made m peer call).Attached fabric (m.fabricAttach fabric peer).1 := by
  rw [Machine.fabricAttach_eq]
  exact
    { reached := by
        rw [Table.get_modify_self h]
        exact (Fabric.endpoint?_connect ..).trans (if_pos rfl)
      hasEndpoint := Table.has_push_fresh ..
      peer := congrArg Endpoint.peer (Table.get_push_fresh ..)
      fabric := congrArg Endpoint.fabric (Table.get_push_fresh ..)
      line := congrArg Endpoint.line (Table.get_push_fresh ..)
      unmasked := fun hzero =>
        absurd ((congrArg Endpoint.mask (Table.get_push_fresh m.endpoints _)).symm.trans hzero)
          (by decide : Register.maskAll ≠ 0)
      hasLine := Table.has_push_fresh ..
      handler := ⟨1, congrArg Line.registrations (Table.get_push_fresh ..)⟩
      hasDevice := Table.has_push_fresh ..
      registers := congrArg Device.registers (Table.get_push_fresh ..)
      enabled := congrArg Device.enabled (Table.get_push_fresh ..)
      known := fun p hp =>
        nomatch (congrArg Device.peer (Table.get_push_fresh m.devices _)).symm.trans hp }

/-- A port stays attached while another peer is. -/
theorem Attached.fabricAttach {port : Port} (h : port.Attached fabric m)
    (hfabric : m.fabrics.Has fabric) {peer : PeerId} (hne : peer ≠ port.peer) :
    port.Attached fabric (m.fabricAttach fabric peer).1 := by
  rw [Machine.fabricAttach_eq]
  have hendpoint := Table.get_push_of_has h.hasEndpoint
  have hline := Table.get_push_of_has h.hasLine
  have hdevice := Table.get_push_of_has h.hasDevice
  exact
    { reached := by
        rw [Table.get_modify_self hfabric]
        exact (Fabric.endpoint?_connect ..).trans ((if_neg hne).trans h.reached)
      hasEndpoint := Table.has_push_of_has h.hasEndpoint _
      peer := (congrArg Endpoint.peer (hendpoint _)).trans h.peer
      fabric := (congrArg Endpoint.fabric (hendpoint _)).trans h.fabric
      line := (congrArg Endpoint.line (hendpoint _)).trans h.line
      unmasked := fun hzero =>
        h.unmasked ((congrArg Endpoint.mask (hendpoint _)).symm.trans hzero)
      hasLine := Table.has_push_of_has h.hasLine _
      handler := (hline _).symm ▸ h.handler
      hasDevice := Table.has_push_of_has h.hasDevice _
      registers := (congrArg Device.registers (hdevice _)).trans h.registers
      enabled := (congrArg Device.enabled (hdevice _)).trans h.enabled
      known := fun p hp => h.known p ((congrArg Device.peer (hdevice _)).symm.trans hp) }

end Port

/-! ## Two attachments -/

namespace Link

variable {m : Machine} {fabric : Ref .fabric}

/-- The machine after the attachments of a client and a server. -/
def attached (m : Machine) (fabric : Ref .fabric) (peer : Side → PeerId) : Machine :=
  ((m.fabricAttach fabric (peer .client)).1.fabricAttach fabric (peer .server)).1

/-- The link that the attachments of a client and a server make. -/
def made (m : Machine) (fabric : Ref .fabric) (peer : Side → PeerId) (call : Side → CallId) :
    Link where
  fabric := fabric
  region := (m.fabrics.get fabric).window
  port
    | .client => Port.made m (peer .client) (call .client)
    | .server => Port.made (m.fabricAttach fabric (peer .client)).1 (peer .server) (call .server)

/-- Two peers that are attached to one live fabric are linked. -/
theorem up_made {peer : Side → PeerId} (hfabric : m.fabrics.Has fabric)
    (hlive : (m.fabrics.get fabric).live = true)
    (hregion : m.regions.Has (m.fabrics.get fabric).window)
    (hne : peer .client ≠ peer .server) (call : Side → CallId) :
    (made m fabric peer call).Up (attached m fabric peer) := by
  have hfabric' : (m.fabricAttach fabric (peer .client)).1.fabrics.Has fabric := by
    rw [Machine.fabricAttach_eq]
    exact (Table.has_modify ..).mpr hfabric
  have hkeeps : ∀ (m : Machine) (q : PeerId),
      ((m.fabricAttach fabric q).1.fabrics.get fabric).live = (m.fabrics.get fabric).live := by
    intro m q
    rw [Machine.fabricAttach_eq]
    exact Table.get_modify_keeps _ _ _ Fabric.live fun _ => rfl
  refine ⟨?_, fun x => ?_, ?_, ?_⟩
  · exact ((hkeeps _ _).trans (hkeeps _ _)).trans hlive
  · cases x with
    | client => exact (Port.attached_made hfabric ..).fabricAttach hfabric' hne.symm
    | server => exact Port.attached_made hfabric' ..
  · rw [attached, Machine.fabricAttach_eq, Machine.fabricAttach_eq]
    exact hregion
  · intro hdevice
    have hindex := congrArg Ref.index hdevice
    simp only [made, Port.made, Machine.fabricAttach_eq, Table.fresh, Table.push,
      Array.size_push] at hindex
    omega

theorem regions_attached (peer : Side → PeerId) :
    (attached m fabric peer).regions = m.regions := by
  simp only [attached, Machine.fabricAttach_eq]

/-- Nobody has waited for or rung a device that was just attached. -/
theorem event_made (peer : Side → PeerId) (call : Side → CallId) (x : Side) :
    (made m fabric peer call).event (attached m fabric peer) x = default := by
  have hfresh : ∀ (m : Machine) (q : PeerId),
      ((m.fabricAttach fabric q).1.devices.get m.devices.fresh).event = default := by
    intro m q
    rw [Machine.fabricAttach_eq]
    exact congrArg Device.event (Table.get_push_fresh ..)
  cases x with
  | client =>
      have hhas : (m.fabricAttach fabric (peer .client)).1.devices.Has m.devices.fresh := by
        rw [Machine.fabricAttach_eq]
        exact Table.has_push_fresh ..
      have hkept : ((attached m fabric peer).devices.get m.devices.fresh).event =
          ((m.fabricAttach fabric (peer .client)).1.devices.get m.devices.fresh).event := by
        rw [attached, Machine.fabricAttach_eq]
        exact congrArg Device.event (Table.get_push_of_has hhas _)
      exact hkept.trans (hfresh ..)
  | server => exact hfresh ..

end Link

end PeerBus
