/-
# `PeerBus.Proofs.Machine.Wiring` — how fabrics, ports, lines and devices hang together

A port is an endpoint with a line of its own.  Fabrics know ports by their peers, and devices use
the registers of a port and are registered on its line:

    fabric  -- endpoint? peer -->  endpoint  -- line -->  line  -- registrations -->  devices
                                      ^                                                  |
                                      +--------------------- registers ------------------+

`Machine.Wired` says that these references fit together, whatever ports were replaced or removed
and whatever devices came and went.  `Machine.Roster` adds that a line tells exactly the devices
that are attached to its port, in the order of their attachment; it holds as long as the tokens of
a line, which are numbers of 64 bits, have not come round.
-/
import PeerBus.Proofs.Machine.Attach

namespace PeerBus

theorem Fabric.endpoint?_disconnect {f : Fabric} {peer q : PeerId} {e : Ref .endpoint}
    (h : (f.disconnect peer).endpoint? q = some e) : f.endpoint? q = some e := by
  unfold endpoint? disconnect at h
  unfold endpoint?
  rw [List.find?_filter] at h
  obtain ⟨entry, hfind, rfl⟩ := Option.map_eq_some_iff.mp h
  by_cases hq : q = peer
  · have hentry := List.find?_some hfind
    simp [hq] at hentry
  · have hsame : (fun entry : PeerId × Ref .endpoint =>
        decide (decide (entry.1 ≠ peer) = true ∧ decide (entry.1 = q) = true)) =
          fun entry => decide (entry.1 = q) := by
      funext entry
      by_cases he : entry.1 = q
      · simp [he, hq]
      · simp [he]
    rw [hsame] at hfind
    rw [hfind]
    rfl

namespace Machine

/-! ## Changes that leave the wiring alone -/

/-- Lines, and what ports and devices refer to, are as they were. -/
structure SameSeats (m m' : Machine) : Prop where
  lines : m'.lines = m.lines
  hasEndpoint : ∀ e, m'.endpoints.Has e ↔ m.endpoints.Has e
  line : ∀ e, (m'.endpoints.get e).line = (m.endpoints.get e).line
  fabric : ∀ e, (m'.endpoints.get e).fabric = (m.endpoints.get e).fabric
  hasDevice : ∀ d, m'.devices.Has d ↔ m.devices.Has d
  registers : ∀ d, (m'.devices.get d).registers = (m.devices.get d).registers
  enabled : ∀ d, (m'.devices.get d).enabled = (m.devices.get d).enabled
  seat : ∀ d, (m'.devices.get d).seat = (m.devices.get d).seat

/-- Fabrics and windows, too, are as they were. -/
structure SameWiring (m m' : Machine) : Prop extends SameSeats m m' where
  fabrics : m'.fabrics = m.fabrics
  window : ∀ d, (m'.devices.get d).window = (m.devices.get d).window

namespace SameWiring

variable {m m' m'' : Machine}

theorem refl (m : Machine) : SameWiring m m where
  lines := rfl
  hasEndpoint _ := Iff.rfl
  line _ := rfl
  fabric _ := rfl
  hasDevice _ := Iff.rfl
  registers _ := rfl
  enabled _ := rfl
  seat _ := rfl
  fabrics := rfl
  window _ := rfl

theorem trans (h : SameWiring m m') (h' : SameWiring m' m'') : SameWiring m m'' where
  lines := h'.lines.trans h.lines
  hasEndpoint e := (h'.hasEndpoint e).trans (h.hasEndpoint e)
  line e := (h'.line e).trans (h.line e)
  fabric e := (h'.fabric e).trans (h.fabric e)
  hasDevice d := (h'.hasDevice d).trans (h.hasDevice d)
  registers d := (h'.registers d).trans (h.registers d)
  enabled d := (h'.enabled d).trans (h.enabled d)
  seat d := (h'.seat d).trans (h.seat d)
  fabrics := h'.fabrics.trans h.fabrics
  window d := (h'.window d).trans (h.window d)

theorem modifyDevice (m : Machine) (r : Ref .device) {f : Device → Device}
    (hregisters : ∀ d, (f d).registers = d.registers) (henabled : ∀ d, (f d).enabled = d.enabled)
    (hseat : ∀ d, (f d).seat = d.seat) (hwindow : ∀ d, (f d).window = d.window) :
    SameWiring m { m with devices := m.devices.modify r f } :=
  { refl m with
    hasDevice := fun d => Table.has_modify m.devices r d f
    registers := fun d => Table.get_modify_keeps m.devices r d Device.registers hregisters
    enabled := fun d => Table.get_modify_keeps m.devices r d Device.enabled henabled
    seat := fun d => Table.get_modify_keeps m.devices r d Device.seat hseat
    window := fun d => Table.get_modify_keeps m.devices r d Device.window hwindow }

theorem modifyEndpoint (m : Machine) (r : Ref .endpoint) {f : Endpoint → Endpoint}
    (hline : ∀ e, (f e).line = e.line) (hfabric : ∀ e, (f e).fabric = e.fabric) :
    SameWiring m { m with endpoints := m.endpoints.modify r f } :=
  { refl m with
    hasEndpoint := fun e => Table.has_modify m.endpoints r e f
    line := fun e => Table.get_modify_keeps m.endpoints r e Endpoint.line hline
    fabric := fun e => Table.get_modify_keeps m.endpoints r e Endpoint.fabric hfabric }

end SameWiring

/-! ## Machines that are wired -/

/-- Who is registered on a line. -/
def onLine (m : Machine) (line : Ref .line) : List Registration := (m.lines.get line).registrations

/-- Who is told of an interrupt of a port. -/
def onPort (m : Machine) (e : Ref .endpoint) : List Registration :=
  (m.lines.get (m.endpoints.get e).line).registrations

/-- The first device of a list of registrations that is enabled. -/
def firstOf (m : Machine) (l : List Registration) : Option (Ref .device) :=
  l.findSome? fun r =>
    match r.handler with
    | .device d => if (m.devices.get d).enabled then some d else none
    | .probe _ => none

/-- The device that an interrupt of a port is for. -/
def listener? (m : Machine) (e : Ref .endpoint) : Option (Ref .device) := m.firstOf (m.onPort e)

/-- The references of fabrics, ports, lines and devices fit together. -/
structure Wired (m : Machine) : Prop where
  live : ∀ f, m.fabrics.Has f → (m.fabrics.get f).live = true
  known : ∀ f peer e, (m.fabrics.get f).endpoint? peer = some e → m.endpoints.Has e
  joined : ∀ e, m.endpoints.Has e → m.fabrics.Has (m.endpoints.get e).fabric
  lined : ∀ e, m.endpoints.Has e → m.lines.Has (m.endpoints.get e).line
  apart : ∀ e e', m.endpoints.Has e → m.endpoints.Has e' →
    (m.endpoints.get e).line = (m.endpoints.get e').line → e = e'
  seated : ∀ e, m.endpoints.Has e → ∀ r ∈ m.onPort e, ∃ d, r.handler = .device d ∧
    m.devices.Has d ∧ (m.devices.get d).registers = .endpoint e
  bound : ∀ d, m.devices.Has d → ∃ e, m.endpoints.Has e ∧
    (m.devices.get d).registers = .endpoint e

theorem SameSeats.onPort {m m' : Machine} (h : SameSeats m m') (e : Ref .endpoint) :
    m'.onPort e = m.onPort e := by
  unfold Machine.onPort
  rw [h.lines, h.line]

theorem SameSeats.listener? {m m' : Machine} (h : SameSeats m m') (e : Ref .endpoint) :
    m'.listener? e = m.listener? e := by
  unfold Machine.listener? Machine.firstOf
  rw [h.onPort]
  simp only [h.enabled]

section Resources

variable {m : Machine} {f : Ref .fabric} {peer : PeerId} {e : Ref .endpoint}

theorem has_endpoint_resources :
    (m.resources f peer).1.endpoints.Has e ↔ m.endpoints.Has e ∨ e = m.endpoints.fresh :=
  Table.has_push_iff ..

theorem endpoint_resources_of_has (he : m.endpoints.Has e) :
    (m.resources f peer).1.endpoints.get e = m.endpoints.get e :=
  Table.get_push_of_has he _

/-- A new port has a new line. -/
theorem line_resources_fresh :
    ((m.resources f peer).1.endpoints.get m.endpoints.fresh).line = m.lines.fresh :=
  congrArg Endpoint.line (Table.get_push_fresh ..)

/-- Nobody is registered on the line of a new port. -/
theorem lines_resources_fresh :
    (m.resources f peer).1.lines.get
        ((m.resources f peer).1.endpoints.get m.endpoints.fresh).line =
      { number := (m.fabrics.get f).nextLine } := by
  rw [line_resources_fresh]
  exact Table.get_push_fresh ..

end Resources

namespace Wired

variable {m m' : Machine}

theorem empty : Wired {} where
  live _ h := absurd h (Nat.not_lt_zero _)
  known f peer e h := by
    rw [Table.get_of_not_has (Nat.not_lt_zero _)] at h
    exact nomatch h
  joined _ h := absurd h (Nat.not_lt_zero _)
  lined _ h := absurd h (Nat.not_lt_zero _)
  apart _ _ h := absurd h (Nat.not_lt_zero _)
  seated _ h := absurd h (Nat.not_lt_zero _)
  bound _ h := absurd h (Nat.not_lt_zero _)

theorem of_same (h : Wired m) (hs : SameWiring m m') : Wired m' where
  live f hf := by
    rw [hs.fabrics] at hf ⊢
    exact h.live f hf
  known f peer e he := by
    rw [hs.fabrics] at he
    exact (hs.hasEndpoint e).mpr (h.known f peer e he)
  joined e he := by
    rw [hs.fabrics, hs.fabric]
    exact h.joined e ((hs.hasEndpoint e).mp he)
  lined e he := by
    rw [hs.lines, hs.line]
    exact h.lined e ((hs.hasEndpoint e).mp he)
  apart e e' he he' hline := by
    rw [hs.line, hs.line] at hline
    exact h.apart e e' ((hs.hasEndpoint e).mp he) ((hs.hasEndpoint e').mp he') hline
  seated e he r hr := by
    rw [hs.onPort] at hr
    obtain ⟨d, hd, hhas, hreg⟩ := h.seated e ((hs.hasEndpoint e).mp he) r hr
    exact ⟨d, hd, (hs.hasDevice d).mpr hhas, (hs.registers d).trans hreg⟩
  bound d hd := by
    obtain ⟨e, he, hreg⟩ := h.bound d ((hs.hasDevice d).mp hd)
    exact ⟨e, (hs.hasEndpoint e).mpr he, (hs.registers d).trans hreg⟩

/-- Whoever is told on a port is there. -/
theorem hasDevice (h : Wired m) {e : Ref .endpoint} (he : m.endpoints.Has e) {r : Registration}
    (hr : r ∈ m.onPort e) {d : Ref .device} (hd : r.handler = .device d) : m.devices.Has d := by
  obtain ⟨d', hd', hhas, -⟩ := h.seated e he r hr
  cases hd.symm.trans hd'
  exact hhas

/-- The port that a device uses is there. -/
theorem hasPort (h : Wired m) {d : Ref .device} (hd : m.devices.Has d) {e : Ref .endpoint}
    (hreg : (m.devices.get d).registers = .endpoint e) : m.endpoints.Has e := by
  obtain ⟨e', he', hreg'⟩ := h.bound d hd
  cases hreg.symm.trans hreg'
  exact he'

/-- A new fabric knows nobody. -/
theorem addFabric (h : Wired m) (size : UInt64) : Wired (m.addFabric size).1 where
  live f hf := by
    rcases (Table.has_push_iff ..).mp hf with hf | rfl
    · exact (congrArg Fabric.live (Table.get_push_of_has hf _)).trans (h.live f hf)
    · exact congrArg Fabric.live (Table.get_push_fresh m.fabrics _)
  known f peer e he := by
    by_cases hf : f = m.fabrics.fresh
    · subst hf
      have hnone : some e = none :=
        he.symm.trans (congrArg (Fabric.endpoint? · peer) (Table.get_push_fresh m.fabrics _))
      exact nomatch hnone
    · exact h.known f peer e
        ((congrArg (Fabric.endpoint? · peer) (Table.get_push_of_ne hf _)).symm.trans he)
  joined e he := Table.has_push_of_has (h.joined e he) _
  lined := h.lined
  apart := h.apart
  seated := h.seated
  bound := h.bound

/-- A port that is taken away is as it was; its fabric does not know it any more. -/
theorem fabricRemove (h : Wired m) (f : Ref .fabric) (peer : PeerId) :
    Wired (m.fabricRemove f peer).1 where
  live g hg := by
    have hlive := Table.get_modify_keeps m.fabrics f g (f := fun x => x.disconnect peer)
      Fabric.live fun _ => rfl
    exact hlive.trans (h.live g ((Table.has_modify ..).mp hg))
  known g q e he := by
    by_cases hfg : f = g
    · subst hfg
      have hget : (m.fabricRemove f peer).1.fabrics.get f = (m.fabrics.get f).disconnect peer :=
        Table.get_modify_self_of_default rfl m.fabrics f
      rw [hget] at he
      exact h.known f q e (Fabric.endpoint?_disconnect he)
    · exact h.known g q e
        ((congrArg (Fabric.endpoint? · q) (Table.get_modify_of_ne _ hfg _)).symm.trans he)
  joined e he := (Table.has_modify ..).mpr (h.joined e he)
  lined := h.lined
  apart := h.apart
  seated := h.seated
  bound := h.bound

theorem lines_resources_of_has (h : Wired m) {e : Ref .endpoint} (he : m.endpoints.Has e)
    (f : Ref .fabric) (peer : PeerId) :
    (m.resources f peer).1.lines.get ((m.resources f peer).1.endpoints.get e).line =
      m.lines.get (m.endpoints.get e).line := by
  rw [endpoint_resources_of_has he]
  exact Table.get_push_of_has (h.lined e he) _

/-- A port that is made fits in. -/
theorem resources (h : Wired m) {f : Ref .fabric} (hf : m.fabrics.Has f) (peer : PeerId) :
    Wired (m.resources f peer).1 := by
  have hcases {e : Ref .endpoint} (he : (m.resources f peer).1.endpoints.Has e) :
      m.endpoints.Has e ∨ e = m.endpoints.fresh := has_endpoint_resources.mp he
  refine
    { live := fun g hg => ?_
      known := fun g q e he => ?_
      joined := fun e he => ?_
      lined := fun e he => ?_
      apart := fun e e' he he' hline => ?_
      seated := fun e he r hr => ?_
      bound := fun d hd => ?_ }
  · have hlive : ((m.resources f peer).1.fabrics.get g).live = (m.fabrics.get g).live :=
      Table.get_modify_keeps m.fabrics f g Fabric.live fun _ => rfl
    exact hlive.trans (h.live g ((Table.has_modify ..).mp hg))
  · by_cases hfg : f = g
    · subst hfg
      have hconnect : ((m.resources f peer).1.fabrics.get f).endpoint? q =
          if peer = q then some m.endpoints.fresh else (m.fabrics.get f).endpoint? q :=
        (congrArg (Fabric.endpoint? · q) (Table.get_modify_self hf _)).trans
          (Fabric.endpoint?_connect ..)
      rw [hconnect] at he
      split at he
      · obtain rfl := Option.some.inj he
        exact Table.has_push_fresh ..
      · exact Table.has_push_of_has (h.known f q e he) _
    · have hsame : (m.resources f peer).1.fabrics.get g = m.fabrics.get g :=
        Table.get_modify_of_ne _ hfg _
      rw [hsame] at he
      exact Table.has_push_of_has (h.known g q e he) _
  · refine (Table.has_modify ..).mpr ?_
    rcases hcases he with he | rfl
    · rw [endpoint_resources_of_has he]
      exact h.joined e he
    · have hfabric : ((m.resources f peer).1.endpoints.get m.endpoints.fresh).fabric = f :=
        congrArg Endpoint.fabric (Table.get_push_fresh m.endpoints _)
      rw [hfabric]
      exact hf
  · rcases hcases he with he | rfl
    · rw [endpoint_resources_of_has he]
      exact Table.has_push_of_has (h.lined e he) _
    · rw [line_resources_fresh]
      exact Table.has_push_fresh ..
  · rcases hcases he with he | rfl <;> rcases hcases he' with he' | rfl
    · rw [endpoint_resources_of_has he, endpoint_resources_of_has he'] at hline
      exact h.apart e e' he he' hline
    · rw [endpoint_resources_of_has he, line_resources_fresh] at hline
      exact absurd hline (Table.ne_fresh_of_has (h.lined e he))
    · rw [endpoint_resources_of_has he', line_resources_fresh] at hline
      exact absurd hline.symm (Table.ne_fresh_of_has (h.lined e' he'))
    · rfl
  · unfold onPort at hr
    rcases hcases he with he | rfl
    · rw [h.lines_resources_of_has he] at hr
      exact h.seated e he r hr
    · rw [lines_resources_fresh] at hr
      exact nomatch hr
  · obtain ⟨e, he, hreg⟩ := h.bound d hd
    exact ⟨e, Table.has_push_of_has he _, hreg⟩

end Wired

/-! ## Devices that come and go -/

/-- The machine after a device was attached to a port, with its registers and its line. -/
def seat (m : Machine) (e : Ref .endpoint) (window : Option (Ref .region)) : Machine :=
  (m.attach (some (.endpoint e)) window (m.endpoints.get e).line).1

section Seat

variable {m : Machine} {e e' : Ref .endpoint} (window : Option (Ref .region))

theorem has_endpoint_seat : (m.seat e window).endpoints.Has e' ↔ m.endpoints.Has e' :=
  Table.has_modify ..

theorem has_device_seat {d : Ref .device} :
    (m.seat e window).devices.Has d ↔ m.devices.Has d ∨ d = m.devices.fresh :=
  Table.has_push_iff ..

theorem line_seat (e' : Ref .endpoint) :
    ((m.seat e window).endpoints.get e').line = (m.endpoints.get e').line :=
  Table.get_modify_keeps _ _ _ Endpoint.line fun _ => rfl

theorem fabric_seat (e' : Ref .endpoint) :
    ((m.seat e window).endpoints.get e').fabric = (m.endpoints.get e').fabric :=
  Table.get_modify_keeps _ _ _ Endpoint.fabric fun _ => rfl

theorem device_seat_of_ne {d : Ref .device} (hd : d ≠ m.devices.fresh) :
    (m.seat e window).devices.get d = m.devices.get d := Table.get_push_of_ne hd _

theorem device_seat_of_has {d : Ref .device} (hd : m.devices.Has d) :
    (m.seat e window).devices.get d = m.devices.get d := Table.get_push_of_has hd _

theorem device_seat_fresh : (m.seat e window).devices.get m.devices.fresh =
    { registers := .endpoint e, window := window, enabled := true
      seat := some ⟨(m.endpoints.get e).line, (m.lines.get (m.endpoints.get e).line).nextToken⟩ } :=
  Table.get_push_fresh ..

/-- Whoever is attached is told after those that are there already. -/
theorem onPort_seat_self (hl : m.lines.Has (m.endpoints.get e).line) :
    (m.seat e window).onPort e = m.onPort e ++
      [⟨(m.lines.get (m.endpoints.get e).line).nextToken, .device m.devices.fresh⟩] := by
  unfold onPort
  rw [line_seat]
  exact congrArg Line.registrations (Table.get_modify_self hl _)

theorem onPort_seat_of_ne (hne : (m.endpoints.get e').line ≠ (m.endpoints.get e).line) :
    (m.seat e window).onPort e' = m.onPort e' := by
  unfold onPort
  rw [line_seat]
  exact congrArg Line.registrations (Table.get_modify_of_ne _ hne.symm _)

end Seat

section Detach

variable {m : Machine} {d d' : Ref .device} {s : Seat}

/-- To give a registration up changes its line only. -/
theorem line_release (m : Machine) (s : Seat) (l : Ref .line) : (m.release s).lines.get l =
    if s.line = l then (m.lines.get l).release s.token else m.lines.get l := by
  by_cases hline : s.line = l
  · subst hline
    rw [if_pos rfl]
    exact Table.get_modify_self_of_default rfl m.lines s.line
  · rw [if_neg hline]
    exact Table.get_modify_of_ne _ hline _

theorem detach_of_seat (hs : (m.devices.get d).seat = some s) :
    m.detach d = { m with
      lines := m.lines.modify s.line fun l => l.release s.token
      devices := m.devices.modify d fun x =>
        { x with
          seat := none
          enabled := false
          semaphore := x.semaphore.close
          event := x.event.close } } := by
  unfold detach
  rw [hs]
  rfl

theorem detach_of_none (hs : (m.devices.get d).seat = none) : m.detach d = m := by
  unfold detach
  rw [hs]

theorem endpoints_detach (hs : (m.devices.get d).seat = some s) :
    (m.detach d).endpoints = m.endpoints := by
  rw [detach_of_seat hs]

theorem device_detach_of_ne (hs : (m.devices.get d).seat = some s) (hne : d' ≠ d) :
    (m.detach d).devices.get d' = m.devices.get d' := by
  rw [detach_of_seat hs]
  exact Table.get_modify_of_ne _ hne.symm _

theorem device_detach_self (hs : (m.devices.get d).seat = some s) (hd : m.devices.Has d) :
    ((m.detach d).devices.get d).enabled = false ∧ ((m.detach d).devices.get d).seat = none := by
  rw [detach_of_seat hs, Table.get_modify_self hd]
  exact ⟨rfl, rfl⟩

/-- Whoever is told after a detachment was told before. -/
theorem sublist_onPort_detach (m : Machine) (d : Ref .device) (e : Ref .endpoint) :
    ((m.detach d).onPort e).Sublist (m.onPort e) := by
  cases hs : (m.devices.get d).seat with
  | none => exact (detach_of_none hs).symm ▸ List.Sublist.refl _
  | some s =>
      rw [detach_of_seat hs]
      show ((m.release s).lines.get (m.endpoints.get e).line).registrations.Sublist _
      rw [line_release]
      split
      · exact List.eraseP_sublist
      · exact List.Sublist.refl _

end Detach

namespace Wired

variable {m : Machine}

theorem seat (h : Wired m) {e : Ref .endpoint} (he : m.endpoints.Has e)
    (window : Option (Ref .region)) : Wired (m.seat e window) where
  live := h.live
  known f peer e' he' := (has_endpoint_seat window).mpr (h.known f peer e' he')
  joined e' he' := by
    rw [fabric_seat]
    exact h.joined e' ((has_endpoint_seat window).mp he')
  lined e' he' := by
    rw [line_seat]
    exact (Table.has_modify ..).mpr (h.lined e' ((has_endpoint_seat window).mp he'))
  apart e' e'' he' he'' hline := by
    rw [line_seat, line_seat] at hline
    exact h.apart e' e'' ((has_endpoint_seat window).mp he') ((has_endpoint_seat window).mp he'')
      hline
  seated e' he' r hr := by
    have hport := (has_endpoint_seat window).mp he'
    have hold (hr : r ∈ m.onPort e') : ∃ d, r.handler = .device d ∧
        (m.seat e window).devices.Has d ∧
        ((m.seat e window).devices.get d).registers = .endpoint e' := by
      obtain ⟨d, hd, hhas, hreg⟩ := h.seated e' hport r hr
      refine ⟨d, hd, (has_device_seat window).mpr (.inl hhas), ?_⟩
      rw [device_seat_of_has window hhas]
      exact hreg
    by_cases hline : (m.endpoints.get e').line = (m.endpoints.get e).line
    · obtain rfl := h.apart e' e hport he hline
      rw [onPort_seat_self window (h.lined e' hport)] at hr
      rcases List.mem_append.mp hr with hr | hr
      · exact hold hr
      · obtain rfl := List.mem_singleton.mp hr
        exact ⟨_, rfl, (has_device_seat window).mpr (.inr rfl),
          congrArg Device.registers (device_seat_fresh window)⟩
    · rw [onPort_seat_of_ne window hline] at hr
      exact hold hr
  bound d hd := by
    rcases (has_device_seat window).mp hd with hd | rfl
    · obtain ⟨e', he', hreg⟩ := h.bound d hd
      refine ⟨e', (has_endpoint_seat window).mpr he', ?_⟩
      rw [device_seat_of_has window hd]
      exact hreg
    · exact ⟨e, (has_endpoint_seat window).mpr he,
        congrArg Device.registers (device_seat_fresh window)⟩

theorem detach (h : Wired m) (d : Ref .device) : Wired (m.detach d) := by
  cases hs : (m.devices.get d).seat with
  | none =>
      rw [detach_of_none hs]
      exact h
  | some s =>
      have hsub (e : Ref .endpoint) := sublist_onPort_detach m d e
      rw [detach_of_seat hs] at hsub ⊢
      have hregisters (d' : Ref .device) := Table.get_modify_keeps m.devices d d'
        (f := fun x => { x with
          seat := none
          enabled := false
          semaphore := x.semaphore.close
          event := x.event.close }) Device.registers fun _ => rfl
      exact
        { live := h.live
          known := h.known
          joined := h.joined
          lined := fun e he => (Table.has_modify ..).mpr (h.lined e he)
          apart := h.apart
          seated := fun e he r hr => by
            obtain ⟨d', hd, hhas, hreg⟩ := h.seated e he r ((hsub e).subset hr)
            exact ⟨d', hd, (Table.has_modify ..).mpr hhas, (hregisters d').trans hreg⟩
          bound := fun d' hd => by
            obtain ⟨e, he, hreg⟩ := h.bound d' ((Table.has_modify ..).mp hd)
            exact ⟨e, he, (hregisters d').trans hreg⟩ }

end Wired

end Machine

end PeerBus
