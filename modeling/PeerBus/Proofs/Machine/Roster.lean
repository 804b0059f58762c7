/-
# `PeerBus.Proofs.Machine.Roster` — a line tells exactly the devices on its port

A device that is attached to a port has its berth on the line of that port and is enabled, and both
end with its detachment:

    attach    one more berth, behind the others
    detach    one less
    all else  as it was

So a line lists the devices that are attached to its port, in the order of their attachment
(`Roster.listener`).  A token has 64 bits; the number of acts so far bounds the tokens given out.
-/
import PeerBus.Proofs.Machine.Berths

namespace PeerBus

namespace Machine

/-- A device is attached to a port. -/
structure Sits (m : Machine) (d : Ref .device) (e : Ref .endpoint) : Prop where
  has : m.devices.Has d
  enabled : (m.devices.get d).enabled = true
  registers : (m.devices.get d).registers = .endpoint e

section Sits

variable {m : Machine} {d d' : Ref .device} {e e' : Ref .endpoint}

/-- Whoever is attached now was attached before, or has just been attached. -/
theorem Sits.of_seat {window : Option (Ref .region)} (h : (m.seat e window).Sits d e') :
    m.Sits d e' ∨ d = m.devices.fresh ∧ e' = e := by
  rcases (has_device_seat window).mp h.has with hd | rfl
  · have hdevice := device_seat_of_has (e := e) window hd
    exact .inl ⟨hd, hdevice ▸ h.enabled, hdevice ▸ h.registers⟩
  · have hreg := h.registers
    rw [device_seat_fresh] at hreg
    exact .inr ⟨rfl, (Registers.endpoint.inj hreg).symm⟩

/-- Whoever is attached after a detachment was attached before, and is another device. -/
theorem Sits.of_detach {s : Seat} (hs : (m.devices.get d).seat = some s) (hd : m.devices.Has d)
    (h : (m.detach d).Sits d' e) : d' ≠ d ∧ m.Sits d' e := by
  have hne : d' ≠ d := by
    rintro rfl
    exact absurd ((device_detach_self hs hd).1.symm.trans h.enabled) Bool.false_ne_true
  have hdevice := device_detach_of_ne hs hne
  have hhas := h.has
  rw [detach_of_seat hs] at hhas
  exact ⟨hne, (Table.has_modify ..).mp hhas, hdevice ▸ h.enabled, hdevice ▸ h.registers⟩

end Sits

/-- The line of every port tells the devices that are attached to it, in order; no line has given
out more than `n` tokens. -/
structure Roster (n : Nat) (m : Machine) : Prop where
  berthed : ∀ l, ∃ given, given ≤ n ∧ Berthed l given m
  enabled : ∀ d s, (m.devices.get d).seat = some s → (m.devices.get d).enabled = true
  seated : ∀ d e, m.Sits d e →
    ∃ token, (m.devices.get d).seat = some ⟨(m.endpoints.get e).line, token⟩

namespace Roster

variable {n : Nat} {m m' : Machine} {e : Ref .endpoint}

theorem empty : Roster 0 {} where
  berthed l := ⟨0, Nat.le_refl 0, .empty l⟩
  enabled d s h := by
    rw [Table.get_of_not_has (Nat.not_lt_zero _)] at h
    exact nomatch h
  seated d _ h := absurd h.has (Nat.not_lt_zero _)

theorem mono {n' : Nat} (h : Roster n m) (hle : n ≤ n') : Roster n' m where
  berthed l := by
    obtain ⟨given, hgiven, hl⟩ := h.berthed l
    exact ⟨given, Nat.le_trans hgiven hle, hl⟩
  enabled := h.enabled
  seated := h.seated

theorem of_same (h : Roster n m) (hs : SameSeats m m') : Roster n m' where
  berthed l := by
    obtain ⟨given, hgiven, hl⟩ := h.berthed l
    exact ⟨given, hgiven, hl.of_lines hs.lines (fun d => (hs.hasDevice d).mpr) hs.seat⟩
  enabled d s hd := by
    rw [hs.seat] at hd
    rw [hs.enabled]
    exact h.enabled d s hd
  seated d e hsits := by
    rw [hs.seat, hs.line]
    exact h.seated d e ⟨(hs.hasDevice d).mp hsits.has, (hs.enabled d).symm.trans hsits.enabled,
      (hs.registers d).symm.trans hsits.registers⟩

theorem addFabric (h : Roster n m) (size : UInt64) : Roster n (m.addFabric size).1 :=
  h.of_same ⟨rfl, fun _ => Iff.rfl, fun _ => rfl, fun _ => rfl, fun _ => Iff.rfl, fun _ => rfl,
    fun _ => rfl, fun _ => rfl⟩

theorem fabricRemove (h : Roster n m) (f : Ref .fabric) (peer : PeerId) :
    Roster n (m.fabricRemove f peer).1 :=
  h.of_same ⟨rfl, fun _ => Iff.rfl, fun _ => rfl, fun _ => rfl, fun _ => Iff.rfl, fun _ => rfl,
    fun _ => rfl, fun _ => rfl⟩

theorem resources (h : Roster n m) (hw : Wired m) (f : Ref .fabric) (peer : PeerId) :
    Roster n (m.resources f peer).1 where
  berthed l := by
    obtain ⟨given, hgiven, hl⟩ := h.berthed l
    exact ⟨given, hgiven, (hl.addLine (m.fabrics.get f).nextLine).of_lines rfl (fun _ hd => hd)
      fun _ => rfl⟩
  enabled := h.enabled
  seated d e hsits := by
    have hsits' : m.Sits d e := ⟨hsits.has, hsits.enabled, hsits.registers⟩
    rw [endpoint_resources_of_has (hw.hasPort hsits'.has hsits'.registers)]
    exact h.seated d e hsits'

/-- Attaching takes one token. -/
theorem seat_device (h : Roster n m) (hw : Wired m) (he : m.endpoints.Has e)
    (window : Option (Ref .region)) (hroom : n + 1 < UInt64.size) :
    Roster (n + 1) (m.seat e window) where
  berthed l := by
    obtain ⟨given, hgiven, hl⟩ := h.berthed l
    have hberth := hl.berth (hw.lined e he) (.endpoint e) window fun _ => by omega
    refine ⟨_, ?_, hberth.of_lines rfl (fun _ hd => hd) fun _ => rfl⟩
    split <;> omega
  enabled d s hd := by
    by_cases hnew : d = m.devices.fresh
    · subst hnew
      rw [device_seat_fresh]
    · rw [device_seat_of_ne window hnew] at hd ⊢
      exact h.enabled d s hd
  seated d e' hsits := by
    rw [line_seat]
    rcases hsits.of_seat with hsits | ⟨rfl, rfl⟩
    · rw [device_seat_of_has window hsits.has]
      exact h.seated d e' hsits
    · exact ⟨_, congrArg Device.seat (device_seat_fresh window)⟩

theorem detach (h : Roster n m) (d : Ref .device) : Roster n (m.detach d) := by
  cases hs : (m.devices.get d).seat with
  | none =>
      rw [detach_of_none hs]
      exact h
  | some s =>
      have hhas : m.devices.Has d := by
        by_contra hnot
        rw [Table.get_of_not_has hnot] at hs
        exact nomatch hs
      refine ⟨fun l => ?_, fun d' s' hd' => ?_, fun d' e hsits => ?_⟩
      · obtain ⟨given, hgiven, hl⟩ := h.berthed l
        exact ⟨given, hgiven, hl.detach d⟩
      · by_cases hne : d' = d
        · subst hne
          rw [(device_detach_self hs hhas).2] at hd'
          exact nomatch hd'
        · rw [device_detach_of_ne hs hne] at hd' ⊢
          exact h.enabled d' s' hd'
      · obtain ⟨hne, hsits'⟩ := hsits.of_detach hs hhas
        rw [endpoints_detach hs, device_detach_of_ne hs hne]
        exact h.seated d' e hsits'

/-- A device that sits on a port is told of its interrupts. -/
theorem present (h : Roster n m) {d : Ref .device} (hsits : m.Sits d e) :
    ∃ r ∈ m.onPort e, r.handler = .device d := by
  obtain ⟨token, hseat⟩ := h.seated d e hsits
  obtain ⟨given, -, hl⟩ := h.berthed (m.endpoints.get e).line
  exact ⟨_, hl.present d token hseat, rfl⟩

/-- Whoever is told of the interrupts of a port sits on it. -/
theorem sits (h : Roster n m) (hw : Wired m) (he : m.endpoints.Has e) {r : Registration}
    (hr : r ∈ m.onPort e) : ∃ d, r.handler = .device d ∧ m.Sits d e := by
  obtain ⟨d, hd, hhas, hreg⟩ := hw.seated e he r hr
  obtain ⟨given, -, hl⟩ := h.berthed (m.endpoints.get e).line
  exact ⟨d, hd, hhas, h.enabled d _ (hl.seat r hr d hd).2, hreg⟩

end Roster

/-- The first to be told is the device that was attached first. -/
theorem Roster.listener {n : Nat} {m : Machine} (h : Roster n m) (hw : Wired m)
    {e : Ref .endpoint} (he : m.endpoints.Has e) :
    (∀ d, m.listener? e = some d ↔ m.Sits d e ∧ ∀ d', m.Sits d' e → d.index ≤ d'.index) ∧
    (m.listener? e = none ↔ ∀ d, ¬m.Sits d e) := by
  obtain ⟨given, -, hl⟩ := h.berthed (m.endpoints.get e).line
  have hordered : (m.onPort e).Pairwise Registration.Before := hl.ordered
  cases hport : m.onPort e with
  | nil =>
      have hfound : m.listener? e = none := by
        rw [listener?, hport]
        rfl
      have hnone (d : Ref .device) : ¬m.Sits d e := by
        intro hd
        obtain ⟨r, hr, -⟩ := h.present hd
        rw [hport] at hr
        exact nomatch hr
      rw [hfound]
      exact ⟨fun d => ⟨nofun, fun hd => absurd hd.1 (hnone d)⟩, ⟨fun _ => hnone, fun _ => rfl⟩⟩
  | cons r rest =>
      rw [hport] at hordered
      obtain ⟨hfirst, -⟩ := List.pairwise_cons.mp hordered
      obtain ⟨d₀, hd₀, hsits₀⟩ := h.sits hw he (hport ▸ List.mem_cons_self)
      have hfound : m.listener? e = some d₀ := by
        rw [listener?, hport]
        simp [firstOf, hd₀, hsits₀.enabled]
      have hleast (d : Ref .device) (hd : m.Sits d e) : d₀.index ≤ d.index := by
        obtain ⟨s, hs, hsd⟩ := h.present hd
        rw [hport] at hs
        rcases List.mem_cons.mp hs with rfl | hs
        · obtain rfl := Handler.device.inj (hd₀.symm.trans hsd)
          exact Nat.le_refl _
        · exact Nat.le_of_lt (hfirst s hs d₀ d hd₀ hsd)
      rw [hfound]
      refine ⟨fun d => ⟨?_, fun hd => ?_⟩, ⟨nofun, fun hnone => absurd hsits₀ (hnone d₀)⟩⟩
      · rintro ⟨rfl⟩
        exact ⟨hsits₀, hleast⟩
      · have hindex := Nat.le_antisymm (hleast d hd.1) (hd.2 d₀ hsits₀)
        obtain ⟨i⟩ := d₀
        obtain ⟨j⟩ := d
        exact congrArg (some ∘ Ref.mk) hindex

end Machine

end PeerBus
