/-
# `PeerBus.Proofs.Machine.Berths` — every device that stands has one place on one line

Devices are registered on a line by tokens, and leave it by the token that they hold.  As long as
the line has tokens left, its registrations differ in them (`Line.Orderly`); so whoever leaves takes
away his own registration, and the devices and the registrations of a line belong together one by
one (`Machine.Berthed`):

    a registration of a device        is the one that the device says it has
    a device that says it has one     has it
    an earlier registration           is that of a device that was attached earlier

So a device is registered once on the line of its attachment and nowhere else until it is detached,
and nowhere from then on (`Berthed.dispatchers_of_seat`, `Berthed.dispatchers_of_not`).
-/
import PeerBus.Proofs.Line
import PeerBus.Proofs.Machine.Wiring

namespace PeerBus

/-- A registration stands before another: its device was attached before the other's. -/
def Registration.Before (r s : Registration) : Prop :=
  ∀ d d', r.handler = .device d → s.handler = .device d' → d.index < d'.index

/-- Where devices stand in the order of their attachment, none of them stands twice. -/
theorem Registration.countP_device_le {l : List Registration} (h : l.Pairwise Before)
    (d : Ref .device) : l.countP (fun r => r.handler = .device d) ≤ 1 := by
  induction l with
  | nil => exact Nat.zero_le 1
  | cons r l ih =>
      obtain ⟨hhead, htail⟩ := List.pairwise_cons.mp h
      by_cases hr : r.handler = .device d
      · have hrest : l.countP (fun r => r.handler = .device d) = 0 := by
          refine List.countP_eq_zero.mpr fun s hs hsd => ?_
          exact Nat.lt_irrefl _ (hhead s hs d d hr (of_decide_eq_true hsd))
        have hone : (r :: l).countP (fun r => r.handler = .device d) = 1 := by
          rw [List.countP_cons_of_pos (by simpa using hr), hrest]
        exact Nat.le_of_eq hone
      · rw [List.countP_cons_of_neg (by simpa using hr)]
        exact ih htail

namespace Machine

/-- How often the dispatcher of a device is registered on a line. -/
def dispatchers (m : Machine) (d : Ref .device) (line : Ref .line) : Nat :=
  (m.onLine line).countP fun r => r.handler = .device d

/-- The machine in which a device has been attached, but lets no interrupt through yet. -/
def berth (m : Machine) (registers : Registers) (window : Option (Ref .region))
    (line : Ref .line) : Machine :=
  { m with
    lines := m.lines.modify line fun l => l.request (.device m.devices.fresh)
    devices := m.devices.push
      { registers := registers, window := window, enabled := true
        seat := some ⟨line, (m.lines.get line).nextToken⟩ } }

theorem attach_some (m : Machine) (registers : Registers) (window : Option (Ref .region))
    (line : Ref .line) : m.attach (some registers) window line =
      ((m.berth registers window line).writeRegister registers .intrMask Register.maskAll,
        .ok m.devices.fresh) :=
  rfl

variable {given : Nat} {m m' : Machine} {line l : Ref .line}

/-- A new line is like one that is not there. -/
theorem line_addLine (m : Machine) (number : UInt32) (l : Ref .line) :
    ((m.addLine number).1.lines.get l).nextToken = (m.lines.get l).nextToken ∧
      (m.addLine number).1.onLine l = m.onLine l := by
  unfold onLine
  by_cases hl : l = m.lines.fresh
  · subst hl
    rw [show (m.addLine number).1.lines.get m.lines.fresh = { number := number } from
      Table.get_push_fresh .., Table.get_of_not_has m.lines.not_has_fresh]
    exact ⟨rfl, rfl⟩
  · rw [show (m.addLine number).1.lines.get l = m.lines.get l from Table.get_push_of_ne hl _]
    exact ⟨rfl, rfl⟩

theorem line_request (hl : m.lines.Has line) (handler : Handler) (l : Ref .line) :
    (m.request line handler).1.lines.get l =
      if line = l then (m.lines.get l).request handler else m.lines.get l := by
  by_cases hline : line = l
  · subst hline
    rw [if_pos rfl]
    exact Table.get_modify_self hl _
  · rw [if_neg hline]
    exact Table.get_modify_of_ne _ hline _

theorem mem_onLine_request (hl : m.lines.Has line) (handler : Handler) (r : Registration) :
    r ∈ (m.request line handler).1.onLine l ↔
      r ∈ m.onLine l ∨ line = l ∧ r = ⟨(m.lines.get line).nextToken, handler⟩ := by
  unfold onLine
  rw [line_request hl]
  by_cases hline : line = l
  · subst hline
    simp [Line.request]
  · simp [hline]

/-- Whoever gives a registration up takes away his own, and no other. -/
theorem mem_onLine_release (h : (m.lines.get l).Orderly given) (s : Seat) (r : Registration) :
    r ∈ (m.release s).onLine l ↔ r ∈ m.onLine l ∧ ¬(s.line = l ∧ r.token = s.token) := by
  unfold onLine
  rw [line_release]
  by_cases hline : s.line = l
  · rw [if_pos hline, h.mem_release]
    simp [hline]
  · simp [hline]

/-! ## Berths -/

/-- The devices and the registrations of a line belong together one by one; so many tokens have been
given out. -/
structure Berthed (l : Ref .line) (given : Nat) (m : Machine) : Prop where
  orderly : (m.lines.get l).Orderly given
  ordered : (m.onLine l).Pairwise Registration.Before
  seat : ∀ r ∈ m.onLine l, ∀ d, r.handler = .device d →
    m.devices.Has d ∧ (m.devices.get d).seat = some ⟨l, r.token⟩
  present : ∀ d token, (m.devices.get d).seat = some ⟨l, token⟩ →
    ⟨token, .device d⟩ ∈ m.onLine l

namespace Berthed

theorem empty (l : Ref .line) : Berthed l 0 {} := by
  have hline : ({} : Machine).lines.get l = default := Table.get_of_not_has (Nat.not_lt_zero _)
  have hnobody : ({} : Machine).onLine l = [] := congrArg Line.registrations hline
  refine ⟨?_, ?_, fun r hr => ?_, fun d token hs => ?_⟩
  · rw [hline]
    exact .of_empty rfl rfl
  · rw [hnobody]
    exact .nil
  · rw [hnobody] at hr
    exact absurd hr List.not_mem_nil
  · rw [Table.get_of_not_has (Nat.not_lt_zero _)] at hs
    exact absurd hs.symm (Option.some_ne_none _)

/-- Only registrations and seats matter. -/
theorem of_same (h : Berthed l given m)
    (hnext : (m'.lines.get l).nextToken = (m.lines.get l).nextToken)
    (hline : m'.onLine l = m.onLine l) (hhas : ∀ d, m.devices.Has d → m'.devices.Has d)
    (hseat : ∀ d, (m'.devices.get d).seat = (m.devices.get d).seat) : Berthed l given m' := by
  refine ⟨h.orderly.of_same hnext hline, ?_, fun r hr d hd => ?_, fun d token hd => ?_⟩
  · rw [hline]
    exact h.ordered
  · rw [hline] at hr
    obtain ⟨hd, hs⟩ := h.seat r hr d hd
    exact ⟨hhas d hd, (hseat d).trans hs⟩
  · rw [hline]
    exact h.present d token ((hseat d).symm.trans hd)

theorem of_lines (h : Berthed l given m) (hlines : m'.lines = m.lines)
    (hhas : ∀ d, m.devices.Has d → m'.devices.Has d)
    (hseat : ∀ d, (m'.devices.get d).seat = (m.devices.get d).seat) : Berthed l given m' :=
  h.of_same (by rw [hlines]) (by rw [onLine, onLine, hlines]) hhas hseat

theorem addLine (h : Berthed l given m) (number : UInt32) : Berthed l given (m.addLine number).1 :=
  h.of_same (m.line_addLine number l).1 (m.line_addLine number l).2 (fun _ hd => hd) fun _ => rfl

/-- A line gives out a token, to a newcomer if to a device. -/
theorem request (h : Berthed l given m) (hl : m.lines.Has line) (handler : Handler)
    (devices : Table .device Device)
    (hold : ∀ d, handler ≠ .device d → (m.devices.Has d → devices.Has d) ∧
      (devices.get d).seat = (m.devices.get d).seat)
    (hnew : ∀ d, handler = .device d → d = m.devices.fresh ∧ devices.Has d ∧
      (devices.get d).seat = some ⟨line, (m.lines.get line).nextToken⟩)
    (hroom : line = l → given + 1 < UInt64.size) :
    Berthed l (given + if line = l then 1 else 0)
      { (m.request line handler).1 with devices := devices } := by
  have hmem (r : Registration) := mem_onLine_request (l := l) hl handler r
  have hget := line_request hl handler l
  have hother {r : Registration} (hr : r ∈ m.onLine l) {d : Ref .device}
      (hd : r.handler = .device d) : handler ≠ .device d := fun hsame =>
    Table.ne_fresh_of_has (h.seat r hr d hd).1 (hnew d hsame).1
  refine ⟨?_, ?_, fun r hr d hd => ?_, fun d token hd => ?_⟩
  · show ((m.request line handler).1.lines.get l).Orderly _
    rw [hget]
    by_cases hline : line = l
    · rw [if_pos hline, if_pos hline]
      exact h.orderly.request (hroom hline) handler
    · rw [if_neg hline, if_neg hline]
      exact h.orderly
  · show ((m.request line handler).1.lines.get l).registrations.Pairwise _
    rw [hget]
    by_cases hline : line = l
    · rw [if_pos hline]
      refine List.pairwise_append.mpr
        ⟨h.ordered, List.pairwise_singleton .., fun r hr s hs d d' hd hd' => ?_⟩
      obtain rfl := List.mem_singleton.mp hs
      rw [(hnew d' hd').1]
      exact (h.seat r hr d hd).1
    · rw [if_neg hline]
      exact h.ordered
  · rcases (hmem r).mp hr with hr | ⟨rfl, rfl⟩
    · obtain ⟨hhas, hseat⟩ := h.seat r hr d hd
      obtain ⟨hhas', hseat'⟩ := hold d (hother hr hd)
      exact ⟨hhas' hhas, hseat'.trans hseat⟩
    · exact (hnew d hd).2
  · refine (hmem _).mpr ?_
    by_cases hsame : handler = .device d
    · obtain ⟨rfl, rfl⟩ := Seat.mk.inj (Option.some.inj ((hnew d hsame).2.2.symm.trans hd))
      exact .inr ⟨rfl, by rw [hsame]⟩
    · exact .inl (h.present d token ((hold d hsame).2.symm.trans hd))

/-- A registration is given up, by its device if it is that of a device. -/
theorem release (h : Berthed l given m) {s : Seat} (devices : Table .device Device)
    (hhas : ∀ d, m.devices.Has d → devices.Has d)
    (hseat : ∀ d, (devices.get d).seat = (m.devices.get d).seat ∨
      (m.devices.get d).seat = some s ∧ (devices.get d).seat = none)
    (hgone : s.line = l → ∀ d, (m.devices.get d).seat = some s → (devices.get d).seat = none) :
    Berthed l given { m.release s with devices := devices } := by
  have hmem (r : Registration) := mem_onLine_release h.orderly s r
  have hget := m.line_release s l
  refine ⟨?_, ?_, fun r hr d hd => ?_, fun d token hd => ?_⟩
  · show ((m.release s).lines.get l).Orderly given
    rw [hget]
    split
    · exact h.orderly.release s.token
    · exact h.orderly
  · show ((m.release s).lines.get l).registrations.Pairwise _
    rw [hget]
    split
    · exact h.ordered.sublist List.eraseP_sublist
    · exact h.ordered
  · obtain ⟨hr, hkept⟩ := (hmem r).mp hr
    obtain ⟨hd, hold⟩ := h.seat r hr d hd
    refine ⟨hhas d hd, ?_⟩
    rcases hseat d with hsame | ⟨hs, -⟩
    · exact hsame.trans hold
    · have hboth := Option.some.inj (hs.symm.trans hold)
      exact absurd ⟨congrArg Seat.line hboth, (congrArg Seat.token hboth).symm⟩ hkept
  · have hold : (m.devices.get d).seat = some ⟨l, token⟩ := by
      rcases hseat d with hsame | ⟨-, hnone⟩
      · exact hsame.symm.trans hd
      · exact absurd (hd.symm.trans hnone) (Option.some_ne_none _)
    refine (hmem _).mpr ⟨h.present d token hold, ?_⟩
    rintro ⟨rfl, rfl⟩
    exact absurd (hd.symm.trans (hgone rfl d hold)) (Option.some_ne_none _)

theorem berth (h : Berthed l given m) (hl : m.lines.Has line) (registers : Registers)
    (window : Option (Ref .region)) (hroom : line = l → given + 1 < UInt64.size) :
    Berthed l (given + if line = l then 1 else 0) (m.berth registers window line) := by
  refine h.request hl _ _ (fun d hne => ?_) (fun d hd => ?_) hroom
  · have hd : d ≠ m.devices.fresh := fun hd => hne (congrArg Handler.device hd.symm)
    exact ⟨fun hhas => Table.has_push_of_has hhas _,
      congrArg Device.seat (Table.get_push_of_ne hd _)⟩
  · obtain rfl := Handler.device.inj hd
    exact ⟨rfl, Table.has_push_fresh .., congrArg Device.seat (Table.get_push_fresh ..)⟩

/-- Two devices do not have one seat. -/
theorem eq_of_seat (h : Berthed l given m) {d d' : Ref .device} {token : UInt64}
    (hd : (m.devices.get d).seat = some ⟨l, token⟩)
    (hd' : (m.devices.get d').seat = some ⟨l, token⟩) : d = d' := by
  have hsame := Registration.eq_of_token h.orderly.increasing (h.present d token hd)
    (h.present d' token hd') rfl
  exact Handler.device.inj (congrArg Registration.handler hsame)

theorem detach (h : Berthed l given m) (d : Ref .device) : Berthed l given (m.detach d) := by
  cases hs : (m.devices.get d).seat with
  | none =>
      rw [detach_of_none hs]
      exact h
  | some s =>
      have hd : m.devices.Has d := by
        by_contra hnot
        rw [Table.get_of_not_has hnot] at hs
        exact absurd hs.symm (Option.some_ne_none _)
      have hself : ((m.detach d).devices.get d).seat = none := (device_detach_self hs hd).2
      have hdevices : m.detach d = { m.release s with devices := (m.detach d).devices } := by
        rw [detach_of_seat hs]
        rfl
      rw [hdevices]
      refine h.release _ (fun d' hd' => ?_) (fun d' => ?_) fun hline d' hd' => ?_
      · rw [detach_of_seat hs]
        exact (Table.has_modify ..).mpr hd'
      · by_cases hdd : d' = d
        · exact .inr ⟨hdd ▸ hs, hdd ▸ hself⟩
        · exact .inl (congrArg Device.seat (device_detach_of_ne hs hdd))
      · subst hline
        rw [h.eq_of_seat hd' hs]
        exact hself

variable {d : Ref .device}

theorem dispatchers_of_seat (h : Berthed l given m) {token : UInt64}
    (hd : (m.devices.get d).seat = some ⟨l, token⟩) : m.dispatchers d l = 1 := by
  have hpos : 0 < m.dispatchers d l :=
    List.countP_pos_iff.mpr ⟨_, h.present d token hd, decide_eq_true rfl⟩
  exact Nat.le_antisymm (Registration.countP_device_le h.ordered d) hpos

theorem dispatchers_of_not (h : Berthed l given m)
    (hd : ∀ token, (m.devices.get d).seat ≠ some ⟨l, token⟩) : m.dispatchers d l = 0 :=
  List.countP_eq_zero.mpr fun r hr hrd => hd r.token (h.seat r hr d (of_decide_eq_true hrd)).2

end Berthed

end Machine

end PeerBus
