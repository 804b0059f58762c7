/-
# `PeerBus.Proofs.Machine.Deeds` — everything that can happen to lines and devices

A `Deed` is one call, or one look of a call that waits, by whoever may make it:

    beside             makes or changes what is neither a line nor a device
    line               makes a line
    request, release   other handlers come and go on the lines
    attach, detach     devices come and go; to drop a device is to detach it
    raise, deliver, write   interrupts, from a line, from an endpoint, or through a doorbell
    use                uses of handles

A port of a fabric is made by `line` and `beside`, and to attach a device to a fabric is to make a
port and to `attach`.  Nothing is assumed of how many devices share a line or a register block.

**What is proved.**  No deed but its own detachment changes the standing of a device
(`Next.standing`), and a device that was detached is not changed at all but by uses of its handle
(`Next.untouched`).  A line that has tokens left keeps its devices and registrations together,
whatever is done (`berthed_of_run`).
-/
import PeerBus.Proofs.Machine.Standing

namespace PeerBus

inductive Deed where
  | beside
  | line (number : UInt32)
  | request (line : Ref .line) (probe : Ref .probe)
  | release (seat : Seat)
  | attach (registers : Option Registers) (window : Option (Ref .region)) (line : Ref .line)
  | detach (device : Ref .device)
  | raise (line : Ref .line)
  | deliver (endpoint : Ref .endpoint) (status : UInt32) (force : Bool)
  | write (registers : Registers) (register : Register) (value : UInt32)
  | use (device : Ref .device) (use : Use)

/-- Whether a deed makes or unmakes a line, a registration or a device. -/
def Deed.builds : Deed → Bool
  | .line _ | .request _ _ | .release _ | .attach _ _ _ | .detach _ => true
  | .beside | .raise _ | .deliver _ _ _ | .write _ _ _ | .use _ _ => false

/-- The line that gives out a token. -/
def Deed.giver : Deed → Option (Ref .line)
  | .request l _ | .attach (some _) _ l => some l
  | .attach none _ _ | .beside | .line _ | .release _ | .detach _ | .raise _ | .deliver _ _ _
  | .write _ _ _ | .use _ _ => none

namespace Machine

/-- What a deed makes of a machine.  Lines are there before anybody is registered on them, and what
a device has registered is given up by its detachment only. -/
def Next (m : Machine) (a : Deed) (m' : Machine) : Prop :=
  match a with
  | .beside => m'.lines = m.lines ∧ m'.devices = m.devices
  | .line number => m' = (m.addLine number).1
  | .request line probe => m.lines.Has line ∧ m' = (m.request line (.probe probe)).1
  | .release seat =>
      (∀ r ∈ m.onLine seat.line, r.token = seat.token → ∀ d, r.handler ≠ .device d) ∧
        m' = m.release seat
  | .attach registers window line =>
      m.lines.Has line ∧ m' = (m.attach registers window line).1
  | .detach d => m' = m.detach d
  | .raise line => m' = (m.raise line).1
  | .deliver endpoint status force => m' = (m.deliver endpoint status force).1
  | .write registers register value => m' = m.writeRegister registers register value
  | .use d u => m' = m.use d u

variable {m m' : Machine} {a : Deed} {d : Ref .device}

theorem has_detach (hd : m.devices.Has d) (d' : Ref .device) : (m.detach d').devices.Has d := by
  cases hs : (m.devices.get d').seat with
  | none =>
      rw [detach_of_none hs]
      exact hd
  | some s =>
      rw [detach_of_seat hs]
      exact (Table.has_modify ..).mpr hd

/-- Other devices are left alone. -/
theorem get_detach_of_ne (m : Machine) {d' : Ref .device} (hne : d ≠ d') :
    (m.detach d').devices.get d = m.devices.get d := by
  cases hs : (m.devices.get d').seat with
  | none => rw [detach_of_none hs]
  | some s => exact device_detach_of_ne hs hne

/-- To let interrupts through changes no standing. -/
theorem sameStanding_attach (m : Machine) (registers : Registers) (window : Option (Ref .region))
    (line : Ref .line) :
    SameStanding (m.berth registers window line) (m.attach (some registers) window line).1 := by
  rw [attach_some]
  exact (passive_sameStanding _).writeRegister (.refl _) registers .intrMask _

theorem Next.sameStanding (h : Next m a m') (ha : a.builds = false) : SameStanding m m' := by
  cases a with
  | line | request | release | attach | detach => exact nomatch ha
  | beside => exact (passive_sameStanding m).beside (.refl m) h.1 h.2
  | raise line =>
      obtain rfl := h
      exact (passive_sameStanding m).raise (.refl m) line
  | deliver endpoint status force =>
      obtain rfl := h
      exact (passive_sameStanding m).deliver (.refl m) endpoint status force
  | write registers register value =>
      obtain rfl := h
      exact (passive_sameStanding m).writeRegister (.refl m) registers register value
  | use d u =>
      obtain rfl := h
      exact (tame_sameStanding m d).use (.refl m) u

/-- No deed changes the standing of a device, its own detachment apart. -/
theorem Next.standing (h : Next m a m') (hd : m.devices.Has d) (hne : a ≠ .detach d) :
    m'.devices.Has d ∧ (m'.devices.get d).standing = (m.devices.get d).standing := by
  have hsame (hs : SameStanding m m') :
      m'.devices.Has d ∧ (m'.devices.get d).standing = (m.devices.get d).standing :=
    ⟨(hs.hasDevice d).mpr hd, hs.standing d⟩
  cases a with
  | beside | raise | deliver | write | use => exact hsame (h.sameStanding rfl)
  | line =>
      obtain rfl := h
      exact ⟨hd, rfl⟩
  | request =>
      obtain ⟨-, rfl⟩ := h
      exact ⟨hd, rfl⟩
  | release =>
      obtain ⟨-, rfl⟩ := h
      exact ⟨hd, rfl⟩
  | attach registers window line =>
      obtain ⟨-, rfl⟩ := h
      cases registers with
      | none => exact ⟨hd, rfl⟩
      | some registers =>
          have hs := sameStanding_attach m registers window line
          refine ⟨(hs.hasDevice d).mpr (Table.has_push_of_has hd _), (hs.standing d).trans ?_⟩
          exact congrArg Device.standing (Table.get_push_of_has hd _)
  | detach d' =>
      obtain rfl := h
      have hother : d ≠ d' := by
        rintro rfl
        exact hne rfl
      exact ⟨has_detach hd d', congrArg Device.standing (get_detach_of_ne m hother)⟩

theorem standing_detach {seat : Seat} (hd : m.devices.Has d)
    (h : (m.devices.get d).standing = .attached seat) :
    ((m.detach d).devices.get d).standing = .detached := by
  have hseat : (m.devices.get d).seat = some seat := congrArg Standing.seat h
  rw [detach_of_seat hseat, Table.get_modify_self hd]
  rfl

theorem detach_of_detached (h : (m.devices.get d).standing = .detached) : m.detach d = m :=
  detach_of_none (congrArg Standing.seat h)

theorem Next.has (h : Next m a m') (hd : m.devices.Has d) : m'.devices.Has d := by
  by_cases ha : a = .detach d
  · subst ha
    obtain rfl := h
    exact has_detach hd d
  · exact (h.standing hd ha).1

/-- Nothing revives a device. -/
theorem Next.detached (h : Next m a m') (hd : m.devices.Has d)
    (hs : (m.devices.get d).standing = .detached) : (m'.devices.get d).standing = .detached := by
  by_cases ha : a = .detach d
  · subst ha
    obtain rfl := h
    rw [detach_of_detached hs]
    exact hs
  · exact (h.standing hd ha).2.trans hs

/-- Only uses of its handle reach a device that was detached. -/
theorem Next.untouched (h : Next m a m') (hd : m.devices.Has d)
    (hs : (m.devices.get d).standing = .detached) (hne : ∀ u, a ≠ .use d u) :
    m'.devices.get d = m.devices.get d := by
  have hdisabled : (m.devices.get d).enabled = false := congrArg Standing.enabled hs
  have hpassive := passive_untouched hdisabled d
  cases a with
  | beside => rw [h.2]
  | line =>
      obtain rfl := h
      rfl
  | request =>
      obtain ⟨-, rfl⟩ := h
      rfl
  | release =>
      obtain ⟨-, rfl⟩ := h
      rfl
  | attach registers window line =>
      obtain ⟨-, rfl⟩ := h
      cases registers with
      | none => rfl
      | some registers =>
          have hberth : (m.berth registers window line).devices.get d = m.devices.get d :=
            Table.get_push_of_has hd _
          exact hpassive.writeRegister hberth registers .intrMask _
  | detach d' =>
      obtain rfl := h
      by_cases hdd : d = d'
      · subst hdd
        rw [detach_of_detached hs]
      · exact get_detach_of_ne m hdd
  | raise line =>
      obtain rfl := h
      exact hpassive.raise rfl line
  | deliver endpoint status force =>
      obtain rfl := h
      exact hpassive.deliver rfl endpoint status force
  | write registers register value =>
      obtain rfl := h
      exact hpassive.writeRegister rfl registers register value
  | use d' u =>
      obtain rfl := h
      have hdd : d' ≠ d := by
        rintro rfl
        exact hne u rfl
      exact (tame_untouched hdisabled hdd).use rfl u

/-! ## Berths over a run -/

/-- The number of tokens that a line gives out. -/
def tokens (l : Ref .line) (acts : List Deed) : Nat := acts.countP fun a => a.giver = some l

theorem Berthed.of_sameStanding {l : Ref .line} {given : Nat} (h : Berthed l given m)
    (hs : SameStanding m m') : Berthed l given m' :=
  h.of_lines hs.lines (fun d => (hs.hasDevice d).mpr) fun d =>
    congrArg Standing.seat (hs.standing d)

/-- What a deed does to one line. -/
theorem Berthed.next {l : Ref .line} {given : Nat} (h : Berthed l given m) (hnext : Next m a m')
    (hroom : a.giver = some l → given + 1 < UInt64.size) :
    Berthed l (given + if a.giver = some l then 1 else 0) m' := by
  cases a with
  | beside | raise | deliver | write | use => exact h.of_sameStanding (hnext.sameStanding rfl)
  | line number =>
      obtain rfl := hnext
      exact h.addLine number
  | request line probe =>
      obtain ⟨hl, rfl⟩ := hnext
      have hgiven := h.request hl (.probe probe) m.devices
        (fun d _ => ⟨id, rfl⟩) (fun d hd => absurd hd Handler.noConfusion)
        fun hline => hroom (congrArg some hline)
      simp only [Deed.giver, Option.some.injEq]
      exact hgiven
  | release seat =>
      obtain ⟨hnot, rfl⟩ := hnext
      refine h.release m.devices (fun d hd => hd) (fun d => .inl rfl) ?_
      rintro rfl d hd
      exact absurd rfl (hnot _ (h.present d seat.token hd) rfl d)
  | attach registers window line =>
      obtain ⟨hl, rfl⟩ := hnext
      cases registers with
      | none => exact h
      | some registers =>
          have hberth := h.berth hl registers window fun hline => hroom (congrArg some hline)
          have hattach := hberth.of_sameStanding (sameStanding_attach m registers window line)
          simp only [Deed.giver, Option.some.injEq]
          exact hattach
  | detach d =>
      obtain rfl := hnext
      exact h.detach d

/-- As long as a line has tokens left, devices and registrations belong together on it. -/
theorem berthed_of_run {acts : List Deed} (h : Run Next {} acts m) (l : Ref .line)
    (hroom : tokens l acts < UInt64.size) : Berthed l (tokens l acts) m := by
  induction h with
  | nil => exact .empty l
  | @snoc acts m m' a _ hs ih =>
      have htokens : tokens l (acts ++ [a]) =
          tokens l acts + if a.giver = some l then 1 else 0 := by
        simp [tokens, List.countP_singleton]
      rw [htokens] at hroom ⊢
      refine (ih (by omega)).next hs fun hgiver => ?_
      rw [if_pos hgiver] at hroom
      exact hroom

end Machine

end PeerBus
