/-
# `PeerBus.Proofs.Machine.SharedLine` — one interrupt and many devices

A line tells its devices of an interrupt in the order of their registration, and each of them reads
the status of its own register block.  Devices may share a block, and then the kind of the block
decides what those behind the first one read:

    a recorder, plain words     keep their status         every device reads the same
    a port                      is cleared by a reading   the others read zero

`Machine.readings` is what the devices of a line read, computed from the blocks as they were before
the interrupt.  An interrupt changes every device by its own readings and nothing else
(`Machine.Heard`), and somebody answers for it if one of the readings is neither zero nor all ones.
Over a run of interrupts and of changes to the blocks the readings of a device add up
(`Machine.devices_of_beats`).
-/
import PeerBus.Proofs.Machine.Delivery
import PeerBus.Proofs.Run

namespace PeerBus

/-- Whether a reading of the status clears it. -/
def Registers.clears : Registers → Bool
  | .endpoint _ => true
  | .recorder _ | .words _ => false

/-! ## Several readings by one device -/

namespace Device

/-- A device that has read some statuses, one after the other. -/
def hears (statuses : List UInt32) (d : Device) : Device :=
  statuses.foldl (fun d status => d.heard status) d

theorem hears_append (first later : List UInt32) (d : Device) :
    d.hears (first ++ later) = (d.hears first).hears later :=
  List.foldl_append

/-- Every low byte of 7 is one more unit, as long as there is room, and a low byte of 4 sets the
flag. -/
theorem pending_hears (statuses : List UInt32) (d : Device) :
    (d.hears statuses).pending.semaphore.toNat =
      min (d.pending.semaphore.toNat + statuses.countP (fun s => s.toUInt8 = 7))
        (UInt32.size - 1) ∧
    (d.hears statuses).pending.event =
      (d.pending.event || statuses.any fun s => s.toUInt8 = 4) := by
  induction statuses generalizing d with
  | nil =>
      have hfits : d.pending.semaphore.toNat ≤ UInt32.size - 1 :=
        Nat.le_pred_of_lt d.pending.semaphore.toNat_lt
      exact ⟨(Nat.min_eq_left hfits).symm, (Bool.or_false _).symm⟩
  | cons s statuses ih =>
      obtain ⟨hcount, hflag⟩ := ih (d.heard s)
      obtain ⟨hone, hset⟩ := @pending_heard s d
      refine ⟨hcount.trans ?_, hflag.trans ?_⟩
      · rw [hone, List.countP_cons]
        generalize UInt32.size - 1 = most
        simp only [decide_eq_true_eq]
        split <;> omega
      · rw [hset, List.any_cons, Bool.or_assoc]

/-- Without a low byte of 7 the semaphore, with whoever waits for it, is as it was. -/
theorem semaphore_hears {statuses : List UInt32} (hnone : ∀ s ∈ statuses, s.toUInt8 ≠ 7)
    (d : Device) : (d.hears statuses).semaphore = d.semaphore := by
  induction statuses generalizing d with
  | nil => rfl
  | cons s statuses ih =>
      have hsame : (d.heard s).semaphore = d.semaphore := by
        unfold heard
        rw [if_neg (hnone s List.mem_cons_self)]
        split <;> rfl
      exact (ih (fun t ht => hnone t (List.mem_cons_of_mem _ ht)) (d.heard s)).trans hsame

/-- Without a low byte of 4 the event flag, with whoever waits for it, is as it was. -/
theorem event_hears {statuses : List UInt32} (hnone : ∀ s ∈ statuses, s.toUInt8 ≠ 4)
    (d : Device) : (d.hears statuses).event = d.event := by
  induction statuses generalizing d with
  | nil => rfl
  | cons s statuses ih =>
      have hsame : (d.heard s).event = d.event := by
        unfold heard
        rw [if_neg (hnone s List.mem_cons_self)]
        split <;> rfl
      exact (ih (fun t ht => hnone t (List.mem_cons_of_mem _ ht)) (d.heard s)).trans hsame

end Device

namespace Machine

/-! ## Readings -/

/-- A device, and a status that it read. -/
abbrev Reading := Ref .device × UInt32

/-- The statuses that one device read. -/
def heardIn (readings : List Reading) (d : Ref .device) : List UInt32 :=
  readings.filterMap fun r => if r.1 = d then some r.2 else none

/-- The devices on a line that listen, in the order of their registration. -/
def audience (m : Machine) (registrations : List Registration) : List (Ref .device) :=
  registrations.filterMap fun r =>
    match r.handler with
    | .device d => if (m.devices.get d).enabled then some d else none
    | .probe _ => none

/-- What a block shows when the devices of a list have read the status of theirs. -/
def shownAfter (m : Machine) (before : List (Ref .device)) (registers : Registers) : UInt32 :=
  if registers.clears = true ∧ ∃ b ∈ before, (m.devices.get b).registers = registers then 0
  else m.shown registers

/-- What devices read one after the other, when those of `before` have read already. -/
def readingsAfter (m : Machine) (before : List (Ref .device)) :
    List (Ref .device) → List Reading
  | [] => []
  | d :: rest =>
      (d, m.shownAfter before (m.devices.get d).registers) ::
        m.readingsAfter (before ++ [d]) rest

/-- What the devices of a line read when it is raised. -/
def readings (m : Machine) (line : Ref .line) : List Reading :=
  m.readingsAfter [] (m.audience (m.lines.get line).registrations)

/-- Only devices are registered on a line. -/
def OnlyDevices (m : Machine) (line : Ref .line) : Prop :=
  ∀ r ∈ (m.lines.get line).registrations, ∃ d, r.handler = .device d

section Readings

variable {m : Machine} {d : Ref .device} {before l : List (Ref .device)}

/-- One more reading matters to its own block alone, and only if that is a port. -/
theorem shownAfter_append (registers : Registers) :
    m.shownAfter (before ++ [d]) registers =
      if registers.clears = true ∧ (m.devices.get d).registers = registers then 0
      else m.shownAfter before registers := by
  have hread : (∃ b ∈ before ++ [d], (m.devices.get b).registers = registers) ↔
      (∃ b ∈ before, (m.devices.get b).registers = registers) ∨
        (m.devices.get d).registers = registers := by
    simp [or_and_right, exists_or]
  unfold shownAfter
  simp only [hread]
  by_cases hclears : registers.clears = true
  · by_cases hsame : (m.devices.get d).registers = registers <;> simp [hclears, hsame]
  · simp [hclears]

theorem heardIn_append (first later : List Reading) (d : Ref .device) :
    heardIn (first ++ later) d = heardIn first d ++ heardIn later d :=
  List.filterMap_append

theorem map_fst_readingsAfter : (m.readingsAfter before l).map Prod.fst = l := by
  induction l generalizing before with
  | nil => rfl
  | cons d l ih => exact congrArg (d :: ·) ih

/-- Every reading is what its block shows after those before it. -/
theorem eq_of_readingsAfter {first later : List Reading} {status : UInt32}
    (h : m.readingsAfter before l = first ++ (d, status) :: later) :
    status = m.shownAfter (before ++ first.map Prod.fst) (m.devices.get d).registers := by
  induction l generalizing before first with
  | nil => exact absurd h.symm (List.append_ne_nil_of_right_ne_nil _ (List.cons_ne_nil _ _))
  | cons b l ih =>
      cases first with
      | nil =>
          obtain ⟨hhead, -⟩ := List.cons.inj h
          cases hhead
          rw [List.map_nil, List.append_nil]
      | cons r first =>
          obtain ⟨rfl, htail⟩ := List.cons.inj h
          rw [ih htail, List.map_cons, List.append_assoc, List.singleton_append]

theorem mem_audience {registrations : List Registration} (hd : d ∈ m.audience registrations) :
    (m.devices.get d).enabled = true := by
  obtain ⟨r, -, hr⟩ := List.mem_filterMap.mp hd
  split at hr
  · split at hr
    · rename_i henabled
      cases hr
      exact henabled
    · exact nomatch hr
  · exact nomatch hr

end Readings

/-! ## What one interrupt does -/

/-- The devices after some readings. -/
def hearing (devices : Table .device Device) (readings : List Reading) : Table .device Device :=
  readings.foldl (fun devices r => devices.modify r.1 (Device.heard r.2)) devices

section Hearing

variable {devices : Table .device Device} {readings : List Reading}

theorem has_hearing (d : Ref .device) : (hearing devices readings).Has d ↔ devices.Has d := by
  induction readings generalizing devices with
  | nil => exact Iff.rfl
  | cons r readings ih => exact ih.trans (Table.has_modify ..)

theorem hearing_keeps {β : Type} (g : Device → β) (hg : ∀ s d, g (d.heard s) = g d)
    (d : Ref .device) : g ((hearing devices readings).get d) = g (devices.get d) := by
  induction readings generalizing devices with
  | nil => rfl
  | cons r readings ih => exact ih.trans (Table.get_modify_keeps devices r.1 d g (hg r.2))

/-- A device hears its own readings and no others. -/
theorem get_hearing {d : Ref .device} (hd : devices.Has d) :
    (hearing devices readings).get d = (devices.get d).hears (heardIn readings d) := by
  induction readings generalizing devices with
  | nil => rfl
  | cons r readings ih =>
      have hthere : (devices.modify r.1 (Device.heard r.2)).Has d := (Table.has_modify ..).mpr hd
      have hrest := ih hthere
      refine hrest.trans ?_
      by_cases hr : r.1 = d
      · have hown : heardIn (r :: readings) d = r.2 :: heardIn readings d := by
          simp [heardIn, hr]
        rw [hown, hr, Table.get_modify_self hd]
        rfl
      · have hother : heardIn (r :: readings) d = heardIn readings d := by
          simp [heardIn, hr]
        rw [hother, Table.get_modify_of_ne _ hr]

end Hearing

/-- A machine after some of its devices have read their statuses. -/
structure Heard (m : Machine) (readings : List Reading) (m' : Machine) : Prop where
  devices : m'.devices = hearing m.devices readings
  shown : ∀ registers, m'.shown registers = m.shownAfter (readings.map Prod.fst) registers
  beside : m' = { m with devices := m'.devices, endpoints := m'.endpoints }

section Told

variable {m m' : Machine} {readings : List Reading} {d : Ref .device}

/-- A reading of a port clears it; all other blocks show what they did. -/
theorem shown_readOff (m : Machine) (registers other : Registers) :
    (m.readOff registers).shown other =
      if other.clears = true ∧ registers = other then 0 else m.shown other := by
  cases registers with
  | recorder | words =>
      refine (if_neg ?_).symm
      rintro ⟨hclears, rfl⟩
      exact nomatch hclears
  | endpoint e =>
      cases other with
      | recorder | words => rfl
      | endpoint e' =>
          show ((m.latch e 0).endpoints.get e').status = _
          by_cases he : e = e'
          · subst he
            rw [if_pos ⟨rfl, rfl⟩]
            exact congrArg Endpoint.status
              (Table.get_modify_self_of_default rfl m.endpoints e)
          · rw [if_neg fun h => he (Registers.endpoint.inj h.2)]
            exact congrArg Endpoint.status (Table.get_modify_of_ne _ he _)

theorem shown_told (m : Machine) (d : Ref .device) (registers : Registers) :
    (m.told d).shown registers = (m.readOff (m.devices.get d).registers).shown registers := by
  cases registers <;> rfl

/-- To be told changes the devices and the blocks of ports, and nothing beside them. -/
theorem told_beside (m : Machine) (d : Ref .device) :
    m.told d = { m with
      devices := (m.told d).devices
      endpoints := (m.told d).endpoints } := by
  unfold told
  cases (m.devices.get d).registers <;> rfl

theorem Heard.refl (m : Machine) : Heard m [] m where
  devices := rfl
  shown registers := (if_neg (by simp)).symm
  beside := rfl

theorem Heard.enabled (h : Heard m readings m') (d : Ref .device) :
    (m'.devices.get d).enabled = (m.devices.get d).enabled := by
  rw [h.devices]
  exact hearing_keeps Device.enabled (fun _ d => d.enabled_heard) d

theorem Heard.registers (h : Heard m readings m') (d : Ref .device) :
    (m'.devices.get d).registers = (m.devices.get d).registers := by
  rw [h.devices]
  exact hearing_keeps Device.registers (fun _ d => d.registers_heard) d

/-- One more device reads its status. -/
theorem Heard.told (h : Heard m readings m') (d : Ref .device) :
    Heard m (readings ++
      [(d, m.shownAfter (readings.map Prod.fst) (m.devices.get d).registers)]) (m'.told d) := by
  have hregisters := h.registers d
  refine ⟨?_, fun other => ?_, ?_⟩
  · show m'.devices.modify d (Device.heard (m'.shown _)) = _
    rw [hregisters, h.shown, h.devices]
    unfold hearing
    rw [List.foldl_append]
    rfl
  · rw [shown_told, hregisters, shown_readOff, h.shown]
    rw [List.map_append, List.map_singleton, shownAfter_append]
  · rw [told_beside, h.beside]

end Told

section Interrupts

variable {m m' : Machine} {readings : List Reading} {line : Ref .line}

/-- The devices of a list of registrations are told in order. -/
theorem tellAll_devices (raise : Machine → Ref .line → Machine × Bool)
    {registrations : List Registration} (h : Heard m readings m')
    (hdevices : ∀ r ∈ registrations, ∃ d, r.handler = .device d) :
    let more := m.readingsAfter (readings.map Prod.fst) (m.audience registrations)
    Heard m (readings ++ more) (tellAll raise registrations m').1 ∧
      (tellAll raise registrations m').2 =
        more.any fun r => (StatusEvent.classify r.2).isHandled := by
  induction registrations generalizing readings m' with
  | nil => exact ⟨(List.append_nil readings).symm ▸ h, rfl⟩
  | cons r registrations ih =>
      obtain ⟨d, hd⟩ := hdevices r List.mem_cons_self
      have hrest : ∀ r ∈ registrations, ∃ d, r.handler = .device d :=
        fun s hs => hdevices s (List.mem_cons_of_mem _ hs)
      cases henabled : (m.devices.get d).enabled with
      | false =>
          have hskip : m.audience (r :: registrations) = m.audience registrations := by
            simp [audience, hd, henabled]
          have hsilent := dispatch_of_disabled ((h.enabled d).trans henabled)
          simp only [tellAll, tell, hd, hsilent, hskip, Bool.false_or]
          exact ih h hrest
      | true =>
          have hnext : m.audience (r :: registrations) = d :: m.audience registrations := by
            simp [audience, hd, henabled]
          have htold := dispatch_eq_told ((h.enabled d).trans henabled)
          obtain ⟨hafter, hanswer⟩ := ih (h.told d) hrest
          rw [List.map_append, List.map_singleton] at hafter hanswer
          rw [List.append_assoc] at hafter
          simp only [tellAll, tell, hd, htold, hnext, readingsAfter, List.any_cons]
          refine ⟨hafter, ?_⟩
          rw [hanswer, h.registers, h.shown]

/-- What an interrupt does to the devices of its line, and who answers for it. -/
theorem heard_raise (hline : m.OnlyDevices line) :
    Heard m (m.readings line) (m.raise line).1 ∧
      (m.raise line).2 =
        (m.readings line).any fun r => (StatusEvent.classify r.2).isHandled := by
  unfold raise
  cases hsize : m.lines.entries.size with
  | zero =>
      have hnot : ¬m.lines.Has line := fun h => by
        unfold Table.Has at h
        omega
      have hnone : m.readings line = [] := by
        unfold Machine.readings
        rw [Table.get_of_not_has hnot]
        rfl
      rw [hnone]
      exact ⟨.refl m, rfl⟩
  | succ depth => exact tellAll_devices (raiseWithin depth) (.refl m) hline

/-- A device after an interrupt. -/
theorem get_raise (hline : m.OnlyDevices line) (d : Ref .device) :
    (m.raise line).1.devices.get d =
      (m.devices.get d).hears (heardIn (m.readings line) d) := by
  rw [(heard_raise hline).1.devices]
  by_cases hd : m.devices.Has d
  · exact get_hearing hd
  · have hnone : heardIn (m.readings line) d = [] := by
      refine List.filterMap_eq_nil_iff.mpr fun r hr => if_neg ?_
      rintro rfl
      have hmem := List.mem_map_of_mem (f := Prod.fst) hr
      rw [Machine.readings, map_fst_readingsAfter] at hmem
      exact hd (has_of_enabled (mem_audience hmem))
    have hnot : ¬(hearing m.devices (m.readings line)).Has d := fun h => hd ((has_hearing d).mp h)
    rw [hnone, Table.get_of_not_has hnot, Table.get_of_not_has hd]
    rfl

end Interrupts

/-! ## Runs -/

/-- One beat of a run: a line is raised and its devices read, or the blocks change by themselves. -/
inductive Beat : Machine → List Reading → Machine → Prop
  | raise {m : Machine} {line : Ref .line} (hline : m.OnlyDevices line) :
      Beat m (m.readings line) (m.raise line).1
  | change (m : Machine) (recorders : Table .recorder Recorder)
      (words : Table .words (Array UInt32)) (endpoints : Table .endpoint Endpoint) :
      Beat m [] { m with recorders := recorders, words := words, endpoints := endpoints }

/-- After a run a device has heard all of its readings. -/
theorem devices_of_beats {m m' : Machine} {beats : List (List Reading)}
    (h : Run Beat m beats m') (d : Ref .device) :
    m'.devices.get d = (m.devices.get d).hears (heardIn beats.flatten d) := by
  induction h with
  | nil => rfl
  | snoc _ hs ih =>
      rw [List.flatten_append, List.flatten_singleton, heardIn_append, Device.hears_append, ← ih]
      cases hs with
      | raise hline => exact get_raise hline d
      | change => rfl

/-- **Devices that share a line hear their own statuses.**  When a line is raised, the devices on it
that listen read their blocks in the order of their registration, each once; what a device reads is
what its block showed before, unless the block is a port that somebody before it has read, and then
zero.  Each device is changed by what it read itself: a low byte of 7 is one more unit as long as
there is room, a low byte of 4 sets the flag, and neither touches the other channel.  Somebody
answers for the interrupt if one of them read a status with some but not all bits set.  Ports that
were read are clear; all other blocks, and the rest of the machine, are as they were.  Over a run of
interrupts and of changes to the blocks, the readings of a device add up. -/
theorem raise_tells_each_its_own {m : Machine} {line : Ref .line} (hline : m.OnlyDevices line) :
    (m.readings line).map Prod.fst = m.audience (m.lines.get line).registrations ∧
    (∀ before d status after, m.readings line = before ++ (d, status) :: after →
      status = m.shownAfter (before.map Prod.fst) (m.devices.get d).registers) ∧
    (∀ d, (m.raise line).1.devices.get d =
      (m.devices.get d).hears (heardIn (m.readings line) d)) ∧
    ((m.raise line).2 = true ↔ ∃ r ∈ m.readings line, r.2 ≠ 0 ∧ r.2 ≠ 0xFFFFFFFF) ∧
    (∀ registers, (m.raise line).1.shown registers =
      m.shownAfter (m.audience (m.lines.get line).registrations) registers) ∧
    (m.raise line).1 = { m with
      devices := (m.raise line).1.devices
      endpoints := (m.raise line).1.endpoints } ∧
    (∀ (statuses : List UInt32) (d : Device),
      (d.hears statuses).pending.semaphore.toNat =
        min (d.pending.semaphore.toNat + statuses.countP (fun s => s.toUInt8 = 7))
          (UInt32.size - 1) ∧
      (d.hears statuses).pending.event =
        (d.pending.event || statuses.any fun s => s.toUInt8 = 4) ∧
      ((∀ s ∈ statuses, s.toUInt8 ≠ 7) → (d.hears statuses).semaphore = d.semaphore) ∧
      ((∀ s ∈ statuses, s.toUInt8 ≠ 4) → (d.hears statuses).event = d.event)) ∧
    ∀ beats m', Run Beat m beats m' → ∀ d,
      m'.devices.get d = (m.devices.get d).hears (heardIn beats.flatten d) := by
  obtain ⟨hheard, hanswer⟩ := heard_raise hline
  refine ⟨map_fst_readingsAfter, fun before d status after h => ?_, get_raise hline, ?_, ?_,
    hheard.beside, fun statuses d => ?_, fun beats m' h => devices_of_beats h⟩
  · exact eq_of_readingsAfter h
  · rw [hanswer, List.any_eq_true]
    exact exists_congr fun r => and_congr_right fun _ => StatusEvent.isHandled_classify r.2
  · intro registers
    rw [hheard.shown, Machine.readings, map_fst_readingsAfter]
  · obtain ⟨hcount, hflag⟩ := d.pending_hears statuses
    exact ⟨hcount, hflag, fun h => Device.semaphore_hears h d, fun h => Device.event_hears h d⟩

/-- Five devices on one line: two share a port, two share a recorder, and one has words of its own
with all bits set. -/
def mixed : Machine :=
  let blocks : List Registers :=
    [.endpoint ⟨0⟩, .recorder ⟨0⟩, .endpoint ⟨0⟩, .recorder ⟨0⟩, .words ⟨0⟩]
  let m := (((Machine.addLine {} 5).1.addFabric 0).1.resources ⟨0⟩ ⟨1⟩).1
  let m := ((m.addRecorder ⟨3⟩).1.addWords).1
  let m := blocks.foldl (fun m registers => (m.attach (some registers) none ⟨0⟩).1) m
  { m with
    endpoints := m.endpoints.modify ⟨0⟩ fun e => { e with status := 0x107 }
    recorders := m.recorders.modify ⟨0⟩ fun r => { r with status := 0xABCD04 }
    words := m.words.modify ⟨0⟩ fun w => w.setIfInBounds 1 0xFFFFFFFF }

/-- The first device on the port takes the status away from the second one, while both devices on
the recorder hear theirs; when the recorder shows another status, they hear that too. -/
theorem raise_tells_each_its_own_mixed :
    mixed.OnlyDevices ⟨0⟩ ∧
    mixed.readings ⟨0⟩ =
      [(⟨0⟩, 0x107), (⟨1⟩, 0xABCD04), (⟨2⟩, 0), (⟨3⟩, 0xABCD04), (⟨4⟩, 0xFFFFFFFF)] ∧
    (mixed.raise ⟨0⟩).2 = true ∧
    ((mixed.raise ⟨0⟩).1.devices.get ⟨0⟩).pending.semaphore.toNat = 1 ∧
    ((mixed.raise ⟨0⟩).1.devices.get ⟨3⟩).pending.event = true ∧
    ∃ beats m', Run Beat mixed beats m' ∧
      m'.devices.get ⟨1⟩ = (mixed.devices.get ⟨1⟩).hears [0xABCD04, 0x7] := by
  have honly : mixed.OnlyDevices ⟨0⟩ := by
    intro r hr
    have hregistered : (mixed.lines.get ⟨0⟩).registrations =
        [⟨1, .device ⟨0⟩⟩, ⟨2, .device ⟨1⟩⟩, ⟨3, .device ⟨2⟩⟩, ⟨4, .device ⟨3⟩⟩,
          ⟨5, .device ⟨4⟩⟩] := by decide
    rw [hregistered] at hr
    simp only [List.mem_cons, List.not_mem_nil, or_false] at hr
    rcases hr with rfl | rfl | rfl | rfl | rfl <;> exact ⟨_, rfl⟩
  have hread : mixed.readings ⟨0⟩ =
      [(⟨0⟩, 0x107), (⟨1⟩, 0xABCD04), (⟨2⟩, 0), (⟨3⟩, 0xABCD04), (⟨4⟩, 0xFFFFFFFF)] := by
    decide
  obtain ⟨-, -, hdevices, hanswer, -, -, hpending, hruns⟩ := raise_tells_each_its_own honly
  refine ⟨honly, hread, hanswer.mpr ⟨(⟨0⟩, 0x107), ?_, by decide⟩, ?_, ?_, ?_⟩
  · rw [hread]
    exact List.mem_cons_self
  · rw [hdevices, hread, (hpending _ _).1]
    decide
  · rw [hdevices, hread, (hpending _ _).2.1]
    decide
  · let raised := (mixed.raise ⟨0⟩).1
    let shown : Machine := { raised with
      recorders := raised.recorders.modify ⟨0⟩ fun r => { r with status := 7 } }
    have hlater : shown.OnlyDevices ⟨0⟩ := by
      have hlines : shown.lines = mixed.lines := by rfl
      unfold OnlyDevices
      rw [hlines]
      exact honly
    have hrun : Run Beat mixed [mixed.readings ⟨0⟩, [], shown.readings ⟨0⟩]
        (shown.raise ⟨0⟩).1 :=
      .snoc (.snoc (.single (.raise honly)) (.change raised _ raised.words raised.endpoints))
        (.raise hlater)
    have hagain : shown.readings ⟨0⟩ =
        [(⟨0⟩, 0), (⟨1⟩, 7), (⟨2⟩, 0), (⟨3⟩, 7), (⟨4⟩, 0xFFFFFFFF)] := by decide
    refine ⟨_, _, hrun, ?_⟩
    rw [hruns _ _ hrun, hread, hagain]
    rfl

end Machine

end PeerBus
