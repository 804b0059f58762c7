/-
# `PeerBus.Proofs.Window.Streams` — many streams over one device

Any number of streams are opened over a device, and used in any order; meanwhile others write to the
same window, and in the end the device may be detached.

    opened   one more stream, at position zero
    use      one of the streams is used
    detach   the device is detached
    others   whatever else happens: the device stays as it is, and the window as large as it is

A use may consist of many transfers.  What each single one preserves, its repetitions preserve
(`readRepeatedly_preserves`, `drain_preserves`, `writeRepeatedly_preserves`), so every use does
(`after_preserves`); and a single transfer keeps its stream within the window, whether or not the
device is attached (`Within.read`, `Within.write`, `Within.seek`).  From this it follows of all
states of all histories that no position is past the end (`Sound`), and with that everything that
has been shown of a stream over a window (`Over.served`).
-/
import PeerBus.Proofs.Window.Stream
import PeerBus.Proofs.Machine.Deeds
import PeerBus.Proofs.Run

namespace PeerBus

namespace Stream

/-! ## Uses -/

/-- What can be done with a stream. -/
inductive Use where
  | read (buffer : List UInt8)
  | write (data : List UInt8)
  | seek (origin : SeekFrom)
  /-- Nothing is held back, so there is nothing to do. -/
  | flush
  | readExact (wanted : Nat)
  | readToEnd
  | writeAll (data : List UInt8)
  deriving DecidableEq

/-- The machine and the stream after a use. -/
def after (s : Stream) (m : Machine) : Use → Machine × Stream
  | .read buffer => (m, (s.read m buffer).1)
  | .write data => ((s.write m data).1, (s.write m data).2.1)
  | .seek origin => (m, (s.seek m origin).1)
  | .flush => (m, s)
  | .readExact wanted => (m, (s.readExact m wanted).1)
  | .readToEnd => (m, (s.readToEnd m).1)
  | .writeAll data => ((s.writeAll m data).1, (s.writeAll m data).2.1)

section Preserves

variable {m : Machine} {s : Stream}

theorem readRepeatedly_preserves {P : Stream → Prop}
    (hread : ∀ s buffer, P s → P (s.read m buffer).1) (fuel wanted : Nat) (h : P s) :
    P (readRepeatedly m fuel wanted s).1 := by
  induction fuel generalizing wanted s with
  | zero => cases wanted <;> exact h
  | succ fuel ih =>
      cases wanted with
      | zero => exact h
      | succ wanted =>
          have hnext := hread s (List.replicate (wanted + 1) 0) h
          cases hone : s.read m (List.replicate (wanted + 1) 0) with
          | mk s' result =>
              rw [hone] at hnext
              cases result with
              | error e =>
                  simp only [readRepeatedly, hone]
                  exact hnext
              | ok filled =>
                  simp only [readRepeatedly, hone]
                  split
                  · exact hnext
                  · exact ih _ hnext

theorem drain_preserves {P : Stream → Prop} (hread : ∀ s buffer, P s → P (s.read m buffer).1)
    (fuel : Nat) (h : P s) : P (drain m fuel s).1 := by
  induction fuel generalizing s with
  | zero => exact h
  | succ fuel ih =>
      have hnext := hread s (List.replicate chunk 0) h
      cases hone : s.read m (List.replicate chunk 0) with
      | mk s' result =>
          rw [hone] at hnext
          cases result with
          | error e =>
              simp only [drain, hone]
              exact hnext
          | ok filled =>
              simp only [drain, hone]
              split
              · exact hnext
              · exact ih hnext

theorem writeRepeatedly_preserves {P : Machine → Stream → Prop}
    (hwrite : ∀ m s data, P m s → P (s.write m data).1 (s.write m data).2.1) (fuel : Nat)
    (data : List UInt8) (h : P m s) :
    P (writeRepeatedly fuel m s data).1 (writeRepeatedly fuel m s data).2.1 := by
  induction fuel generalizing m s data with
  | zero => cases data <;> exact h
  | succ fuel ih =>
      cases data with
      | nil => exact h
      | cons b rest =>
          have hnext := hwrite m s (b :: rest) h
          rcases hone : s.write m (b :: rest) with ⟨m', s', result⟩
          rw [hone] at hnext
          cases result with
          | error e =>
              simp only [writeRepeatedly, hone]
              exact hnext
          | ok count =>
              simp only [writeRepeatedly, hone]
              split
              · exact hnext
              · exact ih _ hnext

/-- What single transfers and seeks preserve, all uses preserve. -/
theorem after_preserves {P : Machine → Stream → Prop}
    (hread : ∀ m s buffer, P m s → P m (s.read m buffer).1)
    (hwrite : ∀ m s data, P m s → P (s.write m data).1 (s.write m data).2.1)
    (hseek : ∀ m s origin, P m s → P m (s.seek m origin).1) (h : P m s) (use : Use) :
    P (s.after m use).1 (s.after m use).2 := by
  cases use with
  | read buffer => exact hread m s buffer h
  | write data => exact hwrite m s data h
  | seek origin => exact hseek m s origin h
  | flush => exact h
  | readExact wanted => exact readRepeatedly_preserves (hread m) wanted wanted h
  | readToEnd => exact drain_preserves (hread m) _ h
  | writeAll data => exact writeRepeatedly_preserves hwrite data.length data h

end Preserves

/-! ## Within the window -/

/-- A stream over a device, attached or not, is within its window; since the machine `m₀` nothing
was done to devices, and the window kept its size. -/
structure Within (d : Ref .device) (r : Ref .region) (m₀ m : Machine) (s : Stream) : Prop where
  devices : m.devices = m₀.devices
  has : m.regions.Has r
  size : (m.regions.get r).bytes.size = (m₀.regions.get r).bytes.size
  device : s.device = d
  inside : s.position.toNat ≤ (m.regions.get r).bytes.size

namespace Within

variable {d : Ref .device} {r : Ref .region} {m₀ m : Machine} {s : Stream}

/-- Either the device of the stream is not enabled, or the stream is over the window. -/
theorem over_or (h : Within d r m₀ m s) (hwindow : (m₀.devices.get d).window = some r) :
    (m.devices.get s.device).enabled = false ∨ s.Over r m := by
  have hshown : (m.devices.get s.device).window = some r := by
    rw [h.device, h.devices, hwindow]
  cases henabled : (m.devices.get s.device).enabled with
  | false => exact .inl rfl
  | true => exact .inr ⟨h.has, ⟨henabled, hshown⟩, h.inside⟩

theorem advance (h : Within d r m₀ m s) (hover : s.Over r m) (wanted : Nat) :
    Within d r m₀ m (s.advance (min wanted (s.ahead m r).length)) where
  devices := h.devices
  has := h.has
  size := h.size
  device := h.device
  inside := (hover.advance (Nat.min_le_right ..)).inside

theorem read (hwindow : (m₀.devices.get d).window = some r) (buffer : List UInt8)
    (h : Within d r m₀ m s) : Within d r m₀ m (s.read m buffer).1 := by
  rcases h.over_or hwindow with hdisabled | hover
  · rw [read_of_disabled hdisabled]
    exact h
  · rw [hover.read_eq]
    exact h.advance hover _

theorem write (hwindow : (m₀.devices.get d).window = some r) (data : List UInt8)
    (h : Within d r m₀ m s) : Within d r m₀ (s.write m data).1 (s.write m data).2.1 := by
  rcases h.over_or hwindow with hdisabled | hover
  · rw [write_of_disabled hdisabled]
    exact h
  · rw [hover.write_eq]
    have hmoved := h.advance hover data.length
    have hwrote := hover.wrote data
    have hsize := hwrote.replaced.size
    exact
      { devices := h.devices
        has := (hwrote.has r).mpr h.has
        size := hsize.trans h.size
        device := h.device
        inside := by
          rw [hsize]
          exact hmoved.inside }

theorem seek (hwindow : (m₀.devices.get d).window = some r) (origin : SeekFrom)
    (h : Within d r m₀ m s) : Within d r m₀ m (s.seek m origin).1 := by
  rcases h.over_or hwindow with hdisabled | hover
  · rw [seek_of_disabled hdisabled]
    exact h
  · rw [hover.seek_eq]
    split
    · refine ⟨h.devices, h.has, h.size, h.device, ?_⟩
      have hle := Nat.min_le_right (goal (m.regions.get r).bytes.size s.position.toNat origin).toNat
        (m.regions.get r).bytes.size
      exact Nat.le_trans (Nat.mod_le _ _) hle
    · exact h

theorem after (hwindow : (m₀.devices.get d).window = some r) (h : Within d r m₀ m s) (use : Use) :
    Within d r m₀ (s.after m use).1 (s.after m use).2 :=
  after_preserves (fun _ _ buffer => read hwindow buffer) (fun _ _ data => write hwindow data)
    (fun _ _ origin => seek hwindow origin) h use

end Within

/-! ## Histories -/

/-- A machine, and the streams that were opened over one of its devices. -/
structure Desk where
  machine : Machine
  streams : List Stream

/-- What can happen to a device and its streams. -/
inductive Act where
  | opened
  /-- The stream with this number is used. -/
  | use (number : Nat) (use : Use)
  | detach
  | others
  deriving DecidableEq

/-- The device stands where it stood, and all memories are as large as they were. -/
structure Beside (d : Ref .device) (m m' : Machine) : Prop where
  standing : (m'.devices.get d).standing = (m.devices.get d).standing
  window : (m'.devices.get d).window = (m.devices.get d).window
  regions : ∀ r, m.regions.Has r →
    m'.regions.Has r ∧ (m'.regions.get r).bytes.size = (m.regions.get r).bytes.size

/-- What an act makes of them. -/
inductive Step (d : Ref .device) : Desk → Act → Desk → Prop
  | opened {m : Machine} {streams : List Stream} :
      Step d ⟨m, streams⟩ .opened ⟨m, streams ++ [{ device := d }]⟩
  | use {m : Machine} {streams : List Stream} {number : Nat} {s : Stream} {use : Use}
      (hs : streams[number]? = some s) :
      Step d ⟨m, streams⟩ (.use number use)
        ⟨(s.after m use).1, streams.set number (s.after m use).2⟩
  | detach {m : Machine} {streams : List Stream} :
      Step d ⟨m, streams⟩ .detach ⟨m.detach d, streams⟩
  | others {m m' : Machine} {streams : List Stream} (h : Beside d m m') :
      Step d ⟨m, streams⟩ .others ⟨m', streams⟩

/-- A device is attached, and this memory is its window. -/
def Attached (d : Ref .device) (r : Ref .region) (m : Machine) : Prop :=
  (∃ seat, (m.devices.get d).standing = .attached seat) ∧ (m.devices.get d).window = some r

/-- The window has its size, no position is past its end, and the device is attached unless it was
detached. -/
structure Sound (d : Ref .device) (r : Ref .region) (n : Nat) (acts : List Act) (now : Desk) :
    Prop where
  has : now.machine.regions.Has r
  size : (now.machine.regions.get r).bytes.size = n
  window : (now.machine.devices.get d).window = some r
  attached : .detach ∉ acts → ∃ seat, (now.machine.devices.get d).standing = .attached seat
  detached : .detach ∈ acts → (now.machine.devices.get d).standing = .detached
  streams : ∀ s ∈ now.streams, s.device = d ∧ s.position.toNat ≤ n

namespace Sound

variable {d : Ref .device} {r : Ref .region} {n : Nat} {acts : List Act} {now next : Desk}

/-- An act that leaves the device where it stands. -/
theorem stay (h : Sound d r n acts now) {a : Act} (ha : a ≠ .detach)
    (hstanding : (next.machine.devices.get d).standing = (now.machine.devices.get d).standing)
    (hwindow : (next.machine.devices.get d).window = (now.machine.devices.get d).window)
    (hhas : next.machine.regions.Has r)
    (hsize : (next.machine.regions.get r).bytes.size = (now.machine.regions.get r).bytes.size)
    (hstreams : ∀ s ∈ next.streams, s.device = d ∧ s.position.toNat ≤ n) :
    Sound d r n (acts ++ [a]) next := by
  have hmem : .detach ∈ acts ++ [a] ↔ .detach ∈ acts := by
    rw [List.mem_append, List.mem_singleton]
    exact or_iff_left ha.symm
  exact
    { has := hhas
      size := hsize.trans h.size
      window := hwindow.trans h.window
      attached := by
        rw [hmem, hstanding]
        exact h.attached
      detached := by
        rw [hmem, hstanding]
        exact h.detached
      streams := hstreams }

theorem use {m : Machine} {streams : List Stream} (h : Sound d r n acts ⟨m, streams⟩)
    {number : Nat} {s : Stream} (hs : streams[number]? = some s) (use : Use) :
    Sound d r n (acts ++ [.use number use])
      ⟨(s.after m use).1, streams.set number (s.after m use).2⟩ := by
  obtain ⟨hdevice, hinside⟩ := h.streams s (List.mem_of_getElem? hs)
  have hwithin : Within d r m m s := ⟨rfl, h.has, rfl, hdevice, h.size.symm ▸ hinside⟩
  have hafter := hwithin.after h.window use
  refine h.stay Act.noConfusion ?_ ?_ hafter.has hafter.size ?_
  · exact congrArg (fun devices : Table .device Device => (devices.get d).standing) hafter.devices
  · exact congrArg (fun devices : Table .device Device => (devices.get d).window) hafter.devices
  · intro t ht
    rcases List.mem_or_eq_of_mem_set ht with ht | rfl
    · exact h.streams t ht
    · exact ⟨hafter.device, h.size ▸ hafter.size ▸ hafter.inside⟩

theorem detach {m : Machine} {streams : List Stream} (h : Sound d r n acts ⟨m, streams⟩) :
    Sound d r n (acts ++ [.detach]) ⟨m.detach d, streams⟩ := by
  have hmem : Act.detach ∈ acts ++ [.detach] := List.mem_append_right _ List.mem_cons_self
  have hstanding : ((m.detach d).devices.get d).standing = .detached := by
    by_cases hbefore : .detach ∈ acts
    · have hdetached := h.detached hbefore
      rw [Machine.detach_of_detached hdetached]
      exact hdetached
    · obtain ⟨seat, hseat⟩ := h.attached hbefore
      exact Machine.standing_detach (Machine.has_of_enabled (congrArg Standing.enabled hseat)) hseat
  have hregions : (m.detach d).regions = m.regions := by
    cases hseat : (m.devices.get d).seat with
    | none => rw [Machine.detach_of_none hseat]
    | some seat => rw [Machine.detach_of_seat hseat]
  have hwindow : ((m.detach d).devices.get d).window = (m.devices.get d).window := by
    cases hseat : (m.devices.get d).seat with
    | none => rw [Machine.detach_of_none hseat]
    | some seat =>
        rw [Machine.detach_of_seat hseat]
        exact Table.get_modify_keeps m.devices d d Device.window fun _ => rfl
  exact
    { has := hregions ▸ h.has
      size := hregions ▸ h.size
      window := hwindow.trans h.window
      attached := fun hnot => absurd hmem hnot
      detached := fun _ => hstanding
      streams := h.streams }

theorem step (h : Sound d r n acts now) {a : Act} (hs : Step d now a next) :
    Sound d r n (acts ++ [a]) next := by
  cases hs with
  | opened =>
      refine h.stay Act.noConfusion rfl rfl h.has rfl ?_
      intro s hs
      rcases List.mem_append.mp hs with hs | hs
      · exact h.streams s hs
      · obtain rfl := List.mem_singleton.mp hs
        exact ⟨rfl, Nat.zero_le n⟩
  | use hs => exact h.use hs _
  | detach => exact h.detach
  | others hbeside =>
      obtain ⟨hhas, hsize⟩ := hbeside.regions r h.has
      exact h.stay Act.noConfusion hbeside.standing hbeside.window hhas hsize h.streams

theorem of_run {first : Desk} (h : Run (Step d) first acts now) (hfirst : Sound d r n [] first) :
    Sound d r n acts now := by
  induction h with
  | nil => exact hfirst
  | snoc _ hs ih => exact ih.step hs

/-- While the device is attached, its streams are over the window. -/
theorem stream_over (h : Sound d r n acts now) (hacts : .detach ∉ acts) {s : Stream}
    (hs : s ∈ now.streams) : s.Over r now.machine := by
  obtain ⟨hdevice, hinside⟩ := h.streams s hs
  obtain ⟨seat, hseat⟩ := h.attached hacts
  refine ⟨h.has, ⟨?_, ?_⟩, h.size.symm ▸ hinside⟩
  · rw [hdevice]
    exact congrArg Standing.enabled hseat
  · rw [hdevice]
    exact h.window

end Sound

/-- **Streams move exactly what lies between their position and the end.**  Let a device be
attached, with a window of `n` bytes, whatever they are.  After any history of streams opened over
it and used in any order, while others write to the window, a stream is opened at position zero, and
no position is past `n`.  As long as the device is not detached, each operation of each stream moves
exactly what it should (`Served`): a read or a write moves what is wanted or what is ahead,
whichever is less, and the position by as much; a read to the end delivers all that is ahead,
however it is cut; to write all, and to read exactly, moves as much as can be moved and succeeds if
that is all; and what is written is read by whoever goes back and reads as much.  Once the device is
detached, reads, writes, seeks and reads to the end fail, and neither the streams nor the window are
changed (`Refused`). -/
theorem streams_exact {m : Machine} {d : Ref .device} {r : Ref .region} (hr : m.regions.Has r)
    (hattached : Attached d r m) {acts : List Act} {now : Desk}
    (h : Run (Step d) ⟨m, []⟩ acts now) :
    let n := (m.regions.get r).bytes.size
    (now.machine.regions.get r).bytes.size = n ∧
    (∀ before, acts = before ++ [.opened] → now.streams.getLast? = some ⟨d, 0⟩) ∧
    (∀ s ∈ now.streams, s.device = d ∧ s.position.toNat ≤ n) ∧
    (.detach ∉ acts → ∀ s ∈ now.streams, s.Served now.machine r) ∧
    (.detach ∈ acts → ∀ s ∈ now.streams, s.Refused now.machine) := by
  intro n
  have hfirst : Sound d r n [] ⟨m, []⟩ :=
    { has := hr
      size := rfl
      window := hattached.2
      attached := fun _ => hattached.1
      detached := nofun
      streams := nofun }
  have hnow := Sound.of_run h hfirst
  refine ⟨hnow.size, ?_, hnow.streams, ?_, ?_⟩
  · rintro before rfl
    obtain ⟨desk, -, hlast⟩ := h.of_append
    obtain ⟨desk', hopened, hnil⟩ := hlast.of_cons
    obtain rfl := hnil.eq_of_nil
    cases hopened
    exact List.getLast?_concat
  · intro hacts s hs
    exact (hnow.stream_over hacts hs).served
  · intro hacts s hs
    refine refused_of_disabled ?_
    rw [(hnow.streams s hs).1]
    exact congrArg Standing.enabled (hnow.detached hacts)

/-- A device with a window of six bytes. -/
def sixBytes : Machine :=
  let m := (((Machine.addLine {} 5).1.addRegion 6).1.addWords).1
  (m.attach (some (.words ⟨0⟩)) (some ⟨0⟩) ⟨0⟩).1

/-- The first stream has one byte too many to write, and goes back to position one; the second one
writes two bytes over the first ones. -/
def twoStreams : List Act :=
  [.opened, .opened, .use 0 (.write [1, 2, 3, 4, 5, 6, 7]), .use 0 (.seek (.start 1)),
    .use 1 (.write [8, 9])]

theorem streams_exact_two :
    sixBytes.regions.Has ⟨0⟩ ∧ Attached ⟨0⟩ ⟨0⟩ sixBytes ∧
    ∃ m, Run (Step ⟨0⟩) ⟨sixBytes, []⟩ twoStreams ⟨m, [⟨⟨0⟩, 1⟩, ⟨⟨0⟩, 2⟩]⟩ ∧
      ((⟨⟨0⟩, 1⟩ : Stream).readToEnd m).2 = .ok [9, 3, 4, 5, 6] ∧
      ((⟨⟨0⟩, 2⟩ : Stream).readExact m 5).2 = .error .unexpectedEnd ∧
      Run (Step ⟨0⟩) ⟨sixBytes, []⟩ (twoStreams ++ [.detach])
        ⟨m.detach ⟨0⟩, [⟨⟨0⟩, 1⟩, ⟨⟨0⟩, 2⟩]⟩ ∧
      (⟨⟨0⟩, 1⟩ : Stream).Refused (m.detach ⟨0⟩) := by
  have hr : sixBytes.regions.Has ⟨0⟩ := by decide
  have hattached : Attached ⟨0⟩ ⟨0⟩ sixBytes := ⟨⟨⟨⟨0⟩, 1⟩, rfl⟩, rfl⟩
  let m₁ : Machine := (sixBytes.writeRegion ⟨0⟩ 0 [1, 2, 3, 4, 5, 6, 7]).1
  let m₂ : Machine := (m₁.writeRegion ⟨0⟩ 0 [8, 9]).1
  have hwrite : Step ⟨0⟩ ⟨sixBytes, [⟨⟨0⟩, 0⟩, ⟨⟨0⟩, 0⟩]⟩ (.use 0 (.write [1, 2, 3, 4, 5, 6, 7]))
      ⟨m₁, [⟨⟨0⟩, 6⟩, ⟨⟨0⟩, 0⟩]⟩ := .use (s := ⟨⟨0⟩, 0⟩) rfl
  have hseek : Step ⟨0⟩ ⟨m₁, [⟨⟨0⟩, 6⟩, ⟨⟨0⟩, 0⟩]⟩ (.use 0 (.seek (.start 1)))
      ⟨m₁, [⟨⟨0⟩, 1⟩, ⟨⟨0⟩, 0⟩]⟩ := .use (s := ⟨⟨0⟩, 6⟩) rfl
  have hover : Step ⟨0⟩ ⟨m₁, [⟨⟨0⟩, 1⟩, ⟨⟨0⟩, 0⟩]⟩ (.use 1 (.write [8, 9]))
      ⟨m₂, [⟨⟨0⟩, 1⟩, ⟨⟨0⟩, 2⟩]⟩ := .use (s := ⟨⟨0⟩, 0⟩) rfl
  have hrun : Run (Step ⟨0⟩) ⟨sixBytes, []⟩ twoStreams ⟨m₂, [⟨⟨0⟩, 1⟩, ⟨⟨0⟩, 2⟩]⟩ :=
    .snoc (.snoc (.snoc (.snoc (.single .opened) .opened) hwrite) hseek) hover
  have hgone := hrun.snoc .detach
  obtain ⟨-, -, -, hserved, -⟩ := streams_exact hr hattached hrun
  obtain ⟨-, -, -, -, hrefused⟩ := streams_exact hr hattached hgone
  have hfirst := hserved (by decide) ⟨⟨0⟩, 1⟩ List.mem_cons_self
  have hsecond := hserved (by decide) ⟨⟨0⟩, 2⟩ (List.mem_cons_of_mem _ List.mem_cons_self)
  have hahead : ahead ⟨⟨0⟩, 1⟩ m₂ ⟨0⟩ = [9, 3, 4, 5, 6] := by decide
  have hlength : (ahead ⟨⟨0⟩, 2⟩ m₂ ⟨0⟩).length = 4 := by decide
  refine ⟨hr, hattached, m₂, hrun, ?_, ?_, hgone, ?_⟩
  · rw [hfirst.readToEnd.1, hahead]
  · rw [(hsecond.readExact 5).1, hlength, if_neg (by decide)]
  · exact hrefused (by decide) ⟨⟨0⟩, 1⟩ List.mem_cons_self

end Stream

end PeerBus
