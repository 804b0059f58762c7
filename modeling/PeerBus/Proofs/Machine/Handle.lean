/-
# `PeerBus.Proofs.Machine.Handle` — what a handle can be used for

Whoever holds a handle of a device can use it, also when the device is detached.  A `Use` is one
call through a handle, or one look of a call that waits:

    ask            the operations that can fail (`Ask`), each with its result
    arm, interrupt change the channels, and cannot fail
    lapse, look    the deadline of a waiting call passes; a call that left its sleep looks again

A wait with a deadline is asked like one without.

**What is proved.**  A handle of a device that is not enabled is good for nothing: every ask fails
in the same way before it has touched anything (`Machine.ask_of_disabled`), so do the streams over
it, and the other uses reach no further than the two channels of the device itself
(`Machine.onlyWaits_use`).
-/
import PeerBus.Machine.Stream
import PeerBus.Proofs.Machine.Traffic

namespace PeerBus

/-- The operations of a device that can fail. -/
inductive Ask where
  | down (call : CallId)
  | waitEvent (call : CallId)
  | ring (target : PeerId) (command : Command)
  | peerId
  | control (request : Request) (call : CallId)
  | windowSize
  | read (offset : UInt64) (wanted : Nat)
  | readInto (offset : UInt64) (buffer : List UInt8)
  | write (offset : UInt64) (data : List UInt8)
  | map

/-- What such an operation answers if it does not fail. -/
inductive Ask.Result where
  | done
  | peer (id : PeerId)
  | response (response : Response)
  | size (size : UInt64)
  | bytes (bytes : List UInt8)
  | filled (count : Nat) (buffer : List UInt8)
  | written (count : Nat)
  | region (region : Ref .region)

/-- The two channels of a device. -/
inductive Lane where
  | units
  | signal
  deriving DecidableEq

/-- Where the calls that wait in a lane are parked. -/
def Lane.site (d : Ref .device) : Lane → Site
  | .units => .units d
  | .signal => .signal d

/-- What can be done with a handle. -/
inductive Use where
  | ask (ask : Ask)
  | arm (count : UInt32)
  | interrupt
  | lapse (lane : Lane) (call : CallId)
  | look (lane : Lane) (call : CallId)

namespace Machine

/-- Asks a device; there is no answer yet if the call went to sleep. -/
def ask (m : Machine) (d : Ref .device) : Ask → Machine × Option (Except DeviceError Ask.Result)
  | .down call =>
      let (m, outcome) := m.down d call
      (m, outcome.map fun outcome => outcome.map fun _ => .done)
  | .waitEvent call =>
      let (m, outcome) := m.waitEvent d call
      (m, outcome.map fun outcome => outcome.map fun _ => .done)
  | .ring target command =>
      let (m, outcome) := m.ring d target command
      (m, some (outcome.map fun _ => .done))
  | .peerId =>
      let (m, outcome) := m.peerId d
      (m, some (outcome.map .peer))
  | .control request call =>
      let (m, outcome) := m.control d request call
      (m, outcome.map fun outcome => outcome.map .response)
  | .windowSize => (m, some ((m.windowSize d).map .size))
  | .read offset wanted => (m, some ((m.read d offset wanted).map .bytes))
  | .readInto offset buffer =>
      (m, some ((m.readInto d offset buffer).map fun filled => .filled filled.1 filled.2))
  | .write offset data =>
      let (m, outcome) := m.write d offset data
      (m, some (outcome.map .written))
  | .map => (m, some ((m.map d).map .region))

/-- The machine after a use. -/
def use (m : Machine) (d : Ref .device) : Use → Machine
  | .ask ask => (m.ask d ask).1
  | .arm count => m.arm d count
  | .interrupt => m.interruptWaiters d
  | .lapse lane call => m.expire (lane.site d) call
  | .look lane call => (m.resume (lane.site d) call).1

/-- Nothing has changed but the two channels of a device. -/
def OnlyWaits (d : Ref .device) (m m' : Machine) : Prop :=
  ∃ f : Device → Device,
    (∀ x, f x = { x with semaphore := (f x).semaphore, event := (f x).event }) ∧
      m' = { m with devices := m.devices.modify d f }

/-! ## Devices that are not enabled -/

variable {m : Machine} {d : Ref .device}

theorem window?_of_disabled (h : (m.devices.get d).enabled = false) :
    (m.devices.get d).window? = .error .unavailable := by
  unfold Device.window?
  rw [ensureEnabled_of_disabled h]

theorem control_of_disabled (h : (m.devices.get d).enabled = false) (request : Request)
    (call : CallId) : m.control d request call = (m, some (.error .unavailable)) := by
  unfold control
  rw [ensureEnabled_of_disabled h]

theorem windowSize_of_disabled (h : (m.devices.get d).enabled = false) :
    m.windowSize d = .error .unavailable := by
  unfold windowSize
  rw [window?_of_disabled h]
  rfl

theorem read_of_disabled (h : (m.devices.get d).enabled = false) (offset : UInt64)
    (wanted : Nat) : m.read d offset wanted = .error .unavailable := by
  unfold read
  rw [window?_of_disabled h]
  rfl

theorem readInto_of_disabled (h : (m.devices.get d).enabled = false) (offset : UInt64)
    (buffer : List UInt8) : m.readInto d offset buffer = .error .unavailable := by
  unfold readInto
  rw [window?_of_disabled h]
  rfl

theorem write_of_disabled (h : (m.devices.get d).enabled = false) (offset : UInt64)
    (data : List UInt8) : m.write d offset data = (m, .error .unavailable) := by
  unfold write
  rw [window?_of_disabled h]

theorem map_of_disabled (h : (m.devices.get d).enabled = false) :
    m.map d = .error .unavailable :=
  window?_of_disabled h

/-- Whatever a device that is not enabled is asked, it fails, and nothing has happened. -/
theorem ask_of_disabled (h : (m.devices.get d).enabled = false) (ask : Ask) :
    m.ask d ask = (m, some (.error .unavailable)) := by
  cases ask with
  | down => simp only [Machine.ask, down_of_disabled h]; rfl
  | waitEvent => simp only [Machine.ask, waitEvent_of_disabled h]; rfl
  | ring => simp only [Machine.ask, ring_of_disabled h]; rfl
  | peerId => simp only [Machine.ask, peerId_of_disabled h]; rfl
  | control => simp only [Machine.ask, control_of_disabled h]; rfl
  | windowSize => simp only [Machine.ask, windowSize_of_disabled h]; rfl
  | read => simp only [Machine.ask, read_of_disabled h]; rfl
  | readInto => simp only [Machine.ask, readInto_of_disabled h]; rfl
  | write => simp only [Machine.ask, write_of_disabled h]; rfl
  | map => simp only [Machine.ask, map_of_disabled h]; rfl

theorem onlyWaits_refl (d : Ref .device) (m : Machine) : OnlyWaits d m m :=
  ⟨fun x => x, fun _ => rfl, by rw [Table.modify_id]⟩

/-- The uses that cannot fail reach no further than the channels. -/
theorem onlyWaits_use (h : (m.devices.get d).enabled = false) (u : Use) :
    OnlyWaits d m (m.use d u) := by
  cases u with
  | ask ask =>
      show OnlyWaits d m (m.ask d ask).1
      rw [ask_of_disabled h]
      exact onlyWaits_refl d m
  | arm | interrupt => exact ⟨_, fun _ => rfl, rfl⟩
  | lapse lane | look lane =>
      cases lane with
      | units | signal => exact ⟨_, fun _ => rfl, rfl⟩

end Machine

/-! ## Streams over them -/

namespace Stream

variable {m : Machine} {s : Stream}

theorem read_of_disabled (h : (m.devices.get s.device).enabled = false) (buffer : List UInt8) :
    s.read m buffer = (s, .error (.device .unavailable)) := by
  unfold read
  rw [Machine.readInto_of_disabled h]

theorem write_of_disabled (h : (m.devices.get s.device).enabled = false) (data : List UInt8) :
    s.write m data = (m, s, .error (.device .unavailable)) := by
  unfold write
  rw [Machine.write_of_disabled h]

theorem seek_of_disabled (h : (m.devices.get s.device).enabled = false) (origin : SeekFrom) :
    s.seek m origin = (s, .error (.device .unavailable)) := by
  unfold seek
  rw [Machine.windowSize_of_disabled h]

end Stream

end PeerBus
