/-
# `PeerBus.Scenario.Step` — steps of a scenario and their answers

A scenario is a list of steps over named objects.  A step makes an object under a name, or uses,
shows or drops one.  Names are separate for each kind of object.  Every step has an answer: a
reply, a failure, or the news that the call is asleep.
-/
import PeerBus.Machine.Stream
import PeerBus.Handshake.Client
import PeerBus.Handshake.Server

namespace PeerBus.Scenario

/-! ## Steps -/

/-- Steps on windows and their mappings. -/
inductive WindowStep where
  /-- Makes a window of zero bytes. -/
  | make (name : String) (size : UInt64)
  /-- Makes a window over memory at `base` bytes past an aligned address, or at no address. -/
  | makeExternal (name : String) (size : UInt64) (base : Option UInt64)
  /-- Shows a block of memory that is not kept. -/
  | heap (size : UInt64)
  /-- Gives a window a second name. -/
  | clone (window name : String)
  | read (window : String) (offset : UInt64) (wanted : Nat)
  | write (window : String) (offset : UInt64) (data : List UInt8)
  /-- Maps a window. -/
  | map (window name : String)
  | load (mapping : String) (offset : UInt64)
  | store (mapping : String) (offset : UInt64) (value : UInt32)

/-- Steps on register blocks. -/
inductive RegisterStep where
  /-- Makes a recording block. -/
  | record (name : String) (position : PeerId)
  /-- Makes a block over memory, as `WindowStep.makeExternal` does. -/
  | map (name : String) (base : Option UInt64)
  /-- The first six words of a block over memory. -/
  | words (block : String)
  /-- Changes a word of a block over memory. -/
  | poke (block : String) (index : Nat) (value : UInt32)
  /-- Sets the status that a recording block shows. -/
  | setStatus (block : String) (value : UInt32)
  | mask (block : String)
  | doorbells (block : String)
  /-- The doorbells so far, which are then forgotten. -/
  | takeDoorbells (block : String)
  | read (block : String) (register : Register)
  | write (block : String) (register : Register) (value : UInt32)

/-- Steps on interrupt lines and their probes. -/
inductive LineStep where
  | make (name : String) (number : UInt32)
  | raise (line : String)
  | handlerCount (line : String)
  /-- Makes a probe; it answers `handled`, or what raising the line `chain` answers. -/
  | probe (name : String) (handled : Bool) (chain : Option String)
  | calls (probe : String)
  /-- Registers a probe on a line. -/
  | request (line probe name : String)

/-- Steps on fabrics. -/
inductive FabricStep where
  | make (name : String) (size : UInt64)
  | clone (fabric name : String)
  /-- Gives the window of a fabric a name. -/
  | window (fabric name : String)
  /-- Attaches a device to a new endpoint. -/
  | attach (fabric : String) (peer : PeerId) (name : String)
  /-- Makes an endpoint and names its registers, its line and its window. -/
  | resources (fabric : String) (peer : PeerId) (name : String)
  | raise (fabric : String) (peer : PeerId) (status : UInt32)
  | remove (fabric : String) (peer : PeerId)
  | peers (fabric : String)

/-- Steps on devices. -/
inductive DeviceStep where
  | attach (name : String) (registers window : Option String) (line : String)
  | detach (device : String)
  | isEnabled (device : String)
  | isIdle (device : String)
  | arm (device : String) (count : UInt32)
  | interruptWaiters (device : String)
  | down (device : String) (timeout : Option Timeout)
  | waitEvent (device : String) (timeout : Option Timeout)
  | ring (device : String) (target : PeerId) (command : Command)
  | peerId (device : String)
  | control (device : String) (number : UInt32) (argument : UInt64)
  | windowSize (device : String)
  | read (device : String) (offset : UInt64) (wanted : Nat)
  | readInto (device : String) (offset : UInt64) (wanted : Nat)
  | write (device : String) (offset : UInt64) (data : List UInt8)
  | map (device name : String)

/-- Steps on streams. -/
inductive StreamStep where
  | make (device name : String)
  | read (stream : String) (wanted : Nat)
  | readExact (stream : String) (wanted : Nat)
  | readToEnd (stream : String)
  | write (stream : String) (data : List UInt8)
  | writeAll (stream : String) (data : List UInt8)
  | seek (stream : String) (origin : SeekFrom)
  | flush (stream : String)
  | position (stream : String)

/-- Steps on sessions. -/
inductive SessionStep where
  | make (mapping name : String)
  | get (session : String) (field : Field)
  | set (session : String) (field : Field) (value : UInt32)
  | publishServer (session : String) (peer : PeerId)
  | publishClient (session : String) (peer : PeerId)
  | requestShutdown (session : String)
  | view (session : String)
  | slot (session : String) (index : UInt64)
  | setSlot (session : String) (index : UInt64) (value : UInt32)
  | writePass (session : String) (seed : UInt32)
  | verifyPass (session : String) (seed : UInt32)

/-- Steps on the roles of a handshake. -/
inductive RoleStep where
  | client (device name : String) (config : Config)
  | server (device name : String) (config : Config)
  /-- The rounds of a role; its session may be given a name. -/
  | rounds (role : String) (session : Option String)
  | announce (role : String)
  | serveOnce (role : String)
  | connect (role : String)
  | round (role : String) (seed : UInt32)
  | shutdown (role : String)
  /-- Runs a role to its end; a client takes its seeds in turn. -/
  | run (role : String) (seeds : Nat → UInt32)

/-- Steps on semaphores and event flags of their own. -/
inductive PrimitiveStep where
  | semaphore (name : String)
  | event (name : String)
  | arm (semaphore : String) (count : UInt32)
  | up (semaphore : String)
  | set (event : String)
  | clear (event : String)
  | interrupt (primitive : String)
  | close (primitive : String)
  | wait (primitive : String) (timeout : Option Timeout)

/-- The kinds of objects that can be shown or dropped. -/
inductive ObjectKind where
  | window
  | mapping
  | registers
  | line
  | probe
  | registration
  | fabric
  | device
  /-- What operations on a device share; it outlives the attachment. -/
  | handle
  | stream
  | session
  | pending
  deriving DecidableEq

/-- A step of a scenario. -/
inductive Step where
  | window (step : WindowStep)
  | register (step : RegisterStep)
  | line (step : LineStep)
  | fabric (step : FabricStep)
  | device (step : DeviceStep)
  | stream (step : StreamStep)
  | session (step : SessionStep)
  | role (step : RoleStep)
  | primitive (step : PrimitiveStep)
  | describe (kind : ObjectKind) (name : String)
  | drop (kind : ObjectKind) (name : String)

/-- Seeds taken in turn from a list, over and over; zeros if it is empty. -/
def cycle (seeds : List UInt32) (k : Nat) : UInt32 := seeds[k % seeds.length]?.getD 0

/-! ## Answers -/

/-- The control record as it is read field by field. -/
structure RecordView where
  fields : List UInt32
  server : Option PeerId
  client : Option PeerId
  ready : Bool
  started : Bool
  done : Bool
  shutdown : Bool
  slots : UInt64

/-- What a step that succeeded tells. -/
inductive Reply where
  | unit
  | number (value : Nat)
  | numbers (values : List Nat)
  | maybe (value : Option Nat)
  | maybes (values : List (Option Nat))
  | flag (value : Bool)
  | text (value : String)
  | bytes (data : List UInt8)
  /-- The bytes that were moved, and the whole buffer. -/
  | transfer (count : Nat) (buffer : List UInt8)
  /-- The size of a block of memory, and whether it has no byte. -/
  | extent (size : Nat) (empty : Bool)
  /-- A block of memory, and how it is shown. -/
  | block (size : Nat) (empty : Bool) (shown : String)
  /-- The memory was refused. -/
  | refused
  /-- The number of a line, and how the resources with it are shown. -/
  | endpoint (line : Nat) (shown : String)
  /-- Whether an interrupt was taken. -/
  | interrupt (handled : Bool)
  | response (response : Response)
  | record (view : RecordView)
  | summary (summary : Summary)

/-- Why a step failed. -/
inductive Failure where
  | device (cause : DeviceError)
  | handshake (cause : HandshakeError)
  | stream (cause : StreamError)
  | wait (cause : WaitError)
  /-- No object has this name. -/
  | noSuchObject
  /-- The role is in the middle of a call, or was used up. -/
  | busy

/-- The outcome of a call. -/
abbrev Outcome := Except Failure Reply

/-- The answer to a step. -/
inductive Answer where
  | outcome (outcome : Outcome)
  /-- The position of a stream after an operation, and the outcome of that. -/
  | positioned (position : UInt64) (outcome : Outcome)
  /-- The call is asleep. -/
  | blocked

/-- The outcome that an answer tells, if the call has one. -/
def Answer.outcome? : Answer → Option Outcome
  | outcome o | positioned _ o => some o
  | blocked => none

end PeerBus.Scenario
