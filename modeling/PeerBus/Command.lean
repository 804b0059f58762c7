/-
# `PeerBus.Command` — commands

The eight commands of the control plane.  A command's code is its number there and, for the
commands that ring, the low byte of the doorbell message as well.  `ofCode?_code` and
`code_of_ofCode?` say that the codes 0 to 7 and the commands are one and the same.
-/
namespace PeerBus

/-- A control command, and the operation that a doorbell asks for. -/
inductive Command where
  /-- Overwrite the semaphore count. -/
  | setSema
  /-- Wait for a unit of the semaphore. -/
  | downSema
  /-- Ring a peer with the code that signals nothing. -/
  | empty
  /-- Wait for the event flag. -/
  | waitEvent
  /-- Ring a peer's event channel. -/
  | waitEventIrq
  /-- Report the own position. -/
  | readIvPosn
  /-- Report the peers present; reserved. -/
  | readLivelist
  /-- Ring a peer's semaphore channel. -/
  | semaIrq
  deriving DecidableEq

namespace Command

/-- Every command, by ascending code. -/
def all : List Command :=
  [setSema, downSema, empty, waitEvent, waitEventIrq, readIvPosn, readLivelist, semaIrq]

/-- The code of a command. -/
def code : Command → UInt8
  | setSema => 0
  | downSema => 1
  | empty => 2
  | waitEvent => 3
  | waitEventIrq => 4
  | readIvPosn => 5
  | readLivelist => 6
  | semaIrq => 7

/-- The command with a given code. -/
def ofCode? (code : UInt8) : Option Command :=
  match code.toNat with
  | 0 => some setSema
  | 1 => some downSema
  | 2 => some empty
  | 3 => some waitEvent
  | 4 => some waitEventIrq
  | 5 => some readIvPosn
  | 6 => some readLivelist
  | 7 => some semaIrq
  | _ => none

/-- The command with a given 32-bit number; numbers beyond a byte name none. -/
def ofNumber? (number : UInt32) : Option Command :=
  if number.toNat ≤ 255 then ofCode? number.toUInt8 else none

/-- The commands that write the doorbell register. -/
def isRing : Command → Bool
  | empty | waitEventIrq | semaIrq => true
  | _ => false

/-- The command whose doorbell signals the semaphore. -/
def signalsSemaphore : Command → Bool
  | semaIrq => true
  | _ => false

/-- The command whose doorbell signals the event flag. -/
def signalsEvent : Command → Bool
  | waitEventIrq => true
  | _ => false

/-- The short name of a command. -/
def name : Command → String
  | setSema => "set_sema"
  | downSema => "down_sema"
  | empty => "empty"
  | waitEvent => "wait_event"
  | waitEventIrq => "wait_event_irq"
  | readIvPosn => "read_ivposn"
  | readLivelist => "read_livelist"
  | semaIrq => "sema_irq"

/-- The text that shows a command with its code. -/
def describe (c : Command) : String := s!"{c.name}({c.code.toNat})"

theorem ofCode?_code (c : Command) : ofCode? c.code = some c := by
  cases c <;> rfl

theorem code_of_ofCode? {b : UInt8} {c : Command} (h : ofCode? b = some c) : c.code = b := by
  rw [← UInt8.toNat_inj]
  unfold ofCode? at h
  split at h
  all_goals
    rename_i e
    cases h
    try exact e.symm

end Command

end PeerBus
