/-
# `PeerBus.Peer` — peers on the bus

A peer is known by its position, a 16-bit number; zero is a peer like any other.  Registers are
32 bits wide, of which a position takes the lower half.
-/
namespace PeerBus

/-- The position of a peer on the bus. -/
structure PeerId where
  number : UInt16
  deriving DecidableEq

namespace PeerId

/-- The position reported by a register; the upper half of the word says nothing. -/
def ofRegister (raw : UInt32) : PeerId := ⟨raw.toUInt16⟩

/-- The position as a register word. -/
def toRegister (p : PeerId) : UInt32 := p.number.toUInt32

/-- The name of a peer in messages. -/
def label (p : PeerId) : String := s!"peer:{p.number.toNat}"

/-- The text that shows a position as a value. -/
def describe (p : PeerId) : String := s!"PeerId({p.number.toNat})"

/-- The peer that stands for "not told otherwise". -/
def first : PeerId := ⟨0⟩

/-- Peers in ascending order. -/
def sort (peers : List PeerId) : List PeerId :=
  peers.mergeSort fun p q => decide (p.number ≤ q.number)

theorem ofRegister_toRegister (p : PeerId) : ofRegister p.toRegister = p := by
  simp [ofRegister, toRegister]

end PeerId

end PeerBus
