/-
# `PeerBus.Handshake.Record` — the control record of a window

The two sides of a handshake talk through seven fields at the start of one window, each read and
written as one word.
-/
import PeerBus.Layout
import PeerBus.Window.Memory

namespace PeerBus

namespace Memory

/-- The word in a field; zero if the window does not reach that far. -/
def field (m : Memory) (f : Field) : UInt32 := (m.load? f.offset).getD 0

/-- Writes a field; a window that does not reach that far stays as it is. -/
def setField (m : Memory) (f : Field) (value : UInt32) : Memory := (m.store f.offset value).2

/-- The published server. -/
def server? (m : Memory) : Option PeerId := Published.decode? (m.field .ivServer)

/-- The published client. -/
def client? (m : Memory) : Option PeerId := Published.decode? (m.field .ivClient)

/-- Whether the server listens. -/
def isReady (m : Memory) : Bool := m.field .ready = Marker.ready

/-- Whether a round is asked for. -/
def isStarted (m : Memory) : Bool := m.field .start = Marker.start

/-- Whether a round is filled. -/
def isDone (m : Memory) : Bool := m.field .done = Marker.done

/-- Whether the session was ended. -/
def isShutdown (m : Memory) : Bool := m.field .shutdown ≠ 0

/-- Publishes the server. -/
def publishServer (m : Memory) (peer : PeerId) : Memory :=
  m.setField .ivServer (Published.encode peer)

/-- Publishes the client. -/
def publishClient (m : Memory) (peer : PeerId) : Memory :=
  m.setField .ivClient (Published.encode peer)

/-- Asks for the end of the session. -/
def requestShutdown (m : Memory) : Memory := m.setField .shutdown 1

end Memory

end PeerBus
