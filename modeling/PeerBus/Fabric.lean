/-
# `PeerBus.Fabric` — fabrics

A fabric joins peers: it owns the window that they share and knows the endpoint of each of them.
Its list of endpoints is kept in ascending order, one entry for each peer.
-/
import PeerBus.Table
import PeerBus.Peer

namespace PeerBus

/-- An interconnect: one shared window, and an endpoint for each peer. -/
structure Fabric where
  window : Ref .region
  /-- The endpoints by ascending peer. -/
  endpoints : List (PeerId × Ref .endpoint) := []
  /-- The number of the next endpoint's line. -/
  nextLine : UInt32 := 32
  /-- Whether anybody still holds the fabric; an endpoint cannot ring through one that is gone. -/
  live : Bool := true

instance : Inhabited Fabric := ⟨{ window := ⟨0⟩, live := false }⟩

namespace Fabric

/-- The endpoint of a peer. -/
def endpoint? (f : Fabric) (peer : PeerId) : Option (Ref .endpoint) :=
  (f.endpoints.find? fun entry => entry.1 = peer).map Prod.snd

/-- The list of endpoints with that of one peer replaced or added. -/
def insertEndpoint (peer : PeerId) (endpoint : Ref .endpoint) :
    List (PeerId × Ref .endpoint) → List (PeerId × Ref .endpoint)
  | [] => [(peer, endpoint)]
  | entry :: rest =>
      if peer.number < entry.1.number then (peer, endpoint) :: entry :: rest
      else if peer = entry.1 then (peer, endpoint) :: rest
      else entry :: insertEndpoint peer endpoint rest

/-- Makes `endpoint` the endpoint of a peer. -/
def connect (f : Fabric) (peer : PeerId) (endpoint : Ref .endpoint) : Fabric :=
  { f with endpoints := insertEndpoint peer endpoint f.endpoints }

/-- Takes the endpoint of a peer away. -/
def disconnect (f : Fabric) (peer : PeerId) : Fabric :=
  { f with endpoints := f.endpoints.filter fun entry => entry.1 ≠ peer }

/-- The peers present, ascending. -/
def peers (f : Fabric) : List PeerId := f.endpoints.map Prod.fst

end Fabric

end PeerBus
