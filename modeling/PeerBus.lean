import PeerBus.CommandLine.MemoryTest
import PeerBus.Handshake.Stride
import PeerBus.Main
import PeerBus.Proofs.Run
import PeerBus.Proofs.Wait.Run
import PeerBus.Proofs.Wait.Wakeup
import PeerBus.Proofs.Doorbell
import PeerBus.Proofs.Handshake.Cells
import PeerBus.Proofs.Machine.Link
import PeerBus.Proofs.Handshake.Client
import PeerBus.Proofs.Wait.Sole
import PeerBus.Proofs.Handshake.Server
import PeerBus.Proofs.Handshake.Pair
import PeerBus.Proofs.Handshake.Net
import PeerBus.Proofs.Handshake.Faithful
import PeerBus.Proofs.Handshake.Turns
import PeerBus.Proofs.Handshake.Wake
import PeerBus.Proofs.Handshake.Slots
import PeerBus.Proofs.Handshake.Tally
import PeerBus.Proofs.Handshake.Outcome
import PeerBus.Proofs.Wait.Cancel
import PeerBus.Proofs.Machine.Wiring
import PeerBus.Proofs.Machine.Roster
import PeerBus.Proofs.Machine.Delivery
import PeerBus.Proofs.Machine.Books
import PeerBus.Proofs.Machine.Traffic
import PeerBus.Proofs.Handshake.Solo
import PeerBus.Proofs.Handshake.Verdict
import PeerBus.Proofs.Wait.Settle
import PeerBus.Proofs.Handshake.Silence
import PeerBus.Proofs.Handshake.Greeting
import PeerBus.Proofs.Handshake.Doorbells
import PeerBus.Proofs.Handshake.Ringing
import PeerBus.Proofs.Machine.Berths
import PeerBus.Proofs.Machine.Lifetime
import PeerBus.Proofs.Machine.SharedLine
import PeerBus.Proofs.Machine.Calls
import PeerBus.Proofs.Machine.Registry
import PeerBus.Proofs.Window.Transfer
import PeerBus.Proofs.Window.Words
import PeerBus.Proofs.Machine.Ports
import PeerBus.Proofs.Handshake.ServeOnce
import PeerBus.Proofs.Handshake.Retry
import PeerBus.Proofs.Window.History
import PeerBus.Proofs.Window.Stream
import PeerBus.Proofs.Window.Streams
import PeerBus.Proofs.Window.Seek
import PeerBus.Proofs.Handshake.Sessions
import PeerBus.Proofs.Handshake.Passes
import PeerBus.Proofs.Machine.Control
import PeerBus.Proofs.Handshake.Counts
import PeerBus.Proofs.Line
