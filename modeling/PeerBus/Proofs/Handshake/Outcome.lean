/-
# `PeerBus.Proofs.Handshake.Outcome` — both roles report the same session

A client that runs with a limit draws one seed for each round, never enters a round beyond the
limit and leaves exactly when it is reached (`Client.Call.Paced`).  Each role counts the bytes of
every pass that it makes (`Client.Call.Counted`, `Server.Call.Counted`), and `data` keeps the last
seed (`Client.Call.Recalls`).  Together with the agreement of the round counters this settles what
both roles report and what the window holds once both have returned: `Link.outcome_agreed`.
-/
import PeerBus.Proofs.Handshake.Tally
import PeerBus.Proofs.Throughput

namespace PeerBus

namespace Throughput

/-- With no passes a round adds none. -/
theorem passes_of_none {rounds each : Nat} (h : each = 0) :
    rounds * each = (rounds + 1) * each := by
  rw [h, Nat.mul_zero, Nat.mul_zero]

/-- The last pass of a round completes it. -/
theorem passes_of_last {rounds each pass : Nat} (h : pass + 1 = each) :
    rounds * each + pass + 1 = (rounds + 1) * each := by
  rw [Nat.succ_mul, Nat.add_assoc, h]

end Throughput

/-! ## The client -/

namespace Client

variable {self : PeerId} {v v' : View} {c c' : Call} {seeds : Nat → UInt32} {limit : UInt64}

/-- The session is over because the limit is reached. -/
def Point.concludes : Point → Bool
  | .stop none | .farewell _ none | .returned (.ok (.summary _)) => true
  | _ => false

/-- A client keeps to its limit, and draws the seeds in order. -/
structure Call.Paced (limit : UInt64) (seeds : Nat → UInt32) (c : Call) : Prop where
  limited : c.client.config.rounds = some limit
  goal : c.goal = .run seeds (c.client.rounds + c.point.round?.isSome.toNat)
  within : ∀ {r}, c.point.round? = some r →
    c.client.rounds < limit.toNat ∧ r.seed = seeds c.client.rounds
  reached : c.point.concludes = true → c.client.rounds = limit.toNat

theorem Call.Paced.fresh {k : Client} (hlimit : k.config.rounds = some limit)
    (hrounds : k.rounds = 0) : Call.Paced limit seeds ⟨k, .run seeds 0, .identify⟩ :=
  ⟨hlimit, congrArg (Goal.run seeds) hrounds.symm, nofun, nofun⟩

theorem Between.paced {k : Client} {p : PeerId} {g : Goal}
    (h : Between k p g c) (hg : g = .run seeds k.rounds) (hlimit : k.config.rounds = some limit)
    (hle : k.rounds ≤ limit.toNat) : c.Paced limit seeds := by
  have henough : k.config.isEnough k.rounds = decide (limit.toNat ≤ k.rounds) := by
    rw [Config.isEnough, hlimit]
  subst hg
  cases h with
  | found hr | verified hr => exact nomatch hr
  | enough hn =>
      have hn := of_decide_eq_true (henough.symm.trans hn)
      exact ⟨hlimit, rfl, nofun, fun _ => Nat.le_antisymm hle hn⟩
  | next hn =>
      have hn := of_decide_eq_false (henough.symm.trans hn)
      refine ⟨hlimit, rfl, fun hr => ?_, nofun⟩
      cases hr
      exact ⟨Nat.lt_of_not_le hn, rfl⟩

theorem Goes.paced (h : Goes self v c v' c') (hc : c.Paced limit seeds)
    (hfresh : c.point.connected = false → c.client.rounds = 0)
    (hsuccess : c'.point.failed = false) : c'.Paced limit seeds := by
  cases h with
  | heededShutdown | enteredShutdown | checkedShutdown | mismatched => exact nomatch hsuccess
  | heededServer _ hb =>
      refine hb.paced hc.goal hc.limited ?_
      exact (hfresh rfl).symm ▸ Nat.zero_le _
  | loweredLast _ hb | passedLast _ _ _ hb =>
      exact hb.paced hc.goal hc.limited (hc.within rfl).1
  | @stoppedKnown _ _ cause =>
      cases cause with
      | none => exact { hc with }
      | some => exact nomatch hsuccess
  | stoppedAlone _ hs | rung hs =>
      cases hs with
      | failed => exact nomatch hsuccess
      | finished => exact { hc with }
      | done => exact { hc with reached := nofun }
  | _ => exact { hc with }

/-- The passes that a client has counted. -/
def Call.passes (c : Call) : Nat :=
  match c.point with
  | .verify _ pass _ => c.client.rounds * c.client.config.passes.toNat + pass
  | _ => c.client.rounds * c.client.config.passes.toNat

/-- A client has read every slot in each of its passes, and reports what it counted. -/
structure Call.Counted (c : Call) : Prop where
  counted : c.client.throughput =
    Throughput.afterPasses {} (.reads c.client.session.slots) c.passes
  reported : ∀ {sum}, c.point = .returned (.ok (.summary sum)) → sum = c.summary

theorem Call.Counted.fresh {k : Client} {g : Goal} (hrounds : k.rounds = 0)
    (hk : k.throughput = {}) : Call.Counted ⟨k, g, .identify⟩ := by
  refine ⟨?_, nofun⟩
  rw [Call.passes, hrounds, Nat.zero_mul, hk]
  rfl

theorem Between.counted {k : Client} {p : PeerId} {g : Goal} (h : Between k p g c)
    (hk : k.throughput = Throughput.afterPasses {} (.reads k.session.slots)
      (k.rounds * k.config.passes.toNat)) : c.Counted := by
  cases h <;> exact ⟨hk, nofun⟩

theorem Goes.counted (h : Goes self v c v' c') (hc : c.Counted) (hfits : c.Fits)
    (hsuccess : c'.point.failed = false) : c'.Counted := by
  have hcounted := hc.counted
  cases h with
  | heededShutdown | enteredShutdown | checkedShutdown | mismatched => exact nomatch hsuccess
  | heededServer _ hb => exact hb.counted hcounted
  | loweredLast hp hb =>
      exact hb.counted (hcounted.trans (congrArg _ (Throughput.passes_of_none hp)))
  | passed _ _ _ => exact ⟨Throughput.after_eq_afterPasses hcounted, nofun⟩
  | @passedLast k _ _ pass _ _ _ _ hp hb =>
      have hpass : pass + 1 = k.config.passes.toNat := Nat.le_antisymm hfits.1 hp
      exact hb.counted ((Throughput.after_eq_afterPasses hcounted).trans
        (congrArg _ (Throughput.passes_of_last hpass)))
  | @stoppedKnown _ _ cause =>
      cases cause with
      | none => exact ⟨hcounted, nofun⟩
      | some => exact nomatch hsuccess
  | stoppedAlone _ hs | rung hs =>
      cases hs with
      | failed => exact nomatch hsuccess
      | finished =>
          refine ⟨hcounted, fun hr => ?_⟩
          cases hr
          rfl
      | done => exact ⟨hcounted, nofun⟩
  | _ => exact ⟨hcounted, nofun⟩

/-- No round is asked for, and the seed of the next one is not planted. -/
def Point.pauses : Point → Bool
  | .enter _ | .clearDone _ | .plantSeed _ | .stop _ | .farewell _ _ | .returned _ => true
  | _ => false

/-- Between two rounds `data` keeps the seed of the last one. -/
def Call.Recalls (seeds : Nat → UInt32) (v : View) (c : Call) : Prop :=
  c.point.pauses = true → ∀ n, c.client.rounds = n + 1 → v.record .data = seeds n

theorem Call.Recalls.fresh {k : Client} {g : Goal} (v : View) :
    Call.Recalls seeds v ⟨k, g, .identify⟩ :=
  nofun

theorem Call.Recalls.of_data (h : c.Recalls seeds v) (hd : v'.record .data = v.record .data) :
    c.Recalls seeds v' :=
  fun hp n hn => hd.trans (h hp n hn)

theorem Goes.recalls (h : Goes self v c v' c') (hc : c.Recalls seeds v)
    (hpaced : c.Paced limit seeds)
    (hplanted : ∀ {seed}, c.point.planted? = some seed → v.record .data = seed)
    (hfresh : c.point.connected = false → c.client.rounds = 0)
    (hsuccess : c'.point.failed = false) : c'.Recalls seeds v' := by
  cases h with
  | heededShutdown | enteredShutdown | checkedShutdown | mismatched => exact nomatch hsuccess
  | heededServer _ hb =>
      intro _ n hn
      rw [hb.client] at hn
      exact nomatch (hfresh rfl).symm.trans hn
  | loweredLast _ hb | passedLast _ _ _ hb =>
      intro _ n hn
      rw [hb.client] at hn
      cases hn
      exact (hplanted rfl).trans (hpaced.within rfl).2
  | planted => exact nofun
  | stoppedAlone _ hs | rung hs => cases hs <;> exact hc
  | _ => exact hc

end Client

/-! ## The server -/

namespace Server

variable {self : PeerId} {v v' : View} {c c' : Call}

/-- The passes that a server has counted. -/
def Call.passes (c : Call) : Nat :=
  match c.point with
  | .fill _ pass _ => c.server.rounds * c.server.config.passes.toNat + pass
  | .recheckShutdown | .raiseDone | .lookCaller | .tellCaller _ =>
      (c.server.rounds + 1) * c.server.config.passes.toNat
  | _ => c.server.rounds * c.server.config.passes.toNat

/-- A server has written every slot in each of its passes, and reports what it counted. -/
structure Call.Counted (c : Call) : Prop where
  counted : c.server.throughput =
    Throughput.afterPasses {} (.writes c.server.session.slots) c.passes
  reported : ∀ {sum}, c.point = .returned (.ok (.summary sum)) → sum = c.summary

theorem Call.Counted.fresh {k : Server} {g : Goal} (hrounds : k.rounds = 0)
    (hk : k.throughput = {}) : Call.Counted ⟨k, g, .identify⟩ := by
  refine ⟨?_, nofun⟩
  rw [Call.passes, hrounds, Nat.zero_mul, hk]
  rfl

theorem Settled.counted {k : Server} {g : Goal} (h : Settled k g c)
    (hk : k.throughput = Throughput.afterPasses {} (.writes k.session.slots)
      (k.rounds * k.config.passes.toNat)) : c.Counted := by
  cases h <;> exact ⟨hk, nofun⟩

theorem Ended.counted {k : Server} {g : Goal} (h : Ended k g c)
    (hk : k.throughput = Throughput.afterPasses {} (.writes k.session.slots)
      (k.rounds * k.config.passes.toNat)) : c.Counted := by
  cases h with
  | finished =>
      refine ⟨hk, fun hr => ?_⟩
      cases hr
      rfl
  | stops => exact ⟨hk, nofun⟩

theorem Goes.counted (h : Goes self v c v' c') (hc : c.Counted) (hfits : c.Fits)
    (hopen : c.point.turn = .serves → v.record .shutdown = 0) : c'.Counted := by
  have hcounted := hc.counted
  cases h with
  | readiedKnown _ hs | sawNobody _ hs | greeted hs | ignored _ _ hs | sawNoCaller _ hs
  | told hs => exact hs.counted hcounted
  | checkedShutdown _ he => exact he.counted hcounted
  | recheckedShutdown hw _ => exact absurd (hopen rfl) hw
  | readLast hp => exact ⟨hcounted.trans (congrArg _ (Throughput.passes_of_none hp)), nofun⟩
  | passed _ _ => exact ⟨Throughput.after_eq_afterPasses hcounted, nofun⟩
  | @passedLast k _ _ pass _ _ hp =>
      have hpass : pass + 1 = k.config.passes.toNat := Nat.le_antisymm hfits.1 hp
      exact ⟨(Throughput.after_eq_afterPasses hcounted).trans
        (congrArg _ (Throughput.passes_of_last hpass)), nofun⟩
  | _ => exact ⟨hcounted, nofun⟩

end Server

/-! ## Nets -/

/-- Both sides keep account of the session. -/
structure Net.Accounted (peer : Side → PeerId) (session : Session) (config : Side → Config)
    (limit : UInt64) (seeds : Nat → UInt32) (n : Net) : Prop where
  exact : n.Exact peer session config true
  paced : n.client.Paced limit seeds
  recalls : n.client.Recalls seeds n.view
  clientCounted : n.client.Counted
  serverCounted : n.server.Counted

namespace Net

variable {peer : Side → PeerId} {session : Session} {config : Side → Config} {limit : UInt64}
  {seeds : Nat → UInt32} {n n' : Net} {a : Act}

theorem Accounted.step (h : n.Accounted peer session config limit seeds)
    (hpasses : 0 < (config .server).passes.toNat) (hclean : a.Clean)
    (hstep : Step peer n a n') : n'.Accounted peer session config limit seeds := by
  have hexact := h.exact.step hpasses hclean hstep
  have hsound := h.exact.sound
  have hsuccess := hexact.answered.success
  cases hstep with
  | idle => exact h
  | client hgoes =>
      have hfresh := h.exact.answered.finds.fresh
      exact { h with
        exact := hexact
        paced := hgoes.paced h.paced hfresh hsuccess
        recalls := hgoes.recalls h.recalls h.paced hsound.inTurn.planted hfresh hsuccess
        clientCounted := hgoes.counted h.clientCounted hsound.clientFits hsuccess }
  | server hgoes =>
      exact { h with
        exact := hexact
        recalls := h.recalls.of_data hgoes.data
        serverCounted := hgoes.counted h.serverCounted hsound.serverFits hsound.open_of_serves }
  | stray => exact { h with exact := hexact }
  | spoil _ => exact hclean.elim
  | round ha => exact absurd hsound (Sound.not_round ha)
  | serve ha => exact absurd hsound (Sound.not_serve ha)

/-- A client that has returned has done the rounds of its limit, and counted every slot. -/
theorem Accounted.client_returned (h : n.Accounted peer session config limit seeds)
    (hmove : n.client.move = none) :
    n.client.point = .returned (.ok (.summary ⟨limit.toNat, Throughput.afterPasses {}
      (.reads session.slots) (limit.toNat * (config .client).passes.toNat)⟩)) ∧
    n.client.client.rounds = limit.toNat := by
  have hsound := h.exact.sound
  obtain ⟨sum, hpoint⟩ := Client.summary_of_move_none hmove hsound.clientFits hsound.clientRuns
    h.exact.answered.success
  have hrounds : n.client.client.rounds = limit.toNat := h.paced.reached (by rw [hpoint]; rfl)
  have hcounted := h.clientCounted.counted
  have hpasses : n.client.passes =
      n.client.client.rounds * n.client.client.config.passes.toNat := by
    rw [Client.Call.passes, hpoint]
  rw [hpasses, hrounds, hsound.clientConfig, hsound.clientSession] at hcounted
  refine ⟨?_, hrounds⟩
  rw [hpoint, h.clientCounted.reported hpoint, Client.Call.summary, hrounds, hcounted]

/-- A server that has returned has served the rounds of the client's limit, and counted every
slot. -/
theorem Accounted.server_returned (h : n.Accounted peer session config limit seeds)
    (hclient : n.client.move = none) (hmove : n.server.move = none) :
    n.server.point = .returned (.ok (.summary ⟨limit.toNat, Throughput.afterPasses {}
      (.writes session.slots) (limit.toNat * (config .server).passes.toNat)⟩)) := by
  have hsound := h.exact.sound
  obtain ⟨-, hclientRounds⟩ := h.client_returned hclient
  obtain ⟨ended, hclientPoint⟩ := Client.point_of_move_none hclient
  obtain ⟨sum, hpoint⟩ := Server.summary_of_move_none hmove hsound.serverFits
    (hsound.serverRuns.mpr rfl)
  have hrounds : n.server.server.rounds = limit.toNat := by
    have htally := (Tally.iff_of_rests hsound.inTurn (by rw [hclientPoint]; rfl)
      (by rw [hclientPoint]; rfl)).mp h.exact.tally
    rw [hpoint, hclientRounds] at htally
    exact htally
  have hcounted := h.serverCounted.counted
  have hpasses : n.server.passes =
      n.server.server.rounds * n.server.server.config.passes.toNat := by
    rw [Server.Call.passes, hpoint]
  rw [hpasses, hrounds, hsound.serverConfig, hsound.serverSession] at hcounted
  rw [hpoint, h.serverCounted.reported hpoint, Server.Call.summary, hrounds, hcounted]

end Net

/-! ## The end of a session -/

/-- What a window holds after so many rounds, once both roles have left it. -/
structure Memory.Concluded (peer : Side → PeerId) (slots : Nat) (seeds : Nat → UInt32)
    (rounds : Nat) (memory : Memory) : Prop where
  start : memory.field .start = 0
  done : memory.field .done = 0
  shutdown : memory.field .shutdown = 1
  ready : memory.field .ready = Marker.ready
  server : memory.server? = some (peer .server)
  client : memory.client? = some (peer .client)
  data : ∀ last, rounds = last + 1 → memory.field .data = seeds last
  slotWord : ∀ last, rounds = last + 1 → ∀ i, i < slots →
    memory.slotWord i = Layout.pattern i (seeds last)

namespace Link

variable {w : Link} {session : Session} {config : Side → Config} {limit : UInt64}
  {seeds : Nat → UInt32} {s t : System} {acts : List Act}

theorem Opening.accounted (h : w.Opening session config (.run seeds 0) .run s)
    (hlimit : (config .client).rounds = some limit) :
    (w.net s).Accounted w.peer session config limit seeds := by
  have hexact := h.exact nofun nofun ⟨fun _ => rfl, fun _ => rfl⟩
  rw [net, h.client_role nofun, h.server_role nofun] at hexact ⊢
  exact
    { exact := hexact
      paced := .fresh hlimit rfl
      recalls := .fresh _
      clientCounted := .fresh rfl rfl
      serverCounted := .fresh rfl rfl }

/-- The window of a system in which both roles have returned. -/
theorem concluded (h : (w.net t).Accounted w.peer session config limit seeds)
    (hclient : (w.net t).client.move = none) (hserver : (w.net t).server.move = none) :
    (t.machine.regions.get w.region).Concluded w.peer session.slots.toNat seeds limit.toNat := by
  have hf := h.exact.sound.faithful
  have hturns := h.exact.sound.inTurn.turns
  have hrecalls := h.recalls
  obtain ⟨hclientPoint, hrounds⟩ := h.client_returned hclient
  have hserverPoint := h.server_returned hclient hserver
  have hfilled := h.exact.answered.finds.returned hclientPoint
  rw [hclientPoint, hserverPoint] at hturns
  have hdata : ∀ last, limit.toNat = last + 1 → (w.net t).view.record .data = seeds last :=
    fun last hlast => hrecalls (by rw [hclientPoint]; rfl) last (hrounds.trans hlast)
  exact
    { start := hturns.1
      done := hturns.2
      shutdown := by
        have hshutdown := hf.shutdown
        rw [hclientPoint] at hshutdown
        exact hshutdown
      ready := by
        have hready := hf.ready
        rw [hserverPoint] at hready
        exact hready
      server := hf.decode_server (by rw [hserverPoint]; rfl)
      client := hf.decode_client (by rw [hclientPoint]; rfl)
      data := hdata
      slotWord := fun last hlast i hi =>
        hdata last hlast ▸ hfilled (by omega) i hi }

/-- The slots of a session are within the words that can be counted. -/
theorem Opening.room (h : w.Opening session config (.run seeds 0) .run s) :
    session.slots.toNat < 2 ^ 62 := by
  obtain ⟨size, -, hopen⟩ := h.window
  obtain ⟨-, -, hroom⟩ := Session.of_open hopen
  have hsize := size.toNat_lt
  omega

/-- A client that runs up to a limit, and a server that runs, agree on what they did.  Whenever
both have returned, neither with an error, each reports as many rounds as the limit allows:

* the client has read, and the server has written, every slot in every pass of every round, and
  both say so, as far as a word can count;
* the window holds no sign of a round under way, the end of the session, both ids, the last seed
  and its answer. -/
theorem outcome_agreed (hopening : w.Opening session config (.run seeds 0) .run s)
    (hlimit : (config .client).rounds = some limit)
    (hpasses : 0 < (config .server).passes.toNat) (hrun : Run w.Step s acts t)
    (hclean : ∀ a ∈ acts, a.Clean) (hclient : Role.move t.client.role = none)
    (hserver : Role.move t.server.role = none) :
    ∃ read written : UInt64,
      t.client.role.point = .returned (.ok (.summary ⟨limit.toNat, ⟨0, read⟩⟩)) ∧
      t.server.role.point = .returned (.ok (.summary ⟨limit.toNat, ⟨written, 0⟩⟩)) ∧
      read.toNat = min (UInt64.size - 1)
        (4 * session.slots.toNat * (config .client).passes.toNat * limit.toNat) ∧
      written.toNat = min (UInt64.size - 1)
        (4 * session.slots.toNat * (config .server).passes.toNat * limit.toNat) ∧
      (t.machine.regions.get w.region).Concluded w.peer session.slots.toNat seeds limit.toNat := by
  obtain ⟨-, h⟩ := hopening.sane.run (fun h => h.exact.sound.proper)
    (fun ha h hs => h.step hpasses ha hs) (hopening.accounted hlimit) hrun hclean
  let t₁ := Throughput.afterPasses {} (.reads session.slots)
    (limit.toNat * (config .client).passes.toNat)
  let t₂ := Throughput.afterPasses {} (.writes session.slots)
    (limit.toNat * (config .server).passes.toNat)
  have hwritten : t₁.written = 0 :=
    Throughput.afterPasses_keeps _ (fun t => t.written_after_reads _) {} _
  have hread : t₂.read = 0 := Throughput.afterPasses_keeps _ (fun t => t.read_after_writes _) {} _
  refine ⟨t₁.read, t₂.written, ?_, ?_, ?_, ?_, concluded h hclient hserver⟩
  · rw [← hwritten]
    exact (h.client_returned hclient).1
  · rw [← hread]
    exact h.server_returned hclient hserver
  · have hbytes := (Throughput.toNat_afterPasses (e := .reads session.slots) hopening.room {}
      (limit.toNat * (config .client).passes.toNat)).2
    refine hbytes.trans ?_
    rw [Nat.mul_comm limit.toNat, ← Nat.mul_assoc]
    exact congrArg _ (Nat.zero_add _)
  · have hbytes := (Throughput.toNat_afterPasses (e := .writes session.slots) hopening.room {}
      (limit.toNat * (config .server).passes.toNat)).1
    refine hbytes.trans ?_
    rw [Nat.mul_comm limit.toNat, ← Nat.mul_assoc]
    exact congrArg _ (Nat.zero_add _)

end Link

namespace Small

/-- Two rounds from beginning to end, the two roles step by step in turn. -/
def wholeSession : List Act :=
  (List.replicate 70 [Act.client, .server]).flatten ++ [.server]

theorem outcome_agreed_wholeSession :
    ∃ t, Run link.Step (system (.run seeds 0) .run) wholeSession t ∧
      t.client.role.point = .returned (.ok (.summary ⟨2, ⟨0, 64⟩⟩)) ∧
      t.server.role.point = .returned (.ok (.summary ⟨2, ⟨32, 0⟩⟩)) ∧
      (t.machine.regions.get link.region).Concluded link.peer 4 seeds 2 := by
  have hreplay :
      (wholeSession.foldlM link.act (system (.run seeds 0) .run)).any
        (fun t => (Role.move t.client.role).isNone && (Role.move t.server.role).isNone) = true := by
    decide +kernel
  obtain ⟨t, hrun, hreturned⟩ := Run.exists_of_any hreplay
  obtain ⟨hclient, hserver⟩ := Bool.and_eq_true_iff.mp hreturned
  obtain ⟨read, written, hc, hs, hread, hwritten, hconcluded⟩ :=
    Link.outcome_agreed (opening (.run seeds 0) .run) rfl (by decide) hrun (by decide +kernel)
      (Option.isNone_iff_eq_none.mp hclient) (Option.isNone_iff_eq_none.mp hserver)
  obtain rfl : read = 64 := UInt64.toNat_inj.mp hread
  obtain rfl : written = 32 := UInt64.toNat_inj.mp hwritten
  exact ⟨t, hrun, hc, hs, hconcluded⟩

end Small

end PeerBus
