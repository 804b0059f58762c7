/-
# `PeerBus.Handshake.Stride` — a stride is many moves

A role that nobody comes between may take all the slot accesses of its round in one stride
(`Role.stride`).  Proved here: a stride leaves the machine and the role exactly where the single
accesses would have left them (`Server.walk_stride`, `Client.walk_stride`).

Two facts carry the proofs.  Filling twice is filling once (`Memory.fill_fill`), so the passes of
a server do to the memory what one of them does; and a pass of a client changes no byte, so every
pass finds what the first one found.
-/
import PeerBus.Handshake.Client
import PeerBus.Handshake.Server

namespace PeerBus

/-- If a step goes on inside `g` as another step, so do many. -/
theorem repeat_inside {α β : Type} {f : α → α} {f' : β → β} {g : β → α}
    (h : ∀ b, f (g b) = g (f' b)) (n : Nat) (b : β) :
    Nat.repeat f n (g b) = g (Nat.repeat f' n b) := by
  induction n with
  | zero => rfl
  | succ n ih => exact (congrArg f ih).trans (h _)

namespace Machine

theorem modifyRegion_modifyRegion (m : Machine) (region : Ref .region) (f g : Memory → Memory) :
    (m.modifyRegion region f).modifyRegion region g =
      m.modifyRegion region fun memory => g (f memory) := by
  simp only [modifyRegion, Table.modify_modify]
  rfl

theorem modifyRegion_id (m : Machine) (region : Ref .region) :
    (m.modifyRegion region fun memory => memory) = m := by
  simp only [modifyRegion, Table.modify_id]

/-- A role makes a number of accesses, none of which puts it to sleep. -/
def walk {ρ : Type} [Role ρ] : Nat → Machine → CallId → ρ → Option (Machine × ρ)
  | 0, m, _, role => some (m, role)
  | n + 1, m, call, role =>
      match m.advance call role with
      | some (m, .next role) => walk n m call role
      | some (_, .parked _) | none => none

variable {ρ : Type} [Role ρ]

theorem walk_add {n k : Nat} {m m' m'' : Machine} {call : CallId} {r r' r'' : ρ}
    (h : m.walk n call r = some (m', r')) (h' : m'.walk k call r' = some (m'', r'')) :
    m.walk (n + k) call r = some (m'', r'') := by
  induction n generalizing m r with
  | zero =>
    simp only [walk, Option.some.injEq, Prod.mk.injEq] at h
    obtain ⟨rfl, rfl⟩ := h
    rwa [Nat.zero_add]
  | succ n ih =>
    rw [Nat.succ_add, walk]
    rw [walk] at h
    split at h
    · exact ih h
    · cases h
    · cases h

end Machine

/-! ## The server -/

namespace Server

/-- The slots of the session that a call works in. -/
def Call.slots (c : Call) : Nat := c.server.session.slots.toNat

/-- The memory that a call works in. -/
def Call.region (c : Call) : Ref .region := c.server.session.region

/-- The rest of a pass, from a slot that there is. -/
theorem walk_pass (m : Machine) (id : CallId) (c : Call) (seed : UInt32) (pass index k : Nat)
    (hk : index + (k + 1) = c.slots) :
    m.walk (k + 1) id (c.goTo (.fill seed pass index)) =
      some (m.modifyRegion c.region (Memory.fillFrom seed (k + 1) index),
        Call.beginPass { c with server := Call.countPass c.server } seed (pass + 1)) := by
  induction k generalizing m index with
  | zero =>
    have hlast : ¬(index + 1 < c.server.session.slots.toNat) := by
      simp only [Call.slots] at hk
      omega
    simp only [Machine.walk, Machine.advance, Role.move, Call.move, Call.goTo, Option.map_some,
      Machine.perform, hlast, if_false]
    rfl
  | succ k ih =>
    have hmore : index + 1 < c.server.session.slots.toNat := by
      simp only [Call.slots] at hk
      omega
    rw [Machine.walk]
    simp only [Machine.advance, Role.move, Call.move, Call.goTo, Option.map_some,
      Machine.perform, hmore, if_true]
    have := ih (m.modifyRegion c.region fun memory =>
      memory.setSlotWord index (Layout.pattern index seed)) (index + 1) (by omega)
    rw [Machine.modifyRegion_modifyRegion] at this
    exact this

/-- The rest of the passes, of which there is one at least. -/
theorem walk_passes (m : Machine) (id : CallId) (c : Call) (seed : UInt32) (pass q : Nat)
    (hslots : 0 < c.slots) (hq : pass + (q + 1) = c.server.config.passes.toNat) :
    m.walk ((q + 1) * c.slots) id (c.goTo (.fill seed pass 0)) =
      some (m.modifyRegion c.region fun memory => memory.fill c.slots seed,
        Call.goTo { c with server := Nat.repeat Call.countPass (q + 1) c.server }
          .recheckShutdown) := by
  have hk : 0 + ((c.slots - 1) + 1) = c.slots := by omega
  have hfirst := walk_pass m id c seed pass 0 (c.slots - 1) hk
  rw [show c.slots - 1 + 1 = c.slots by omega] at hfirst
  induction q generalizing m c pass with
  | zero =>
    have hlast : ¬(pass + 1 < c.server.config.passes.toNat) := by omega
    rw [Nat.zero_add, Nat.one_mul, hfirst, Call.beginPass]
    show some (_, if pass + 1 < c.server.config.passes.toNat then _ else _) = _
    rw [if_neg hlast]
    rfl
  | succ q ih =>
    have hmore : pass + 1 < c.server.config.passes.toNat := by omega
    have hgo : Call.beginPass { c with server := Call.countPass c.server } seed (pass + 1) =
        Call.goTo { c with server := Call.countPass c.server } (.fill seed (pass + 1) 0) :=
      if_pos hmore
    have hpass := walk_pass (m.modifyRegion c.region fun memory => memory.fill c.slots seed) id
      { c with server := Call.countPass c.server } seed (pass + 1) 0 (c.slots - 1) hk
    rw [show c.slots - 1 + 1 = c.slots by omega] at hpass
    have hnext := ih (m.modifyRegion c.region fun memory => memory.fill c.slots seed)
      { c with server := Call.countPass c.server } (pass + 1) hslots
      (by show pass + 1 + (q + 1) = c.server.config.passes.toNat; omega) hk hpass
    rw [show (q + 1 + 1) * c.slots = c.slots + (q + 1) * c.slots by
      rw [Nat.add_mul (q + 1) 1, Nat.one_mul, Nat.add_comm]]
    rw [hgo] at hfirst
    refine Machine.walk_add hfirst (hnext.trans ?_)
    refine congrArg some (Prod.ext ?_ ?_)
    · refine (Machine.modifyRegion_modifyRegion m c.region _ _).trans ?_
      refine congrArg (m.modifyRegion c.region) (funext fun memory => ?_)
      exact Memory.fill_fill memory c.slots seed
    · refine congrArg (fun server => Call.goTo ⟨server, c.goal, c.point⟩ .recheckShutdown) ?_
      -- counting one more pass first or last makes no difference
      exact repeat_inside (fun _ => rfl) (q + 1) c.server

/-- A stride of a server is one access for each slot and pass. -/
theorem walk_stride (m : Machine) (id : CallId) (c : Call) (seed : UInt32)
    (hpoint : c.point = .fill seed 0 0) (hslots : 0 < c.slots)
    (hpasses : 0 < c.server.config.passes.toNat) :
    ∃ next change, c.stride = some (next, change) ∧
      m.walk (c.server.config.passes.toNat * c.slots) id c =
        some (m.modifyRegion c.region change, next (m.regions.get c.region)) := by
  obtain ⟨server, goal, point⟩ := c
  subst hpoint
  refine ⟨_, _, rfl, ?_⟩
  obtain ⟨q, hq⟩ : ∃ q, server.config.passes.toNat = q + 1 :=
    ⟨_, (Nat.succ_pred_eq_of_pos hpasses).symm⟩
  have h := walk_passes m id ⟨server, goal, .fill seed 0 0⟩ seed 0 q hslots
    (by rw [Nat.zero_add]; exact hq.symm)
  simp only [hq] at h ⊢
  exact h

end Server

/-! ## The client -/

namespace Client

/-- The slots of the session that a call works in. -/
def Call.slots (c : Call) : Nat := c.client.session.slots.toNat

/-- The memory that a call works in. -/
def Call.region (c : Call) : Ref .region := c.client.session.region

/-- What a pass from a slot on comes to, given what is wrong with the memory. -/
def Call.afterPass (c : Call) (round : Round) (pass : Nat) : Option Mismatch → Call
  | some wrong => c.goTo (.stop (some (.mismatch wrong)))
  | none => Call.beginPass { c with client := Call.countPass c.client } round (pass + 1)

/-- Where a call stands before its next pass does not matter to it. -/
theorem beginPass_of_point (c : Call) (point : Point) (round : Round) (pass : Nat) :
    Call.beginPass { c with point := point } round pass = c.beginPass round pass := by
  obtain ⟨client, goal, before⟩ := c
  cases goal <;> rfl

/-- The accesses of a pass of `count` slots from `index` on: it ends at the first wrong one. -/
def passLength (memory : Memory) (seed : UInt32) : Nat → Nat → Nat
  | 0, _ => 0
  | count + 1, index =>
      match memory.mismatchAt? seed index with
      | some _ => 1
      | none => passLength memory seed count (index + 1) + 1

/-- The rest of a pass, from a slot that there is. -/
theorem walk_pass (m : Machine) (id : CallId) (c : Call) (round : Round) (pass index k : Nat)
    (hk : index + (k + 1) = c.slots) :
    m.walk (passLength (m.regions.get c.region) round.seed (k + 1) index) id
        (c.goTo (.verify round pass index)) =
      some (m, c.afterPass round pass
        ((m.regions.get c.region).checkFrom round.seed (k + 1) index)) := by
  induction k generalizing index with
  | zero =>
    have hlast : ¬(index + 1 < c.client.session.slots.toNat) := by
      simp only [Call.slots] at hk
      omega
    by_cases hw : (m.regions.get c.client.session.region).slotWord index =
        Layout.pattern index round.seed
    · simp only [passLength, Memory.checkFrom, Memory.mismatchAt?, Call.region, hw, if_true,
        Machine.walk, Machine.advance, Role.move, Call.move, Call.goTo, Option.map_some,
        Machine.perform, Role.session, ne_eq, not_true, if_false, hlast, Call.afterPass]
      exact congrArg (fun c => some (m, c)) (beginPass_of_point _ c.point round (pass + 1)).symm
    · simp only [passLength, Memory.checkFrom, Memory.mismatchAt?, Call.region, hw, if_false,
        Machine.walk, Machine.advance, Role.move, Call.move, Call.goTo, Option.map_some,
        Machine.perform, Role.session, ne_eq, not_false_eq_true, if_true, Call.afterPass]
  | succ k ih =>
    have hmore : index + 1 < c.client.session.slots.toNat := by
      simp only [Call.slots] at hk
      omega
    have hrest := ih (index + 1) (by omega)
    by_cases hw : (m.regions.get c.client.session.region).slotWord index =
        Layout.pattern index round.seed
    · rw [passLength, Memory.checkFrom]
      simp only [Memory.mismatchAt?, Call.region, hw, if_true]
      rw [Machine.walk]
      simp only [Machine.advance, Role.move, Call.move, Call.goTo, Option.map_some,
        Machine.perform, Role.session, hw, ne_eq, not_true, if_false, hmore, if_true]
      exact hrest
    · rw [passLength, Memory.checkFrom]
      simp only [Memory.mismatchAt?, Call.region, hw, if_false,
        Machine.walk, Machine.advance, Role.move, Call.move, Call.goTo, Option.map_some,
        Machine.perform, Role.session, ne_eq, not_false_eq_true, if_true, Call.afterPass]

/-- The rest of the passes over a good memory, of which there is one at least. -/
theorem walk_passes (m : Machine) (id : CallId) (c : Call) (round : Round) (pass q : Nat)
    (hslots : 0 < c.slots) (hq : pass + (q + 1) = c.client.config.passes.toNat)
    (hgood : (m.regions.get c.region).check c.slots round.seed = none) :
    m.walk ((q + 1) * passLength (m.regions.get c.region) round.seed c.slots 0) id
        (c.goTo (.verify round pass 0)) =
      some (m, Call.roundVerified
        { c with client := Nat.repeat Call.countPass (q + 1) c.client } round) := by
  have hk : 0 + ((c.slots - 1) + 1) = c.slots := by omega
  have hfirst := walk_pass m id c round pass 0 (c.slots - 1) hk
  rw [show c.slots - 1 + 1 = c.slots by omega, ← Memory.check, hgood] at hfirst
  induction q generalizing c pass with
  | zero =>
    have hlast : ¬(pass + 1 < c.client.config.passes.toNat) := by omega
    rw [Nat.zero_add, Nat.one_mul, hfirst]
    exact congrArg (fun c => some (m, c)) (if_neg hlast)
  | succ q ih =>
    have hmore : pass + 1 < c.client.config.passes.toNat := by omega
    have hgo : c.afterPass round pass none =
        Call.goTo { c with client := Call.countPass c.client } (.verify round (pass + 1) 0) :=
      if_pos hmore
    have hpass := walk_pass m id { c with client := Call.countPass c.client } round (pass + 1) 0
      (c.slots - 1) hk
    rw [show c.slots - 1 + 1 = c.slots by omega, ← Memory.check] at hpass
    have hnext := ih { c with client := Call.countPass c.client } (pass + 1) hslots
      (by show pass + 1 + (q + 1) = c.client.config.passes.toNat; omega) hgood hk
      (by rw [← hgood]; exact hpass)
    rw [Nat.succ_mul, Nat.add_comm]
    rw [hgo] at hfirst
    refine Machine.walk_add hfirst (hnext.trans ?_)
    refine congrArg (fun client => some (m, Call.roundVerified ⟨client, c.goal, c.point⟩ round)) ?_
    exact repeat_inside (fun _ => rfl) (q + 1) c.client

/-- A stride of a client is one access for each slot and pass, up to the first wrong slot. -/
theorem walk_stride (m : Machine) (id : CallId) (c : Call) (round : Round)
    (hpoint : c.point = .verify round 0 0) (hslots : 0 < c.slots)
    (hpasses : 0 < c.client.config.passes.toNat) :
    ∃ next change accesses, c.stride = some (next, change) ∧
      m.walk accesses id c =
        some (m.modifyRegion c.region change, next (m.regions.get c.region)) := by
  obtain ⟨client, goal, point⟩ := c
  subst hpoint
  obtain ⟨q, hq⟩ : ∃ q, client.config.passes.toNat = q + 1 :=
    ⟨_, (Nat.succ_pred_eq_of_pos hpasses).symm⟩
  cases hcheck : (m.regions.get client.session.region).check client.session.slots.toNat
      round.seed with
  | none =>
    refine ⟨_, _, (q + 1) * passLength (m.regions.get client.session.region) round.seed
      client.session.slots.toNat 0, rfl, ?_⟩
    have h := walk_passes m id ⟨client, goal, .verify round 0 0⟩ round 0 q hslots
      (by rw [Nat.zero_add]; exact hq.symm) hcheck
    refine h.trans ?_
    simp only [Call.region, hcheck, hq, Machine.modifyRegion_id]
  | some wrong =>
    refine ⟨_, _, passLength (m.regions.get client.session.region) round.seed
      client.session.slots.toNat 0, rfl, ?_⟩
    have hk : 0 + ((client.session.slots.toNat - 1) + 1) = client.session.slots.toNat := by
      have : 0 < client.session.slots.toNat := hslots
      omega
    have h := walk_pass m id ⟨client, goal, .verify round 0 0⟩ round 0 0
      (client.session.slots.toNat - 1) hk
    rw [show client.session.slots.toNat - 1 + 1 = client.session.slots.toNat by omega] at h
    refine h.trans ?_
    simp only [Memory.check] at hcheck
    simp only [Call.region, hcheck, Call.afterPass, Memory.check, Machine.modifyRegion_id]

end Client

end PeerBus
