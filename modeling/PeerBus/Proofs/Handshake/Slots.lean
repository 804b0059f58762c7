/-
# `PeerBus.Proofs.Handshake.Slots` — what the slots hold

As long as nobody but the server writes to the slots, what they hold follows from where the two
roles are: they fill up from the front while the server fills, they hold the whole answer from the
end of its first pass on, and they keep it until the client plants the next seed
(`Server.Point.Leaves`, `Client.Call.Finds`).  Whenever `done` is set the answer is complete, and
so no client ever finds a slot that is wrong (`Answered`).

The server must make one pass at least: with none it would set `done` over slots that it never
touched.
-/
import PeerBus.Proofs.Handshake.Turns

namespace PeerBus

/-! ## Filled slots -/

/-- The first `count` slots hold the answer to the seed in `data`. -/
def View.Filled (v : View) (count : Nat) : Prop :=
  ∀ i, i < count → v.slot i = Layout.pattern i (v.record .data)

namespace View.Filled

variable {v : View} {count : Nat}

theorem zero : v.Filled 0 :=
  fun _ hi => absurd hi (Nat.not_lt_zero _)

theorem mono (h : v.Filled count) {less : Nat} (hle : less ≤ count) : v.Filled less :=
  fun i hi => h i (Nat.lt_of_lt_of_le hi hle)

theorem storeSlot (h : v.Filled count) (i : Nat) :
    (v.storeSlot i (Layout.pattern i (v.record .data))).Filled count := by
  intro j hj
  by_cases hji : j = i
  · subst hji
    exact View.storeSlot_self ..
  · exact (View.storeSlot_of_ne v hji _).trans (h j hj)

theorem succ {i : Nat} (h : v.Filled i) :
    (v.storeSlot i (Layout.pattern i (v.record .data))).Filled (i + 1) := by
  intro j hj
  by_cases hji : j = i
  · subst hji
    exact View.storeSlot_self ..
  · exact (View.storeSlot_of_ne v hji _).trans (h j (by omega))

end View.Filled

/-- What a server has made of the slots so far. -/
def Server.Point.Leaves (v : View) (slots : Nat) : Server.Point → Prop
  | .fill _ pass index => v.Filled index ∧ (0 < pass → v.Filled slots)
  | .recheckShutdown | .raiseDone => v.Filled slots
  | _ => True

theorem Server.Point.leaves_of_idles {v : View} {slots : Nat} {p : Server.Point}
    (h : p.turn = .idles) : p.Leaves v slots := by
  cases p with
  | fill | recheckShutdown | raiseDone => exact nomatch h
  | _ => trivial

/-- What a client can rely on: the answer to the round under way once it has seen `done`, and the
answer to the last round until it plants the next seed. -/
def Client.Call.Finds (v : View) (slots : Nat) : Client.Call → Prop
  | ⟨_, _, .lowerDone _⟩ | ⟨_, _, .verify _ _ _⟩ => v.Filled slots
  | ⟨k, _, .enter _⟩ | ⟨k, _, .clearDone _⟩ | ⟨k, _, .plantSeed _⟩ | ⟨k, _, .stop _⟩
  | ⟨k, _, .farewell _ _⟩ | ⟨k, _, .returned _⟩ => 0 < k.rounds → v.Filled slots
  | ⟨_, _, .raiseStart _⟩ | ⟨_, _, .callServer _⟩ | ⟨_, _, .await _⟩ | ⟨_, _, .checkShutdown _⟩
  | ⟨_, _, .checkDone _⟩ => True
  | ⟨k, _, _⟩ => k.rounds = 0

theorem Client.Call.Finds.storeSlot {v : View} {slots : Nat} {c : Client.Call}
    (h : c.Finds v slots) (i : Nat) :
    c.Finds (v.storeSlot i (Layout.pattern i (v.record .data))) slots := by
  obtain ⟨k, g, point⟩ := c
  cases point with
  | lowerDone | verify => exact View.Filled.storeSlot h i
  | enter | clearDone | plantSeed | stop | farewell | returned =>
      exact fun hr => View.Filled.storeSlot (h hr) i
  | _ => exact h

theorem Client.Call.Finds.fresh {v : View} {slots : Nat} {c : Client.Call}
    (h : c.Finds v slots) (hc : c.point.connected = false) : c.client.rounds = 0 := by
  obtain ⟨k, g, point⟩ := c
  cases point <;> first | exact h | exact nomatch hc

theorem Client.Call.Finds.returned {v : View} {slots : Nat} {c : Client.Call}
    (h : c.Finds v slots) {ended : Ended} (hp : c.point = .returned ended) :
    0 < c.client.rounds → v.Filled slots := by
  obtain ⟨k, g, point⟩ := c
  obtain rfl : point = .returned ended := hp
  exact h

theorem Client.Between.finds {v : View} {slots : Nat} {k : Client} {p : PeerId}
    {g : Client.Goal} {c : Client.Call} (h : Client.Between k p g c)
    (hf : 0 < k.rounds → v.Filled slots) : c.Finds v slots := by
  cases h <;> exact hf

/-! ## The answer is in the slots -/

structure Answered (slots : Nat) (v : View) (c : Client.Call) (s : Server.Call) : Prop where
  done : v.record .done = Marker.done → v.Filled slots
  leaves : s.point.Leaves v slots
  finds : c.Finds v slots
  success : c.point.failed = false

namespace Answered

variable {peer : Side → PeerId} {slots : Nat} {v v' : View} {c c' : Client.Call}
  {s s' : Server.Call}

theorem client (h : Answered slots v c s) (hf : Faithful peer v c s) (ht : InTurn v c s)
    (hfits : c.Fits) (hslots : c.client.session.slots.toNat = slots)
    (hgoes : Client.Goes (peer .client) v c v' c') : Answered slots v' c' s := by
  cases hgoes with
  | heededShutdown hw | enteredShutdown hw | checkedShutdown hw => exact absurd hf.shutdown hw
  | heededServer _ hb =>
      have hzero := h.finds
      exact { h with
        finds := hb.finds fun hr => absurd hr (by rw [hzero]; exact Nat.lt_irrefl 0)
        success := hb.success }
  | cleared => exact { h with done := nofun }
  | planted =>
      have hidles := ht.turns.idles_of_ne_asks (show Client.Turn.rests ≠ .asks by decide)
      exact
        { done := fun hd => absurd rfl (ht.turns.ne_rests_of_done hd)
          leaves := Server.Point.leaves_of_idles hidles
          finds := trivial
          success := rfl }
  | checkedDone hd => exact { h with finds := h.done hd }
  | lowered _ => exact { h with done := nofun }
  | loweredLast _ hb =>
      have hfilled := h.finds
      exact { h with
        done := nofun
        finds := hb.finds fun _ => hfilled
        success := hb.success }
  | @mismatched k g r pass i hslot =>
      have hseed := ht.planted rfl
      have hfound := h.finds i (by rw [← hslots]; exact hfits.2)
      rw [hseed] at hfound
      exact absurd hfound hslot
  | passedLast _ _ _ hb =>
      have hfilled := h.finds
      exact { h with finds := hb.finds fun _ => hfilled, success := hb.success }
  | @stoppedKnown _ _ cause =>
      cases cause with
      | none => exact { h with }
      | some => exact nomatch h.success
  | stoppedAlone hn _ => exact nomatch hn.symm.trans (hf.server_eq rfl)
  | rung hs =>
      cases hs with
      | failed => exact nomatch h.success
      | finished | done => exact { h with }
  | _ => exact { h with }

/-- A write of the server leaves what was complete complete. -/
theorem storeSlot (h : Answered slots v c s) (i : Nat)
    (hs : s'.point.Leaves (v.storeSlot i (Layout.pattern i (v.record .data))) slots) :
    Answered slots (v.storeSlot i (Layout.pattern i (v.record .data))) c s' :=
  ⟨fun hd => (h.done hd).storeSlot i, hs, h.finds.storeSlot i, h.success⟩

theorem idles (h : Answered slots v c s) (hs : s'.point.turn = .idles) :
    Answered slots v c s' :=
  { h with leaves := Server.Point.leaves_of_idles hs }

theorem server (h : Answered slots v c s) (ht : InTurn v c s)
    (hpasses : 0 < s.server.config.passes.toNat) (hslots : s.server.session.slots.toNat = slots)
    (hgoes : Server.Goes (peer .server) v s v' s') : Answered slots v' c s' := by
  cases hgoes with
  | readiedKnown _ hs | sawNobody _ hs | greeted hs | ignored _ _ hs | sawNoCaller _ hs
  | told hs => exact { h.idles hs.turn with }
  | checkedShutdown _ he | recheckedShutdown _ he => exact h.idles he.turn
  | read _ => exact { h with leaves := ⟨.zero, fun hp => absurd hp (Nat.lt_irrefl 0)⟩ }
  | readLast hp => exact absurd hpasses (by rw [hp]; exact Nat.lt_irrefl 0)
  | filled _ =>
      obtain rfl := ht.filling rfl
      have hfill := h.leaves
      exact h.storeSlot _ ⟨hfill.1.succ, fun hp => (hfill.2 hp).storeSlot _⟩
  | passed hi _ =>
      obtain rfl := ht.filling rfl
      have hfill := h.leaves
      exact h.storeSlot _ ⟨.zero, fun _ => hfill.1.succ.mono (hslots ▸ hi)⟩
  | passedLast hi _ =>
      obtain rfl := ht.filling rfl
      have hfill := h.leaves
      exact h.storeSlot _ (hfill.1.succ.mono (hslots ▸ hi))
  | recheckedOpen _ => exact { h with }
  | raised => exact { h with done := fun _ => h.leaves, leaves := trivial }
  | _ => exact { h with leaves := trivial }

end Answered

end PeerBus
