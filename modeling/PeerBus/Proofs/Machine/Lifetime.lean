/-
# `PeerBus.Proofs.Machine.Lifetime` — from attachment to detachment, and for ever after

A device lives from its attachment to its detachment, and in that time everything that says so says
so together:

                          attached             detached
    enabled               yes                  no
    channels closed       neither              both
    dispatcher            once, on its line    nowhere
    asked                                      fails, and nothing has happened
    streams                                    not connected, and stay where they are

Nothing else ends a device, and nothing revives one (`Machine.standing_of_run`).  A call that is
blocked when its device is detached has been woken, stays so whatever is done to the device
(`Doomed.run`), and fails with its next look, which takes nothing.

Deadlines are not promised anything: a call whose deadline has passed before the detachment
reports that.
-/
import PeerBus.Proofs.Machine.Deeds

namespace PeerBus

/-! ## Calls in the lanes of a device -/

namespace Device

/-- The stage of a call parked in a lane. -/
def stage? (d : Device) (lane : Lane) (call : CallId) : Option Stage :=
  match lane with
  | .units => (d.semaphore.find? call).map Parked.stage
  | .signal => (d.event.find? call).map Parked.stage

variable {d d' : Device} {lane : Lane} {call : CallId}

/-- A woken call is left as it is by whoever rouses others. -/
theorem woken_of_roused (h : d.stage? lane call = some .woken)
    (hunits : Roused d.semaphore.parked d'.semaphore.parked)
    (hsignal : Roused d.event.parked d'.event.parked) : d'.stage? lane call = some .woken := by
  cases lane with
  | units => exact Channel.woken_of_roused hunits h
  | signal => exact Channel.woken_of_roused hsignal h

end Device

namespace Machine

variable {m m' : Machine} {a : Deed} {d : Ref .device} {lane : Lane} {call : CallId}

theorem stage?_site (m : Machine) (d : Ref .device) (lane : Lane) (call : CallId) :
    m.stage? (lane.site d) call = (m.devices.get d).stage? lane call := by
  cases lane <;> rfl

/-! ## Calls of a device that was detached -/

/-- The look of one call leaves the others parked. -/
theorem stage?_look_of_ne (hd : m.devices.Has d) (hs : (m.devices.get d).standing = .detached)
    {lane' : Lane} {call' : CallId} (hne : lane = lane' → call ≠ call') :
    (m.use d (.look lane' call')).stage? (lane.site d) call = m.stage? (lane.site d) call := by
  rw [stage?_site, stage?_site]
  have hget {f : Device → Device} : ((m.devices.modify d f).get d).stage? lane call =
      (f (m.devices.get d)).stage? lane call := by
    rw [Table.get_modify_self hd]
  cases lane' with
  | units =>
      refine hget.trans ?_
      cases lane with
      | units =>
          exact congrArg (Option.map Parked.stage)
            (Channel.find?_resume_of_ne (congrArg Standing.unitsClosed hs) (hne rfl))
      | signal => rfl
  | signal =>
      refine hget.trans ?_
      cases lane with
      | units => rfl
      | signal =>
          exact congrArg (Option.map Parked.stage)
            (Channel.find?_resume_of_ne (congrArg Standing.signalClosed hs) (hne rfl))

/-- A call that was woken in a device that was detached. -/
structure Doomed (m : Machine) (d : Ref .device) (lane : Lane) (call : CallId) : Prop where
  has : m.devices.Has d
  detached : (m.devices.get d).standing = .detached
  woken : m.stage? (lane.site d) call = some .woken

namespace Doomed

/-- Uses of the handle leave the call woken, its own look apart. -/
theorem woken_use (h : m.Doomed d lane call) {u : Use} (hne : u ≠ .look lane call) :
    (m.use d u).stage? (lane.site d) call = some .woken := by
  have hw := h.woken
  have hroused {f : Device → Device}
      (hunits : Roused (m.devices.get d).semaphore.parked (f (m.devices.get d)).semaphore.parked)
      (hsignal : Roused (m.devices.get d).event.parked (f (m.devices.get d)).event.parked) :
      ({ m with devices := m.devices.modify d f } : Machine).stage? (lane.site d) call =
        some .woken := by
    rw [stage?_site] at hw ⊢
    rw [show ({ m with devices := m.devices.modify d f } : Machine).devices.get d = _ from
      Table.get_modify_self h.has f]
    exact Device.woken_of_roused hw hunits hsignal
  cases u with
  | ask ask =>
      have hsame : m.use d (.ask ask) = m :=
        congrArg Prod.fst (ask_of_disabled (congrArg Standing.enabled h.detached) ask)
      rw [hsame]
      exact hw
  | arm count => exact hroused (Channel.roused_wakeAll _) (roused_refl _)
  | interrupt => exact hroused (Channel.roused_wakeAll _) (Channel.roused_wakeAll _)
  | lapse lane' call' =>
      cases lane' with
      | units => exact hroused (Channel.roused_rouse _ call' (by decide)) (roused_refl _)
      | signal => exact hroused (roused_refl _) (Channel.roused_rouse _ call' (by decide))
  | look lane' call' =>
      rw [stage?_look_of_ne h.has h.detached fun hlane hcall => hne (by rw [hlane, hcall])]
      exact hw

/-- So does everything else. -/
theorem next (h : m.Doomed d lane call) (hnext : Next m a m')
    (hne : a ≠ .use d (.look lane call)) : m'.Doomed d lane call := by
  refine ⟨hnext.has h.has, hnext.detached h.has h.detached, ?_⟩
  by_cases huse : ∃ u, a = .use d u
  · obtain ⟨u, rfl⟩ := huse
    obtain rfl := hnext
    exact h.woken_use fun hu => hne (congrArg (Deed.use d) hu)
  · have hw := h.woken
    rw [stage?_site] at hw ⊢
    rw [hnext.untouched h.has h.detached fun u hu => huse ⟨u, hu⟩]
    exact hw

theorem run {acts : List Deed} (h : m.Doomed d lane call) (hrun : Run Next m acts m')
    (hnot : .use d (.look lane call) ∉ acts) : m'.Doomed d lane call := by
  have hall (a : Deed) (ha : a ∈ acts) : a ≠ .use d (.look lane call) := fun heq => hnot (heq ▸ ha)
  exact hrun.preserves_of_forall (P := fun m => m.Doomed d lane call)
    (fun ha hm hnext => hm.next hnext ha) hall h

/-- A woken call fails. -/
theorem closed_resume (h : m.Doomed d lane call) :
    (m.resume (lane.site d) call).2 = some (.error .closed) := by
  cases lane with
  | units => exact Channel.resume_of_woken (congrArg Standing.unitsClosed h.detached) h.woken
  | signal => exact Channel.resume_of_woken (congrArg Standing.signalClosed h.detached) h.woken

end Doomed

/-- Nobody who looks takes anything. -/
theorem pending_resume (hd : m.devices.Has d) (hs : (m.devices.get d).standing = .detached)
    (lane : Lane) (call : CallId) :
    ((m.resume (lane.site d) call).1.devices.get d).pending = (m.devices.get d).pending := by
  have hget {f : Device → Device} : ((m.devices.modify d f).get d).pending =
      (f (m.devices.get d)).pending := by
    rw [Table.get_modify_self hd]
  cases lane with
  | units =>
      have hsignal := Channel.signal_resume_of_closed (congrArg Standing.unitsClosed hs) call
      exact hget.trans (congrArg (fun units => Pending.mk (Units.count units) _) hsignal)
  | signal =>
      have hsignal := Channel.signal_resume_of_closed (congrArg Standing.signalClosed hs) call
      exact hget.trans (congrArg (fun flag => Pending.mk _ (Flag.raised flag)) hsignal)

/-! ## Detaching -/

variable {seat : Seat}

theorem pending_detach (hd : m.devices.Has d) (hs : (m.devices.get d).standing = .attached seat) :
    ((m.detach d).devices.get d).pending = (m.devices.get d).pending := by
  rw [detach_of_seat (congrArg Standing.seat hs), Table.get_modify_self hd]
  rfl

/-- Whoever is blocked is woken. -/
theorem woken_detach (hd : m.devices.Has d) (hs : (m.devices.get d).standing = .attached seat)
    (hblocked : m.stage? (lane.site d) call = some .asleep ∨
      m.stage? (lane.site d) call = some .woken) :
    (m.detach d).stage? (lane.site d) call = some .woken := by
  rw [stage?_site] at hblocked ⊢
  rw [detach_of_seat (congrArg Standing.seat hs), Table.get_modify_self hd]
  cases lane with
  | units | signal => exact Channel.woken_close hblocked

/-! ## Standings along a run -/

/-- A device stands until it is detached, and never again. -/
theorem standing_of_run {acts : List Deed} (h : Run Next m acts m') (hd : m.devices.Has d)
    (hs : (m.devices.get d).standing = .attached seat) :
    m'.devices.Has d ∧
      (.detach d ∉ acts ∧ (m'.devices.get d).standing = .attached seat ∨
        .detach d ∈ acts ∧ (m'.devices.get d).standing = .detached) := by
  induction h with
  | nil => exact ⟨hd, .inl ⟨List.not_mem_nil, hs⟩⟩
  | @snoc acts m₁ m₂ a _ hnext ih =>
      obtain ⟨hd₁, hstands | hgone⟩ := ih
      · obtain ⟨hnot, hs₁⟩ := hstands
        refine ⟨hnext.has hd₁, ?_⟩
        by_cases ha : a = .detach d
        · subst ha
          obtain rfl := hnext
          exact .inr ⟨List.mem_append_right _ (List.mem_singleton_self _), standing_detach hd₁ hs₁⟩
        · have hnot' : .detach d ∉ acts ++ [a] := fun hmem =>
            (List.mem_append.mp hmem).elim hnot fun h => ha (List.mem_singleton.mp h).symm
          exact .inl ⟨hnot', (hnext.standing hd₁ ha).2.trans hs₁⟩
      · exact ⟨hnext.has hd₁, .inr ⟨List.mem_append_left _ hgone.1, hnext.detached hd₁ hgone.2⟩⟩

/-! ## The two halves of a life -/

/-- A device that is attached, in all respects. -/
structure Stands (m : Machine) (d : Ref .device) : Prop where
  enabled : (m.devices.get d).enabled = true
  unitsOpen : (m.devices.get d).semaphore.gate.closed = false
  signalOpen : (m.devices.get d).event.gate.closed = false

/-- To detach a device takes nothing, and ends every call that is blocked in it: the call has been
woken, and whatever happens until it looks again, it then fails, and takes nothing. -/
structure Releases (m : Machine) (d : Ref .device) : Prop where
  pending : ((m.detach d).devices.get d).pending = (m.devices.get d).pending
  ends : ∀ (lane : Lane) (call : CallId),
    m.stage? (lane.site d) call = some .asleep ∨ m.stage? (lane.site d) call = some .woken →
    ∀ later m', Run Next (m.detach d) later m' → .use d (.look lane call) ∉ later →
      m'.stage? (lane.site d) call = some .woken ∧
      (m'.resume (lane.site d) call).2.map (Except.mapError DeviceError.ofWait) =
        some (.error .unavailable) ∧
      ((m'.resume (lane.site d) call).1.devices.get d).pending = (m'.devices.get d).pending

/-- A device that is detached, in all respects: it hears nothing, whatever can fail fails before
it has touched anything, and what cannot fail reaches no further than its own channels. -/
structure Gone (m : Machine) (d : Ref .device) : Prop where
  disabled : (m.devices.get d).enabled = false
  unitsClosed : (m.devices.get d).semaphore.gate.closed = true
  signalClosed : (m.devices.get d).event.gate.closed = true
  deaf : m.dispatch d = (m, false)
  fails : ∀ ask, m.ask d ask = (m, some (.error .unavailable))
  reads : ∀ (s : Stream) (buffer : List UInt8), s.device = d →
    s.read m buffer = (s, .error (.device .unavailable))
  writes : ∀ (s : Stream) (data : List UInt8), s.device = d →
    s.write m data = (m, s, .error (.device .unavailable))
  seeks : ∀ (s : Stream) (origin : SeekFrom), s.device = d →
    s.seek m origin = (s, .error (.device .unavailable))
  notConnected : (StreamError.device .unavailable).kind = .notConnected
  uses : ∀ u, OnlyWaits d m (m.use d u)
  untouched : ∀ a m', Next m a m' → (∀ u, a ≠ .use d u) → m'.devices.get d = m.devices.get d
  looks : ∀ (lane : Lane) (call : CallId),
    ((m.resume (lane.site d) call).1.devices.get d).pending = (m.devices.get d).pending

theorem stands_of_standing (hs : (m.devices.get d).standing = .attached seat) : m.Stands d where
  enabled := congrArg Standing.enabled hs
  unitsOpen := congrArg Standing.unitsClosed hs
  signalOpen := congrArg Standing.signalClosed hs

theorem releases_of_standing (hd : m.devices.Has d)
    (hs : (m.devices.get d).standing = .attached seat) : m.Releases d where
  pending := pending_detach hd hs
  ends lane call hblocked later m' hrun hnot := by
    have hwoken := woken_detach hd hs hblocked
    have hdoomed : (m.detach d).Doomed d lane call :=
      ⟨has_detach hd d, standing_detach hd hs, hwoken⟩
    have hlast := hdoomed.run hrun hnot
    refine ⟨hlast.woken, ?_, pending_resume hlast.has hlast.detached lane call⟩
    rw [hlast.closed_resume]
    rfl

theorem gone_of_standing (hd : m.devices.Has d) (hs : (m.devices.get d).standing = .detached) :
    m.Gone d := by
  have hdisabled : (m.devices.get d).enabled = false := congrArg Standing.enabled hs
  exact
    { disabled := hdisabled
      unitsClosed := congrArg Standing.unitsClosed hs
      signalClosed := congrArg Standing.signalClosed hs
      deaf := dispatch_of_disabled hdisabled
      fails := ask_of_disabled hdisabled
      reads := fun s buffer hsd => Stream.read_of_disabled (hsd ▸ hdisabled) buffer
      writes := fun s data hsd => Stream.write_of_disabled (hsd ▸ hdisabled) data
      seeks := fun s origin hsd => Stream.seek_of_disabled (hsd ▸ hdisabled) origin
      notConnected := rfl
      uses := onlyWaits_use hdisabled
      untouched := fun _ _ hnext hne => hnext.untouched hd hs hne
      looks := pending_resume hd hs }

/-- **The lifetime of a device.**  Whatever has happened before a device is attached, and whatever
happens after: without registers an attachment fails and has touched nothing.  With them, the device
is enabled, neither of its channels is closed, and its dispatcher is registered once, on its line,
until it is detached; then none of this holds any more, and never will.  To detach it ends every
call that is blocked in it, and takes nothing; and from then on all its operations and streams fail.
The tokens of a line are numbers of 64 bits; what is said of its registrations holds as long as they
have not come round. -/
theorem device_lifetime {before after : List Deed} {line : Ref .line} (registers : Registers)
    (window : Option (Ref .region)) (hbefore : Run Next {} before m) (hline : m.lines.Has line)
    (hafter : Run Next (m.attach (some registers) window line).1 after m') :
    let d := m.devices.fresh
    let acts := before ++ .attach (some registers) window line :: after
    (∀ window line, m.attach none window line = (m, .error .unavailable)) ∧
    (m.attach (some registers) window line).2 = .ok d ∧
    (.detach d ∉ after → m'.Stands d ∧ m'.Releases d ∧
      ∀ l, tokens l acts + 1 < UInt64.size → m'.dispatchers d l = if l = line then 1 else 0) ∧
    (.detach d ∈ after → m'.Gone d ∧
      ∀ l, tokens l acts + 1 < UInt64.size → m'.dispatchers d l = 0) := by
  intro d acts
  have hs := sameStanding_attach m registers window line
  have hd : (m.attach (some registers) window line).1.devices.Has d :=
    (hs.hasDevice d).mpr (Table.has_push_fresh ..)
  have hstands : ((m.attach (some registers) window line).1.devices.get d).standing =
      .attached ⟨line, (m.lines.get line).nextToken⟩ :=
    (hs.standing d).trans (congrArg Device.standing (Table.get_push_fresh ..))
  have hall : Run Next {} acts m' := by
    have hnext : Next m (.attach (some registers) window line) _ := ⟨hline, rfl⟩
    have hrun := (hbefore.snoc hnext).trans hafter
    rwa [List.append_assoc] at hrun
  obtain ⟨hd', hend⟩ := standing_of_run hafter hd hstands
  refine ⟨fun _ _ => rfl, rfl, fun hnot => ?_, fun hmem => ?_⟩
  · obtain ⟨-, hs'⟩ := hend.resolve_right fun h => hnot h.1
    refine ⟨stands_of_standing hs', releases_of_standing hd' hs', fun l hroom => ?_⟩
    have hberthed := berthed_of_run hall l (Nat.lt_of_succ_lt hroom)
    have hseat : (m'.devices.get d).seat = some ⟨line, (m.lines.get line).nextToken⟩ :=
      congrArg Standing.seat hs'
    by_cases hl : l = line
    · subst hl
      rw [if_pos rfl]
      exact hberthed.dispatchers_of_seat hseat
    · rw [if_neg hl]
      refine hberthed.dispatchers_of_not fun token htoken => hl ?_
      exact (congrArg Seat.line (Option.some.inj (hseat.symm.trans htoken))).symm
  · obtain ⟨-, hs'⟩ := hend.resolve_left fun h => h.1 hmem
    refine ⟨gone_of_standing hd' hs', fun l hroom => ?_⟩
    have hseat : (m'.devices.get d).seat = none := congrArg Standing.seat hs'
    have hberthed := berthed_of_run hall l (Nat.lt_of_succ_lt hroom)
    refine hberthed.dispatchers_of_not fun token htoken => ?_
    exact absurd (htoken.symm.trans hseat) (Option.some_ne_none _)

/-- Two devices share a line.  The second waits for a unit when it is detached: its call fails, also
if the waits are cancelled in between, and the first device keeps its place. -/
theorem device_lifetime_shared_line :
    ∃ (m m' : Machine) (before after : List Deed), Run Next {} before m ∧ m.lines.Has ⟨0⟩ ∧
      Run Next (m.attach (some (.recorder ⟨1⟩)) none ⟨0⟩).1 after m' ∧
      m'.stage? (.units ⟨1⟩) ⟨0⟩ = some .asleep ∧ m'.dispatchers ⟨1⟩ ⟨0⟩ = 1 ∧
      (((m'.detach ⟨1⟩).interruptWaiters ⟨1⟩).resume (.units ⟨1⟩) ⟨0⟩).2.map
        (Except.mapError DeviceError.ofWait) = some (.error .unavailable) ∧
      (m'.detach ⟨1⟩).Gone ⟨1⟩ ∧ (m'.detach ⟨1⟩).dispatchers ⟨1⟩ ⟨0⟩ = 0 ∧
      (m'.detach ⟨1⟩).dispatchers ⟨0⟩ ⟨0⟩ = 1 := by
  let m₁ := (({} : Machine).addLine 9).1
  let m₂ := ((m₁.addRecorder ⟨1⟩).1.addRecorder ⟨2⟩).1
  let m := (m₂.attach (some (.recorder ⟨0⟩)) none ⟨0⟩).1
  let m' := (m.attach (some (.recorder ⟨1⟩)) none ⟨0⟩).1.use ⟨1⟩ (.ask (.down ⟨0⟩))
  have hline : m.lines.Has ⟨0⟩ := by decide
  have hbefore : Run Next {} [.line 9, .beside, .attach (some (.recorder ⟨0⟩)) none ⟨0⟩] m :=
    ((Run.single (t := m₁) rfl).snoc (u := m₂) ⟨rfl, rfl⟩).snoc ⟨by decide, rfl⟩
  have hafter : Run Next (m.attach (some (.recorder ⟨1⟩)) none ⟨0⟩).1
      [.use ⟨1⟩ (.ask (.down ⟨0⟩))] m' := Run.single rfl
  have hdetached : Run Next (m.attach (some (.recorder ⟨1⟩)) none ⟨0⟩).1
      [.use ⟨1⟩ (.ask (.down ⟨0⟩)), .detach ⟨1⟩] (m'.detach ⟨1⟩) := hafter.snoc rfl
  have hasleep : m'.stage? (.units ⟨1⟩) ⟨0⟩ = some .asleep := by decide
  obtain ⟨-, -, hstands, -⟩ := device_lifetime _ _ hbefore hline hafter
  obtain ⟨-, -, -, hgone⟩ := device_lifetime _ _ hbefore hline hdetached
  obtain ⟨-, hreleases, honce⟩ := hstands (by simp)
  obtain ⟨hgone, hnowhere⟩ := hgone (List.mem_cons_of_mem _ (List.mem_singleton_self _))
  obtain ⟨-, hfails, -⟩ := hreleases.ends .units ⟨0⟩ (.inl hasleep) [.use ⟨1⟩ .interrupt] _
    (Run.single rfl) (by simp)
  exact ⟨m, m', _, _, hbefore, hline, hafter, hasleep, honce ⟨0⟩ (by decide), hfails, hgone,
    hnowhere ⟨0⟩ (by decide), by decide⟩

end Machine

end PeerBus
