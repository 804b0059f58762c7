/-
# `PeerBus.Proofs.Machine.Ports` — a fabric's table of ports over its history

A fabric knows one port for each peer at most: the one that was made last for it, as long as it was
not removed since.  A port is numbered by the ports made before it (`portsMade`), so the history of
a run alone tells what is in the table of a fabric afterwards (`Current`):

    port, join    the new port stands for its peer, in place of any other
    remove        nobody stands for the peer
    all others    the table stays as it is

Ports outlive their entries: a device keeps the registers and the window that it was attached with,
whatever becomes of its port (`Keeps`).  But a status that a fabric is given for a peer gets no
further than the port which the table names (`Reaches`), so a device on another port never hears of
it, while what it rings for goes by the table like anybody else's ring.
-/
import PeerBus.Proofs.Machine.Traffic
import Mathlib.Algebra.Group.Nat.Defs

namespace PeerBus

/-! ## Tables of ports -/

namespace Fabric

/-- The entries of a table by ascending peer, one for each. -/
def Ascending (f : Fabric) : Prop := f.endpoints.Pairwise fun x y => x.1.number < y.1.number

variable {f : Fabric} {p q : PeerId} {e : Ref .endpoint}

/-- A peer that is taken away is not found, and all others are found as before. -/
theorem endpoint?_disconnect_eq (f : Fabric) (p q : PeerId) :
    (f.disconnect p).endpoint? q = if p = q then none else f.endpoint? q := by
  unfold endpoint? disconnect
  rw [List.find?_filter]
  by_cases hq : p = q
  · subst hq
    rw [if_pos rfl, Option.map_eq_none_iff, List.find?_eq_none]
    simp
  · rw [if_neg hq]
    congr 2
    funext entry
    by_cases hentry : entry.1 = q
    · simp [hentry, Ne.symm hq]
    · simp [hentry]

theorem mem_peers : p ∈ f.peers ↔ ∃ e, f.endpoint? p = some e := by
  unfold peers endpoint?
  rw [List.mem_map]
  constructor
  · rintro ⟨entry, hentry, rfl⟩
    have hsome : (f.endpoints.find? fun other => other.1 = entry.1).isSome :=
      List.find?_isSome.mpr ⟨entry, hentry, by simp⟩
    obtain ⟨found, hfound⟩ := Option.isSome_iff_exists.mp hsome
    exact ⟨found.2, by rw [hfound]; rfl⟩
  · rintro ⟨e, he⟩
    obtain ⟨entry, hentry, -⟩ := Option.map_eq_some_iff.mp he
    exact ⟨entry, List.mem_of_find?_eq_some hentry, by simpa using List.find?_some hentry⟩

theorem peers_disconnect (f : Fabric) (p : PeerId) :
    (f.disconnect p).peers = f.peers.filter fun q => q ≠ p := by
  unfold peers disconnect
  rw [List.filter_map]
  rfl

theorem mem_insertEndpoint {entries : List (PeerId × Ref .endpoint)}
    {entry : PeerId × Ref .endpoint} (h : entry ∈ insertEndpoint p e entries) :
    entry = (p, e) ∨ entry ∈ entries := by
  induction entries with
  | nil => exact .inl (List.mem_singleton.mp h)
  | cons first rest ih =>
      rw [insertEndpoint] at h
      split at h
      · exact List.mem_cons.mp h
      · split at h
        · rcases List.mem_cons.mp h with h | h
          · exact .inl h
          · exact .inr (List.mem_cons_of_mem _ h)
        · rcases List.mem_cons.mp h with rfl | h
          · exact .inr List.mem_cons_self
          · exact (ih h).imp_right (List.mem_cons_of_mem _)

theorem pairwise_insertEndpoint {entries : List (PeerId × Ref .endpoint)}
    (h : entries.Pairwise fun x y => x.1.number < y.1.number) :
    (insertEndpoint p e entries).Pairwise fun x y => x.1.number < y.1.number := by
  induction entries with
  | nil => exact List.pairwise_singleton ..
  | cons first rest ih =>
      obtain ⟨hfirst, hrest⟩ := List.pairwise_cons.mp h
      rw [insertEndpoint]
      split
      · rename_i hlt
        refine List.pairwise_cons.mpr ⟨fun entry hentry => ?_, h⟩
        rcases List.mem_cons.mp hentry with rfl | hentry
        · exact hlt
        · exact UInt16.lt_trans hlt (hfirst entry hentry)
      · rename_i hle
        split
        · rename_i hsame
          exact List.pairwise_cons.mpr ⟨hsame ▸ hfirst, hrest⟩
        · rename_i hne
          refine List.pairwise_cons.mpr ⟨fun entry hentry => ?_, ih hrest⟩
          rcases mem_insertEndpoint hentry with rfl | hentry
          · refine UInt16.lt_of_le_of_ne (UInt16.not_lt.mp hle) fun hnumber => hne ?_
            exact congrArg PeerId.mk hnumber.symm
          · exact hfirst entry hentry

theorem Ascending.connect (h : f.Ascending) : (f.connect p e).Ascending :=
  pairwise_insertEndpoint h

theorem Ascending.disconnect (h : f.Ascending) : (f.disconnect p).Ascending :=
  h.filter _

theorem Ascending.peers (h : f.Ascending) : f.peers.Pairwise fun p q => p.number < q.number :=
  List.pairwise_map.mpr h

end Fabric

namespace Machine

/-! ## Histories -/

/-- The fabric and the peer that an op makes a port for. -/
def Op.port? : Op → Option (Ref .fabric × PeerId)
  | .port f p | .join f p => some (f, p)
  | _ => none

/-- The fabric and the peer whose port an op removes. -/
def Op.removal? : Op → Option (Ref .fabric × PeerId)
  | .remove f p => some (f, p)
  | _ => none

/-- Whether an op attaches a device. -/
def Op.seats : Op → Bool
  | .join .. | .seat .. => true
  | _ => false

/-- The number of ports made, on all fabrics. -/
def portsMade (acts : List (Op × Notice)) : Nat := acts.countP fun a => a.1.port?.isSome

/-- The number of ports made on one fabric. -/
def portsMadeOn (f : Ref .fabric) (acts : List (Op × Notice)) : Nat :=
  acts.countP fun a => a.1.port?.any fun made => made.1 = f

/-- The number of devices attached. -/
def devicesMade (acts : List (Op × Notice)) : Nat := acts.countP fun a => a.1.seats

/-- The port `e` is the last that was made for a peer of a fabric, and was not removed since. -/
def Current (f : Ref .fabric) (p : PeerId) (acts : List (Op × Notice)) (e : Ref .endpoint) : Prop :=
  ∃ before a after, acts = before ++ a :: after ∧ a.1.port? = some (f, p) ∧
    e = ⟨portsMade before⟩ ∧
    ∀ b ∈ after, b.1.port? ≠ some (f, p) ∧ b.1.removal? ≠ some (f, p)

/-- The port `e` was made for a peer of a fabric, and was replaced or removed since. -/
def Past (f : Ref .fabric) (p : PeerId) (acts : List (Op × Notice)) (e : Ref .endpoint) : Prop :=
  ∃ before a after, acts = before ++ a :: after ∧ a.1.port? = some (f, p) ∧
    e = ⟨portsMade before⟩ ∧
    ∃ b ∈ after, b.1.port? = some (f, p) ∨ b.1.removal? = some (f, p)

section Histories

variable {f : Ref .fabric} {p : PeerId} {acts : List (Op × Notice)} {a : Op × Notice}
  {e : Ref .endpoint}

theorem not_current_nil : ¬Current f p [] e := by
  rintro ⟨before, a, after, hacts, -⟩
  exact List.append_ne_nil_of_right_ne_nil _ (List.cons_ne_nil _ _) hacts.symm

/-- One more act makes its own port current, and leaves all those that it does not concern. -/
theorem current_snoc : Current f p (acts ++ [a]) e ↔
    (a.1.port? = some (f, p) ∧ e = ⟨portsMade acts⟩) ∨
      (Current f p acts e ∧ a.1.port? ≠ some (f, p) ∧ a.1.removal? ≠ some (f, p)) := by
  constructor
  · rintro ⟨before, b, after, hacts, hport, he, hsince⟩
    rcases List.eq_nil_or_concat after with rfl | ⟨front, last, rfl⟩
    · obtain ⟨rfl, hlast⟩ := List.append_inj' hacts rfl
      cases hlast
      exact .inl ⟨hport, he⟩
    · rw [List.concat_eq_append, ← List.cons_append, ← List.append_assoc] at hacts
      obtain ⟨rfl, hlast⟩ := List.append_inj' hacts rfl
      cases hlast
      rw [List.concat_eq_append] at hsince
      refine .inr ⟨⟨before, b, front, rfl, hport, he, fun c hc => ?_⟩, ?_⟩
      · exact hsince c (List.mem_append_left _ hc)
      · exact hsince a (List.mem_append_right _ (List.mem_singleton_self a))
  · rintro (⟨hport, he⟩ | ⟨⟨before, b, after, rfl, hport, he, hsince⟩, hlast⟩)
    · exact ⟨acts, a, [], rfl, hport, he, nofun⟩
    · refine ⟨before, b, after ++ [a], by simp, hport, he, fun c hc => ?_⟩
      rcases List.mem_append.mp hc with hc | hc
      · exact hsince c hc
      · exact List.mem_singleton.mp hc ▸ hlast

/-- The act that made a port is known by the number of the port. -/
theorem split_unique {before before' after after' : List (Op × Notice)} {a a' : Op × Notice}
    (h : before ++ a :: after = before' ++ a' :: after') (ha : a.1.port?.isSome)
    (ha' : a'.1.port?.isSome) (hmade : portsMade before = portsMade before') :
    before = before' ∧ a = a' ∧ after = after' := by
  -- if one beginning were longer, it would hold the act that the other one stops at
  have hlonger {b : Op × Notice} {front l : List (Op × Notice)} (hb : b.1.port?.isSome)
      (hl : portsMade front = portsMade (front ++ b :: l)) : False := by
    simp only [portsMade, List.countP_append, List.countP_cons, hb, if_true] at hl
    omega
  rcases List.append_eq_append_iff.mp h with ⟨l, rfl, htail⟩ | ⟨l, rfl, htail⟩
  · cases l with
    | nil =>
        cases htail
        exact ⟨(List.append_nil _).symm, rfl, rfl⟩
    | cons b l =>
        cases htail
        exact (hlonger ha hmade).elim
  · cases l with
    | nil =>
        cases htail
        exact ⟨List.append_nil _, rfl, rfl⟩
    | cons b l =>
        cases htail
        exact (hlonger ha' hmade.symm).elim

/-- A port in whose place another was made, or that was removed, is current for nobody. -/
theorem Past.not_current (h : Past f p acts e) (g : Ref .fabric) (q : PeerId) :
    ¬Current g q acts e := by
  obtain ⟨before, a, after, hacts, hport, rfl, b, hb, hpast⟩ := h
  rintro ⟨before', a', after', hacts', hport', he, hsince⟩
  obtain ⟨-, rfl, rfl⟩ := split_unique (hacts.symm.trans hacts')
    (by rw [hport]; rfl) (by rw [hport']; rfl) (congrArg Ref.index he)
  cases hport.symm.trans hport'
  rcases hpast with hpast | hpast
  · exact (hsince b hb).1 hpast
  · exact (hsince b hb).2 hpast

end Histories

/-! ## What an op does to the tables -/

/-- The number of a port's line. -/
def lineNumber (m : Machine) (e : Ref .endpoint) : UInt32 :=
  (m.lines.get (m.endpoints.get e).line).number

/-- The entry of a fabric after an op. -/
def Op.entry (m : Machine) (f : Ref .fabric) (op : Op) (x : Fabric) : Fabric :=
  match op with
  | .port g p | .join g p =>
      if g = f then { x.connect p m.endpoints.fresh with nextLine := x.nextLine + 1 } else x
  | .remove g p => if g = f then x.disconnect p else x
  | _ => x

variable {m m' m'' : Machine} {op : Op} {f : Ref .fabric} {p : PeerId}

theorem get_fabrics_modify {g : Ref .fabric} (hg : m.fabrics.Has g) (change : Fabric → Fabric) :
    (m.fabrics.modify g change).get f =
      if g = f then change (m.fabrics.get f) else m.fabrics.get f := by
  by_cases hgf : g = f
  · subst hgf
    rw [if_pos rfl, Table.get_modify_self hg]
  · rw [if_neg hgf, Table.get_modify_of_ne _ hgf]

/-- The table of a fabric, and the number of its next line, after an op. -/
theorem fabric_carry (hw : Wired m) (hv : op.Valid m) (f : Ref .fabric) :
    ((m.carry op).fabrics.get f).endpoints = (op.entry m f (m.fabrics.get f)).endpoints ∧
    ((m.carry op).fabrics.get f).nextLine = (op.entry m f (m.fabrics.get f)).nextLine := by
  cases op with
  | fabric size =>
      show ((m.fabrics.push { window := (m.addRegion size).2 }).get f).endpoints =
          (m.fabrics.get f).endpoints ∧
        ((m.fabrics.push { window := (m.addRegion size).2 }).get f).nextLine =
          (m.fabrics.get f).nextLine
      by_cases hf : f = m.fabrics.fresh
      · subst hf
        rw [Table.get_push_fresh, Table.get_of_not_has m.fabrics.not_has_fresh]
        exact ⟨rfl, rfl⟩
      · rw [Table.get_push_of_ne hf]
        exact ⟨rfl, rfl⟩
  | port g p =>
      have hget : (m.carry (.port g p)).fabrics.get f =
          Op.entry m f (.port g p) (m.fabrics.get f) := get_fabrics_modify hv _
      rw [hget]
      exact ⟨rfl, rfl⟩
  | join g p =>
      have hget : (m.carry (.join g p)).fabrics.get f =
          Op.entry m f (.join g p) (m.fabrics.get f) := by
        show (m.fabricAttach g p).1.fabrics.get f = _
        rw [fabricAttach_eq]
        exact get_fabrics_modify hv _
      rw [hget]
      exact ⟨rfl, rfl⟩
  | remove g p =>
      have hget : (m.carry (.remove g p)).fabrics.get f =
          Op.entry m f (.remove g p) (m.fabrics.get f) :=
        get_fabrics_modify hv _
      rw [hget]
      exact ⟨rfl, rfl⟩
  | seat e window => exact ⟨rfl, rfl⟩
  | detach d =>
      have hsame : (m.detach d).fabrics = m.fabrics := by
        cases hs : (m.devices.get d).seat with
        | none => rw [detach_of_none hs]
        | some s => rw [detach_of_seat hs]
      show ((m.detach d).fabrics.get f).endpoints = _ ∧ ((m.detach d).fabrics.get f).nextLine = _
      rw [hsame]
      exact ⟨rfl, rfl⟩
  | read | write | raise | ring | control | identify | arm | interrupt | down | waitEvent | lapse
  | resume =>
      rw [(hw.passes hv rfl).wiring.fabrics]
      exact ⟨rfl, rfl⟩

/-- What the table of a fabric says of a peer after an op. -/
theorem endpoint?_carry (hw : Wired m) (hv : op.Valid m) (f : Ref .fabric) (p : PeerId) :
    ((m.carry op).fabrics.get f).endpoint? p =
      if op.port? = some (f, p) then some m.endpoints.fresh
      else if op.removal? = some (f, p) then none
      else (m.fabrics.get f).endpoint? p := by
  have hentry : ((m.carry op).fabrics.get f).endpoint? p =
      (op.entry m f (m.fabrics.get f)).endpoint? p := by
    unfold Fabric.endpoint?
    rw [(fabric_carry hw hv f).1]
  rw [hentry]
  cases op with
  | port g q | join g q =>
      show (if g = f then _ else _ : Fabric).endpoint? p = _
      by_cases hg : g = f
      · rw [if_pos hg]
        refine (Fabric.endpoint?_connect ..).trans ?_
        simp [Op.port?, Op.removal?, hg]
      · simp [Op.port?, Op.removal?, hg]
  | remove g q =>
      show (if g = f then _ else _ : Fabric).endpoint? p = _
      by_cases hg : g = f
      · rw [if_pos hg, Fabric.endpoint?_disconnect_eq]
        simp [Op.port?, Op.removal?, hg]
      · simp [Op.port?, Op.removal?, hg]
  | fabric | seat | detach | read | write | raise | ring | control | identify | arm | interrupt
  | down | waitEvent | lapse | resume => rfl

theorem ascending_carry (hw : Wired m) (hv : op.Valid m) (h : (m.fabrics.get f).Ascending) :
    ((m.carry op).fabrics.get f).Ascending := by
  unfold Fabric.Ascending
  rw [(fabric_carry hw hv f).1]
  cases op with
  | port g q | join g q =>
      show (if g = f then _ else _ : Fabric).Ascending
      split
      · exact h.connect
      · exact h
  | remove g q =>
      show (if g = f then _ else _ : Fabric).Ascending
      split
      · exact h.disconnect
      · exact h
  | fabric | seat | detach | read | write | raise | ring | control | identify | arm | interrupt
  | down | waitEvent | lapse | resume => exact h

theorem nextLine_carry (hw : Wired m) (hv : op.Valid m) (f : Ref .fabric) :
    ((m.carry op).fabrics.get f).nextLine =
      if (op.port?.any fun made => made.1 = f) = true then (m.fabrics.get f).nextLine + 1
      else (m.fabrics.get f).nextLine := by
  rw [(fabric_carry hw hv f).2]
  cases op with
  | port g q | join g q =>
      show (if g = f then _ else _ : Fabric).nextLine = _
      by_cases hg : g = f <;> simp [Op.port?, hg]
  | remove g q =>
      show (if g = f then _ else _ : Fabric).nextLine = _
      split <;> rfl
  | fabric | seat | detach | read | write | raise | ring | control | identify | arm | interrupt
  | down | waitEvent | lapse | resume => rfl

/-! ## What there is keeps what it refers to -/

/-- Devices keep their registers and windows, ports their fabrics and the numbers of their lines,
and fabrics their windows; there may be more of each. -/
structure Keeps (m m' : Machine) : Prop where
  hasDevice : ∀ d, m.devices.Has d → m'.devices.Has d
  registers : ∀ d, m.devices.Has d → (m'.devices.get d).registers = (m.devices.get d).registers
  window : ∀ d, m.devices.Has d → (m'.devices.get d).window = (m.devices.get d).window
  hasPort : ∀ e, m.endpoints.Has e → m'.endpoints.Has e
  fabric : ∀ e, m.endpoints.Has e → (m'.endpoints.get e).fabric = (m.endpoints.get e).fabric
  number : ∀ e, m.endpoints.Has e → m'.lineNumber e = m.lineNumber e
  hasFabric : ∀ f, m.fabrics.Has f → m'.fabrics.Has f
  shared : ∀ f, m.fabrics.Has f → (m'.fabrics.get f).window = (m.fabrics.get f).window

namespace Keeps

theorem refl (m : Machine) : Keeps m m where
  hasDevice _ := id
  registers _ _ := rfl
  window _ _ := rfl
  hasPort _ := id
  fabric _ _ := rfl
  number _ _ := rfl
  hasFabric _ := id
  shared _ _ := rfl

theorem trans (h : Keeps m m') (h' : Keeps m' m'') : Keeps m m'' where
  hasDevice d hd := h'.hasDevice d (h.hasDevice d hd)
  registers d hd := (h'.registers d (h.hasDevice d hd)).trans (h.registers d hd)
  window d hd := (h'.window d (h.hasDevice d hd)).trans (h.window d hd)
  hasPort e he := h'.hasPort e (h.hasPort e he)
  fabric e he := (h'.fabric e (h.hasPort e he)).trans (h.fabric e he)
  number e he := (h'.number e (h.hasPort e he)).trans (h.number e he)
  hasFabric f hf := h'.hasFabric f (h.hasFabric f hf)
  shared f hf := (h'.shared f (h.hasFabric f hf)).trans (h.shared f hf)

theorem of_same (h : SameWiring m m') : Keeps m m' where
  hasDevice d := (h.hasDevice d).mpr
  registers d _ := h.registers d
  window d _ := h.window d
  hasPort e := (h.hasEndpoint e).mpr
  fabric e _ := h.fabric e
  number e _ := by
    unfold lineNumber
    rw [h.lines, h.line]
  hasFabric f hf := h.fabrics ▸ hf
  shared f _ := by rw [h.fabrics]

theorem addFabric (m : Machine) (size : UInt64) : Keeps m (m.addFabric size).1 :=
  { refl m with
    hasFabric := fun _ hf => Table.has_push_of_has hf _
    shared := fun _ hf => congrArg Fabric.window (Table.get_push_of_has hf _) }

theorem fabricRemove (m : Machine) (f : Ref .fabric) (p : PeerId) :
    Keeps m (m.fabricRemove f p).1 :=
  { refl m with
    hasFabric := fun _ => (Table.has_modify ..).mpr
    shared := fun g _ => Table.get_modify_keeps m.fabrics f g Fabric.window fun _ => rfl }

theorem resources (hw : Wired m) (f : Ref .fabric) (p : PeerId) :
    Keeps m (m.resources f p).1 :=
  { refl m with
    hasPort := fun _ he => Table.has_push_of_has he _
    fabric := fun _ he => congrArg Endpoint.fabric (endpoint_resources_of_has he)
    number := fun _ he => congrArg Line.number (hw.lines_resources_of_has he f p)
    hasFabric := fun _ => (Table.has_modify ..).mpr
    shared := fun g _ => Table.get_modify_keeps m.fabrics f g Fabric.window fun _ => rfl }

theorem seat (m : Machine) (e : Ref .endpoint) (window : Option (Ref .region)) :
    Keeps m (m.seat e window) :=
  { refl m with
    hasDevice := fun _ hd => (has_device_seat window).mpr (.inl hd)
    registers := fun _ hd => congrArg Device.registers (device_seat_of_has window hd)
    window := fun _ hd => congrArg Device.window (device_seat_of_has window hd)
    hasPort := fun _ => (has_endpoint_seat window).mpr
    fabric := fun e' _ => fabric_seat window e'
    number := fun e' _ => by
      unfold lineNumber
      rw [line_seat]
      exact Table.get_modify_keeps _ _ _ Line.number fun _ => rfl }

theorem detach (m : Machine) (d : Ref .device) : Keeps m (m.detach d) := by
  cases hs : (m.devices.get d).seat with
  | none =>
      rw [detach_of_none hs]
      exact refl m
  | some s =>
      rw [detach_of_seat hs]
      exact
        { refl m with
          hasDevice := fun _ => (Table.has_modify ..).mpr
          registers := fun d' _ =>
            Table.get_modify_keeps m.devices d d' Device.registers fun _ => rfl
          window := fun d' _ => Table.get_modify_keeps m.devices d d' Device.window fun _ => rfl
          number := fun _ _ => Table.get_modify_keeps m.lines s.line _ Line.number fun _ => rfl }

theorem carry (hw : Wired m) (hv : op.Valid m) : Keeps m (m.carry op) := by
  cases op with
  | fabric size => exact addFabric m size
  | port f p => exact resources hw f p
  | join f p =>
      show Keeps m (m.fabricAttach f p).1
      rw [fabricAttach_eq_seat]
      exact (resources hw f p).trans (seat ..)
  | seat e window => exact seat m e window
  | detach d => exact detach m d
  | remove f p => exact fabricRemove m f p
  | read | write | raise | ring | control | identify | arm | interrupt | down | waitEvent | lapse
  | resume => exact of_same (hw.passes hv rfl).wiring

/-- What a machine refers to at some time, it refers to from then on. -/
theorem of_run {before more : List (Op × Notice)} (h : Run Step {} before m)
    (hmore : Run Step m more m') : Keeps m m' := by
  induction hmore with
  | nil => exact refl m
  | snoc hfront hs ih =>
      obtain ⟨hv, -, rfl⟩ := hs.inv
      exact ih.trans (carry (kept_of_run (h.trans hfront)).wired hv)

end Keeps

/-! ## Ports and devices are numbered by their making -/

theorem size_eq_of_has {kind : Kind} {α : Type} {t t' : Table kind α}
    (h : ∀ r, t'.Has r ↔ t.Has r) : t'.entries.size = t.entries.size := by
  refine Nat.le_antisymm (Nat.not_lt.mp fun hlt => ?_) (Nat.not_lt.mp fun hlt => ?_)
  · exact Nat.lt_irrefl _ ((h ⟨t.entries.size⟩).mp hlt)
  · exact Nat.lt_irrefl _ ((h ⟨t'.entries.size⟩).mpr hlt)

theorem ports_carry (hw : Wired m) (hv : op.Valid m) :
    (m.carry op).endpoints.entries.size =
      m.endpoints.entries.size + if op.port?.isSome then 1 else 0 := by
  cases op with
  | port f p => exact Array.size_push ..
  | join f p =>
      show (m.fabricAttach f p).1.endpoints.entries.size = _
      rw [fabricAttach_eq]
      exact Array.size_push ..
  | seat e window => exact size_eq_of_has fun _ => has_endpoint_seat window
  | detach d =>
      cases hs : (m.devices.get d).seat with
      | none => exact congrArg (fun m' => m'.endpoints.entries.size) (detach_of_none hs)
      | some s => exact congrArg (fun m' => m'.endpoints.entries.size) (detach_of_seat hs)
  | fabric | remove => rfl
  | read | write | raise | ring | control | identify | arm | interrupt | down | waitEvent | lapse
  | resume => exact size_eq_of_has (hw.passes hv rfl).wiring.hasEndpoint

theorem devices_carry (hw : Wired m) (hv : op.Valid m) :
    (m.carry op).devices.entries.size =
      m.devices.entries.size + if op.seats then 1 else 0 := by
  cases op with
  | join f p =>
      show (m.fabricAttach f p).1.devices.entries.size = _
      rw [fabricAttach_eq]
      exact Array.size_push ..
  | seat e window => exact Array.size_push ..
  | detach d =>
      cases hs : (m.devices.get d).seat with
      | none => exact congrArg (fun m' => m'.devices.entries.size) (detach_of_none hs)
      | some s =>
          rw [show m.carry (.detach d) = _ from detach_of_seat hs]
          exact Array.size_modify ..
  | fabric | port | remove => rfl
  | read | write | raise | ring | control | identify | arm | interrupt | down | waitEvent | lapse
  | resume => exact size_eq_of_has (hw.passes hv rfl).wiring.hasDevice

/-- A port that is made belongs to its fabric and has the next number on its line. -/
theorem port_carry (hop : op.port? = some (f, p)) :
    (m.carry op).endpoints.Has m.endpoints.fresh ∧
    ((m.carry op).endpoints.get m.endpoints.fresh).fabric = f ∧
    (m.carry op).lineNumber m.endpoints.fresh = (m.fabrics.get f).nextLine := by
  have hmade : (m.resources f p).1.endpoints.Has m.endpoints.fresh ∧
      ((m.resources f p).1.endpoints.get m.endpoints.fresh).fabric = f ∧
      (m.resources f p).1.lineNumber m.endpoints.fresh = (m.fabrics.get f).nextLine :=
    ⟨Table.has_push_fresh .., congrArg Endpoint.fabric (Table.get_push_fresh ..),
      congrArg Line.number lines_resources_fresh⟩
  cases op with
  | port g q =>
      cases hop
      exact hmade
  | join g q =>
      cases hop
      have hkeeps := Keeps.seat (m.resources f p).1 m.endpoints.fresh
        (some (m.fabrics.get f).window)
      rw [← fabricAttach_eq_seat] at hkeeps
      obtain ⟨hhas, hfabric, hnumber⟩ := hmade
      exact ⟨hkeeps.hasPort _ hhas, (hkeeps.fabric _ hhas).trans hfabric,
        (hkeeps.number _ hhas).trans hnumber⟩
  | fabric | seat | detach | remove | read | write | raise | ring | control | identify | arm
  | interrupt | down | waitEvent | lapse | resume => exact nomatch hop

/-- What the history of a run says of the machine after it. -/
structure Charted (acts : List (Op × Notice)) (m : Machine) : Prop where
  ports : m.endpoints.entries.size = portsMade acts
  devices : m.devices.entries.size = devicesMade acts
  ascending : ∀ f, (m.fabrics.get f).Ascending
  table : ∀ f p e, (m.fabrics.get f).endpoint? p = some e ↔ Current f p acts e
  nextLine : ∀ f, (m.fabrics.get f).nextLine = UInt32.ofNat (32 + portsMadeOn f acts)
  number : ∀ e, m.endpoints.Has e → ∃ k < portsMadeOn (m.endpoints.get e).fabric acts,
    m.lineNumber e = UInt32.ofNat (32 + k)

namespace Charted

variable {acts : List (Op × Notice)} {a : Op × Notice}

theorem empty : Charted [] {} := by
  have hnone (f : Ref .fabric) : ({} : Machine).fabrics.get f = default :=
    Table.get_of_not_has (Nat.not_lt_zero _)
  refine ⟨rfl, rfl, fun f => ?_, fun f p e => ?_, fun f => ?_, fun e he => ?_⟩
  · rw [hnone]
    exact .nil
  · rw [hnone]
    exact ⟨nofun, fun h => absurd h not_current_nil⟩
  · rw [hnone]
    rfl
  · exact absurd he (Nat.not_lt_zero _)

theorem snoc (h : Charted acts m) (hw : Wired m) (hv : a.1.Valid m) :
    Charted (acts ++ [a]) (m.carry a.1) := by
  have hports := ports_carry hw hv
  have hfresh : m.endpoints.fresh = ⟨portsMade acts⟩ := congrArg Ref.mk h.ports
  refine ⟨?_, ?_, fun f => ascending_carry hw hv (h.ascending f), fun f p e => ?_, fun f => ?_,
    fun e he => ?_⟩
  · rw [hports, h.ports, portsMade, portsMade, List.countP_append, List.countP_singleton]
  · rw [devices_carry hw hv, h.devices, devicesMade, devicesMade, List.countP_append,
      List.countP_singleton]
  · rw [endpoint?_carry hw hv, current_snoc, ← h.table, hfresh]
    by_cases hport : a.1.port? = some (f, p)
    · rw [if_pos hport]
      simp [hport, eq_comm]
    · rw [if_neg hport]
      by_cases hremoval : a.1.removal? = some (f, p)
      · simp [hport, hremoval]
      · simp [hport, hremoval]
  · rw [nextLine_carry hw hv, h.nextLine, portsMadeOn, portsMadeOn, List.countP_append,
      List.countP_singleton]
    split
    · exact (UInt32.ofNat_add (32 + portsMadeOn f acts) 1).symm
    · rfl
  · have hmore (f : Ref .fabric) : portsMadeOn f acts ≤ portsMadeOn f (acts ++ [a]) := by
      rw [portsMadeOn, portsMadeOn, List.countP_append]
      exact Nat.le_add_right ..
    have hkeeps := Keeps.carry hw hv
    by_cases hold : m.endpoints.Has e
    · obtain ⟨k, hk, hnumber⟩ := h.number e hold
      rw [hkeeps.fabric e hold, hkeeps.number e hold]
      exact ⟨k, Nat.lt_of_lt_of_le hk (hmore _), hnumber⟩
    · cases hport : a.1.port? with
      | none =>
          have hsame : (m.carry a.1).endpoints.entries.size = m.endpoints.entries.size := by
            rw [hports, hport]
            rfl
          exact absurd (Nat.lt_of_lt_of_eq he hsame) hold
      | some made =>
          obtain ⟨f, p⟩ := made
          obtain ⟨-, hfabric, hnumber⟩ := port_carry hport
          have hone : (m.carry a.1).endpoints.entries.size = m.endpoints.entries.size + 1 := by
            rw [hports, hport]
            rfl
          have hnew : e = m.endpoints.fresh := by
            have hlt : e.index < m.endpoints.entries.size + 1 := Nat.lt_of_lt_of_eq he hone
            have hge : ¬e.index < m.endpoints.entries.size := hold
            have hindex : e.index = m.endpoints.entries.size := by omega
            exact congrArg Ref.mk hindex
          rw [hnew, hfabric, hnumber]
          refine ⟨portsMadeOn f acts, ?_, h.nextLine f⟩
          rw [portsMadeOn, portsMadeOn, List.countP_append, List.countP_singleton, hport]
          simp

theorem of_run (h : Run Step {} acts m) : Charted acts m := by
  induction h with
  | nil => exact empty
  | snoc hfront hs ih =>
      obtain ⟨hv, -, rfl⟩ := hs.inv
      exact ih.snoc (kept_of_run hfront).wired hv

/-- As long as there are numbers left, a new port gets one that no other port of its fabric has. -/
theorem number_fresh (h : Charted acts m) (hroom : portsMadeOn f acts < UInt32.size)
    {e : Ref .endpoint} (he : m.endpoints.Has e) (hfabric : (m.endpoints.get e).fabric = f) :
    m.lineNumber e ≠ (m.fabrics.get f).nextLine := by
  obtain ⟨k, hk, hnumber⟩ := h.number e he
  rw [hfabric] at hk
  rw [hnumber, h.nextLine]
  intro hsame
  have hmod := congrArg UInt32.toNat hsame
  rw [UInt32.toNat_ofNat', UInt32.toNat_ofNat'] at hmod
  have hsize : UInt32.size = 2 ^ 32 := rfl
  omega

end Charted

/-! ## How far a status gets -/

/-- Nothing changes but one port, and the devices that are attached to it. -/
structure Reaches (m : Machine) (port : Option (Ref .endpoint)) (m' : Machine) : Prop where
  ports : ∀ e, port ≠ some e → m'.endpoints.get e = m.endpoints.get e
  devices : ∀ d, (∀ e, port = some e → ¬m.Sits d e) → m'.devices.get d = m.devices.get d
  beside : m' = { m with endpoints := m'.endpoints, devices := m'.devices }

section Reaching

variable {d : Ref .device} {e : Ref .endpoint}

theorem Reaches.refl (m : Machine) (port : Option (Ref .endpoint)) : Reaches m port m :=
  ⟨fun _ _ => rfl, fun _ _ => rfl, rfl⟩

theorem Wired.given_reaches (h : Wired m) (f : Ref .fabric) (p : PeerId) (status : UInt32)
    (force : Bool) :
    Reaches m ((m.fabrics.get f).endpoint? p) (m.given f p status force) := by
  cases hpeer : (m.fabrics.get f).endpoint? p with
  | none =>
      rw [given_of_none hpeer]
      exact .refl m none
  | some e =>
      rw [given_of_some hpeer]
      have hports (e' : Ref .endpoint) (status : UInt32) (hne : some e ≠ some e') :
          (m.latch e status).endpoints.get e' = m.endpoints.get e' :=
        Table.get_modify_of_ne _ (fun h => hne (congrArg some h)) _
      cases hhear : m.hearer? e force with
      | none =>
          rw [delivered_of_none hhear]
          exact ⟨fun e' hne => hports e' status hne, fun _ _ => rfl, rfl⟩
      | some d =>
          rw [delivered_of_some hhear]
          have hsits := h.sits_of_hearer (h.known f p e hpeer) hhear
          refine ⟨fun e' hne => hports e' 0 hne, fun d' hother => ?_, rfl⟩
          refine Table.get_modify_of_ne _ ?_ _
          rintro rfl
          exact hother e rfl hsits

theorem Wired.ring_reaches (h : Wired m) (hd : m.devices.Has d)
    (hreg : (m.devices.get d).registers = .endpoint e) (target : PeerId) (command : Command) :
    Reaches m ((m.fabrics.get (m.endpoints.get e).fabric).endpoint? target)
      (m.ring d target command).1 := by
  cases henabled : (m.devices.get d).enabled with
  | false =>
      rw [ring_of_disabled henabled]
      exact .refl m _
  | true =>
      rw [h.ring henabled (h.hasPort hd hreg) hreg]
      exact h.given_reaches ..

/-- A device on a port of the past hears of nothing. -/
theorem Reaches.of_past {f g : Ref .fabric} {p q : PeerId} {acts : List (Op × Notice)}
    (h : Reaches m ((m.fabrics.get g).endpoint? q) m') (hc : Charted acts m)
    (hpast : Past f p acts e) (hreg : (m.devices.get d).registers = .endpoint e) :
    m'.devices.get d = m.devices.get d := by
  refine h.devices d fun e' he' hsits => ?_
  cases hreg.symm.trans hsits.registers
  exact hpast.not_current g q ((hc.table g q e).mp he')

end Reaching

/-- To remove a peer concerns its own entry alone. -/
theorem removal_exact (hf : m.fabrics.Has f) (p : PeerId) :
    ((m.fabricRemove f p).2 = true ↔ p ∈ (m.fabrics.get f).peers) ∧
    ((m.fabricRemove f p).1.fabrics.get f).peers = (m.fabrics.get f).peers.filter (· ≠ p) ∧
    (∀ q, q ≠ p → ((m.fabricRemove f p).1.fabrics.get f).endpoint? q =
      (m.fabrics.get f).endpoint? q) ∧
    ∀ g, g ≠ f → (m.fabricRemove f p).1.fabrics.get g = m.fabrics.get g := by
  have hafter : (m.fabricRemove f p).1.fabrics.get f = (m.fabrics.get f).disconnect p :=
    Table.get_modify_self hf _
  refine ⟨?_, ?_, fun q hq => ?_, fun g hg => Table.get_modify_of_ne _ hg.symm _⟩
  · rw [Fabric.mem_peers, ← Option.isSome_iff_exists]
    exact Iff.rfl
  · rw [hafter, Fabric.peers_disconnect]
  · rw [hafter, Fabric.endpoint?_disconnect_eq, if_neg hq.symm]

/-- A port belongs to the fabric that it was made on. -/
theorem Past.fabric {acts : List (Op × Notice)} {e : Ref .endpoint} (hpast : Past f p acts e)
    (h : Run Step {} acts m) : (m.endpoints.get e).fabric = f := by
  obtain ⟨before, a, after, rfl, hport, rfl, -⟩ := hpast
  obtain ⟨u, hfront, hrest⟩ := h.of_append
  obtain ⟨v, hs, hmore⟩ := hrest.of_cons
  obtain ⟨hv, -, rfl⟩ := hs.inv
  obtain ⟨hhas, hfabric, -⟩ := port_carry (m := u) hport
  have hnew : u.endpoints.fresh = ⟨portsMade before⟩ :=
    congrArg Ref.mk (Charted.of_run hfront).ports
  rw [hnew] at hhas hfabric
  exact ((Keeps.of_run (hfront.snoc hs) hmore).fabric _ hhas).trans hfabric

/-- A device that joined a fabric uses the port that was made for it, and the fabric's window. -/
theorem joined_of_run {before after acts : List (Op × Notice)} {n : Notice}
    (h : Run Step {} acts m) (hacts : acts = before ++ (.join f p, n) :: after) :
    (m.devices.get ⟨devicesMade before⟩).registers = .endpoint ⟨portsMade before⟩ ∧
    (m.devices.get ⟨devicesMade before⟩).window = some (m.fabrics.get f).window := by
  subst hacts
  obtain ⟨u, hfront, hrest⟩ := h.of_append
  obtain ⟨v, hs, hmore⟩ := hrest.of_cons
  obtain ⟨hf, -, rfl⟩ := hs.inv
  have hc := Charted.of_run hfront
  have hdevice : u.devices.fresh = ⟨devicesMade before⟩ := congrArg Ref.mk hc.devices
  have hport : u.endpoints.fresh = ⟨portsMade before⟩ := congrArg Ref.mk hc.ports
  have hkeeps := Keeps.of_run (hfront.snoc hs) hmore
  have hjoined : (u.carry (.join f p)).devices.Has u.devices.fresh ∧
      (u.carry (.join f p)).devices.get u.devices.fresh =
        { registers := .endpoint u.endpoints.fresh
          window := some (u.fabrics.get f).window
          enabled := true
          seat := some ⟨u.lines.fresh, 1⟩ } := by
    show (u.fabricAttach f p).1.devices.Has _ ∧ (u.fabricAttach f p).1.devices.get _ = _
    rw [fabricAttach_eq]
    exact ⟨Table.has_push_fresh .., Table.get_push_fresh ..⟩
  obtain ⟨hhas, hget⟩ := hjoined
  have hshared := (Keeps.of_run hfront ((Run.single hs).trans hmore)).shared f hf
  rw [← hdevice, ← hport, hkeeps.registers _ hhas, hkeeps.window _ hhas, hget, hshared]
  exact ⟨rfl, rfl⟩

/-- **The ports of a fabric follow its history.**  After any run, a fabric lists its peers in
ascending order, and those for whom a port was made that was not removed since; its table names the
port made last for each of them.  To remove a peer says whether it was listed, and concerns nobody
else.  A new port is masked and shows no status, and as long as fewer than `2 ^ 32` were made on
its fabric, the number of its line is new.  A doorbell, a status that is raised and a ring reach no
port but the one that the table names, and nobody but the devices attached to it.  So a device whose
port was replaced or removed hears of none of them, while it still rings whom the table names.  All
devices keep the registers and the window of their attachment, and a device that joined a fabric
has the window that the fabric has. -/
theorem ports_follow_history {acts : List (Op × Notice)} (h : Run Step {} acts m) :
    (∀ f, (m.fabrics.get f).peers.Pairwise (fun p q => p.number < q.number) ∧
      ∀ p, (p ∈ (m.fabrics.get f).peers ↔ ∃ e, Current f p acts e) ∧
        ∀ e, (m.fabrics.get f).endpoint? p = some e ↔ Current f p acts e) ∧
    (∀ f p, m.fabrics.Has f →
      ((m.fabricRemove f p).2 = true ↔ p ∈ (m.fabrics.get f).peers) ∧
      ((m.fabricRemove f p).1.fabrics.get f).peers = (m.fabrics.get f).peers.filter (· ≠ p) ∧
      (∀ q, q ≠ p → ((m.fabricRemove f p).1.fabrics.get f).endpoint? q =
        (m.fabrics.get f).endpoint? q) ∧
      ∀ g, g ≠ f → (m.fabricRemove f p).1.fabrics.get g = m.fabrics.get g) ∧
    (∀ f p, (m.resources f p).1.endpoints.get (m.resources f p).2.endpoint =
        { peer := p, mask := 0, status := 0, line := (m.resources f p).2.line, fabric := f } ∧
      (portsMadeOn f acts < 2 ^ 32 → ∀ e, m.endpoints.Has e → (m.endpoints.get e).fabric = f →
        (m.resources f p).1.lineNumber e ≠
          (m.resources f p).1.lineNumber (m.resources f p).2.endpoint)) ∧
    (∀ s (raw : UInt32), m.endpoints.Has s →
      Reaches m ((m.fabrics.get (m.endpoints.get s).fabric).endpoint? ⟨(raw >>> 16).toUInt16⟩)
        (m.writeRegister (.endpoint s) .doorbell raw)) ∧
    (∀ f p status, Reaches m ((m.fabrics.get f).endpoint? p) (m.fabricRaise f p status).1) ∧
    (∀ d e target command, m.devices.Has d → (m.devices.get d).registers = .endpoint e →
      Reaches m ((m.fabrics.get (m.endpoints.get e).fabric).endpoint? target)
        (m.ring d target command).1) ∧
    (∀ f p e, Past f p acts e → ∀ d, (m.devices.get d).registers = .endpoint e →
      (∀ s raw, m.endpoints.Has s →
        (m.writeRegister (.endpoint s) .doorbell raw).devices.get d = m.devices.get d) ∧
      (∀ g q status, (m.fabricRaise g q status).1.devices.get d = m.devices.get d) ∧
      (∀ d' target command, m.devices.Has d' →
        (m.ring d' target command).1.devices.get d = m.devices.get d) ∧
      ((m.devices.get d).enabled = true → ∀ target command, m.ring d target command =
        (m.given f target command.code.toUInt32 false, .ok ()))) ∧
    (∀ before more u, Run Step {} before u → Run Step u more m → Keeps u m) ∧
    ∀ before f p n after, acts = before ++ (.join f p, n) :: after →
      (m.devices.get ⟨devicesMade before⟩).registers = .endpoint ⟨portsMade before⟩ ∧
      (m.devices.get ⟨devicesMade before⟩).window = some (m.fabrics.get f).window := by
  have hw := (kept_of_run h).wired
  have hc := Charted.of_run h
  have hwrite (s : Ref .endpoint) (raw : UInt32) (hs : m.endpoints.Has s) :
      Reaches m ((m.fabrics.get (m.endpoints.get s).fabric).endpoint? ⟨(raw >>> 16).toUInt16⟩)
        (m.writeRegister (.endpoint s) .doorbell raw) := by
    rw [hw.writeDoorbell hs]
    exact hw.given_reaches ..
  have hraise (f : Ref .fabric) (p : PeerId) (status : UInt32) :
      Reaches m ((m.fabrics.get f).endpoint? p) (m.fabricRaise f p status).1 := by
    rw [hw.fabricRaise]
    exact hw.given_reaches ..
  refine ⟨fun f => ⟨(hc.ascending f).peers, fun p => ⟨?_, hc.table f p⟩⟩, fun f p hf => ?_,
    fun f p => ⟨?_, fun hroom e he hfabric => ?_⟩, hwrite, hraise,
    fun d e target command hd hreg => hw.ring_reaches hd hreg target command,
    fun f p e hpast d hreg => ?_, fun before more u hfront hmore => .of_run hfront hmore,
    fun before f p n after hacts => ?_⟩
  · rw [Fabric.mem_peers]
    exact exists_congr (hc.table f p)
  · exact removal_exact hf p
  · exact Table.get_push_fresh ..
  · have hkept := (Keeps.resources hw f p).number e he
    have hnew : (m.resources f p).1.lineNumber (m.resources f p).2.endpoint =
        (m.fabrics.get f).nextLine := congrArg Line.number lines_resources_fresh
    rw [hkept, hnew]
    exact hc.number_fresh hroom he hfabric
  · refine ⟨fun s raw hs => (hwrite s raw hs).of_past hc hpast hreg,
      fun g q status => (hraise g q status).of_past hc hpast hreg,
      fun d' target command hd' => ?_, fun henabled target command => ?_⟩
    · obtain ⟨e', -, hreg'⟩ := hw.bound d' hd'
      exact (hw.ring_reaches hd' hreg' target command).of_past hc hpast hreg
    · have hfabric := hpast.fabric h
      have hd := has_of_enabled henabled
      rw [hw.ring henabled (hw.hasPort hd hreg) hreg, hfabric]
  · exact joined_of_run h hacts

/-- A peer joins twice, and another one joins and is removed.  The device of the first port hears
of no status any more, but its own ring arrives at the device that took its place. -/
theorem ports_follow_history_replaced :
    ∃ (acts : List (Op × Notice)) (m : Machine), Run Step {} acts m ∧
      Past ⟨0⟩ ⟨2⟩ acts ⟨0⟩ ∧ (m.fabrics.get ⟨0⟩).peers = [⟨2⟩] ∧
      (m.fabrics.get ⟨0⟩).endpoint? ⟨2⟩ = some ⟨2⟩ ∧
      (∀ status, (m.fabricRaise ⟨0⟩ ⟨2⟩ status).1.devices.get ⟨0⟩ = m.devices.get ⟨0⟩) ∧
      m.ring ⟨0⟩ ⟨2⟩ .semaIrq = (m.heardBy ⟨2⟩ ⟨2⟩ 7, .ok ()) ∧
      (m.devices.get ⟨0⟩).window = some (m.fabrics.get ⟨0⟩).window := by
  let rest : List (Op × Notice) :=
    [(.join ⟨0⟩ ⟨1⟩, none), (.join ⟨0⟩ ⟨2⟩, none), (.ring ⟨1⟩ ⟨2⟩ .waitEventIrq,
      some (⟨2⟩, .heard 4)), (.remove ⟨0⟩ ⟨1⟩, none), (.raise ⟨0⟩ ⟨1⟩ 7, none)]
  let acts := [(.fabric 8, none)] ++ (.join ⟨0⟩ ⟨2⟩, none) :: rest
  have hany : (acts.foldlM act {}).any (fun m =>
      (m.fabrics.get ⟨0⟩).peers = [⟨2⟩] ∧ (m.devices.get ⟨0⟩).registers = .endpoint ⟨0⟩ ∧
      (m.devices.get ⟨0⟩).enabled = true ∧ m.hearer? ⟨2⟩ false = some ⟨2⟩) = true := by
    decide
  obtain ⟨m, hrun, hm⟩ := Run.exists_of_any hany
  obtain ⟨hpeers, hreg, henabled, hhear⟩ := of_decide_eq_true hm
  have hpast : Past ⟨0⟩ ⟨2⟩ acts ⟨0⟩ :=
    ⟨[(.fabric 8, none)], (.join ⟨0⟩ ⟨2⟩, none), rest, rfl, rfl, rfl, by decide⟩
  have hcurrent : Current ⟨0⟩ ⟨2⟩ acts ⟨2⟩ :=
    ⟨[(.fabric 8, none), (.join ⟨0⟩ ⟨2⟩, none), (.join ⟨0⟩ ⟨1⟩, none)], (.join ⟨0⟩ ⟨2⟩, none), _,
      rfl, rfl, rfl, by decide⟩
  obtain ⟨htable, -, -, -, -, -, hstale, -, hjoined⟩ := ports_follow_history hrun
  have hport := ((htable ⟨0⟩).2 ⟨2⟩).2 ⟨2⟩ |>.mpr hcurrent
  obtain ⟨-, hraise, -, hring⟩ := hstale ⟨0⟩ ⟨2⟩ ⟨0⟩ hpast ⟨0⟩ hreg
  refine ⟨acts, m, hrun, hpast, hpeers, hport, fun status => hraise _ _ status, ?_,
    (hjoined [(.fabric 8, none)] ⟨0⟩ ⟨2⟩ none rest rfl).2⟩
  rw [hring henabled, given_of_some hport, delivered_of_some hhear]
  rfl

end Machine

end PeerBus
