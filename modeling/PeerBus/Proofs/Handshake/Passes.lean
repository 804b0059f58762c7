/-
# `PeerBus.Proofs.Handshake.Passes` — passes over the slots are sound and complete

A pass walks along the slots by address, while everybody else reaches them through a session, which
looks whether the slot is there.  Both are the same words:

| | |
| :-- | :-- |
| `Session.setSlots_eq_fillFrom` | to fill is to set one slot after the other through the session |
| `Session.verifyPass_eq_ok_iff` | a check succeeds just if each slot holds the word of the round |
| `Session.verifyPass_eq_mismatch_iff` | or else it reports the first slot that does not |

The word of a round in a slot is the index, cut to 32 bits, combined with the seed.  So in each slot
the words of two seeds differ (`Layout.pattern_inj`), and as long as there are no more slots than
32-bit words, the words of two slots differ (`Layout.index_eq_of_pattern`): with more of them, two
slots whose indices differ by a multiple of `UInt32.size` could be exchanged unnoticed.
-/
import PeerBus.Proofs.Handshake.Sessions
import PeerBus.Proofs.Handshake.Verdict
import PeerBus.Proofs.Handshake.ServeOnce

namespace PeerBus

/-! ## The words of a round -/

namespace Layout

variable {i j : Nat} {seed seed' : UInt32}

theorem toNat_pattern (i : Nat) (seed : UInt32) :
    (pattern i seed).toNat = i % UInt32.size ^^^ seed.toNat := by
  rw [pattern, UInt32.toNat_xor, UInt32.toNat_ofNat']

theorem pattern_inj : pattern i seed = pattern i seed' ↔ seed = seed' :=
  UInt32.xor_right_inj _

theorem index_eq_of_pattern (hi : i < UInt32.size) (hj : j < UInt32.size)
    (h : pattern i seed = pattern j seed) : i = j := by
  have hword : UInt32.ofNat i = UInt32.ofNat j := (UInt32.xor_left_inj _).mp h
  have hnat := congrArg UInt32.toNat hword
  rw [UInt32.toNat_ofNat', UInt32.toNat_ofNat'] at hnat
  rwa [Nat.mod_eq_of_lt hi, Nat.mod_eq_of_lt hj] at hnat

end Layout

/-! ## Checks -/

/-- If some slot is wrong, there is a first one. -/
theorem Client.exists_firstWrong {slot : Nat → UInt32} {seed : UInt32} {slots : Nat}
    (h : ¬Client.Holds slot seed slots) : ∃ i, Client.FirstWrong slot seed slots i := by
  induction slots with
  | zero => exact absurd .zero h
  | succ slots ih =>
      by_cases hfront : Client.Holds slot seed slots
      · exact ⟨slots, Nat.lt_succ_self _, fun hlast => h (hfront.succ hlast), hfront⟩
      · obtain ⟨i, hi⟩ := ih hfront
        exact ⟨i, Nat.lt_succ_of_lt hi.lt, hi.wrong, hi.before⟩

namespace Memory

variable {m : Memory} {seed : UInt32} {index : Nat}

theorem cell_slot (m : Memory) (i : Nat) : m.cell (.slot i) = m.slotWord i := by
  rw [cell, slotWord, Layout.slotAddress_eq, Cell.address, Cell.number, Nat.mul_add]

theorem setCell_slot (m : Memory) (i : Nat) (word : UInt32) :
    m.setCell (.slot i) word = m.setSlotWord i word := by
  rw [setCell, setSlotWord, Layout.slotAddress_eq, Cell.address, Cell.number, Nat.mul_add]

theorem mismatchAt?_of_eq (h : m.slotWord index = Layout.pattern index seed) :
    m.mismatchAt? seed index = none := by
  simp only [mismatchAt?, h, if_true]

theorem mismatchAt?_of_ne (h : m.slotWord index ≠ Layout.pattern index seed) :
    m.mismatchAt? seed index = some ⟨index, Layout.pattern index seed, m.slotWord index⟩ := by
  simp only [mismatchAt?, h, if_false]

theorem checkFrom_of_right {count : Nat}
    (h : ∀ i, index ≤ i → i < index + count → m.slotWord i = Layout.pattern i seed) :
    m.checkFrom seed count index = none := by
  induction count generalizing index with
  | zero => rfl
  | succ count ih =>
      rw [checkFrom, mismatchAt?_of_eq (h index Nat.le.refl (by omega))]
      refine ih ?_
      intro i hlo hhi
      exact h i (by omega) (by omega)

theorem checkFrom_of_wrong {count i : Nat} (hlo : index ≤ i) (hhi : i < index + count)
    (hwrong : m.slotWord i ≠ Layout.pattern i seed)
    (hfront : ∀ j, index ≤ j → j < i → m.slotWord j = Layout.pattern j seed) :
    m.checkFrom seed count index = some ⟨i, Layout.pattern i seed, m.slotWord i⟩ := by
  induction count generalizing index with
  | zero => omega
  | succ count ih =>
      rw [checkFrom]
      by_cases hi : i = index
      · subst hi
        rw [mismatchAt?_of_ne hwrong]
      · rw [mismatchAt?_of_eq (hfront index Nat.le.refl (by omega))]
        refine ih (by omega) (by omega) ?_
        intro j hj hji
        exact hfront j (by omega) hji

end Memory

namespace Session

variable {s : Session} {m : Memory} {seed seed' : UInt32}

theorem verifyPass_of_holds (h : Client.Holds m.slotWord seed s.slots.toNat) :
    s.verifyPass m seed = .ok s.slots := by
  have hcheck : m.check s.slots.toNat seed = none := by
    refine Memory.checkFrom_of_right ?_
    intro i _ hi
    exact h i (by omega)
  rw [verifyPass, hcheck]

theorem verifyPass_of_firstWrong {i : Nat}
    (h : Client.FirstWrong m.slotWord seed s.slots.toNat i) :
    s.verifyPass m seed = .error (.mismatch ⟨i, Layout.pattern i seed, m.slotWord i⟩) := by
  have hcheck : m.check s.slots.toNat seed =
      some ⟨i, Layout.pattern i seed, m.slotWord i⟩ := by
    have hlt := h.lt
    exact Memory.checkFrom_of_wrong (Nat.zero_le _) (by omega) h.wrong fun j _ hj => h.before j hj
  rw [verifyPass, hcheck]

/-- A slot, read through the session, holds the word of the round. -/
def Right (s : Session) (m : Memory) (seed : UInt32) (index : UInt64) : Prop :=
  s.slot? m index = some (Layout.pattern index.toNat seed)

theorem slot?_eq_slotWord (h : s.Fits m) {index : UInt64} (hindex : index < s.slots) :
    s.slot? m index = some (m.slotWord index.toNat) := by
  rw [slot?_of_lt h (UInt64.lt_iff_toNat_lt.mp hindex), Memory.cell_slot]

/-- The slots whose index is less than a word are those of the words less than it. -/
theorem holds_iff (h : s.Fits m) {stop : UInt64} (hstop : stop ≤ s.slots) :
    Client.Holds m.slotWord seed stop.toNat ↔ ∀ i < stop, s.Right m seed i := by
  have hslot (i : UInt64) (hi : i < stop) :
      s.Right m seed i ↔ m.slotWord i.toNat = Layout.pattern i.toNat seed := by
    rw [Right, slot?_eq_slotWord h (UInt64.lt_of_lt_of_le hi hstop), Option.some_inj]
  constructor
  · intro hholds i hi
    exact (hslot i hi).mpr (hholds i.toNat (UInt64.lt_iff_toNat_lt.mp hi))
  · intro hright i hi
    have hlt := stop.toNat_lt_size
    have hword : (UInt64.ofNat i).toNat = i :=
      UInt64.toNat_ofNat_of_lt' (by omega)
    have hthere : UInt64.ofNat i < stop := UInt64.lt_iff_toNat_lt.mpr (by rwa [hword])
    have hi' := (hslot _ hthere).mp (hright _ hthere)
    rwa [hword] at hi'

theorem verifyPass_eq_ok_iff (h : s.Fits m) :
    s.verifyPass m seed = .ok s.slots ↔ ∀ i < s.slots, s.Right m seed i := by
  rw [← holds_iff h UInt64.le_rfl]
  constructor
  · intro hok
    by_cases hholds : Client.Holds m.slotWord seed s.slots.toNat
    · exact hholds
    · obtain ⟨i, hi⟩ := Client.exists_firstWrong hholds
      rw [verifyPass_of_firstWrong hi] at hok
      exact nomatch hok
  · exact verifyPass_of_holds

/-- What is wrong is told by its slot, and it is the first slot that is wrong. -/
theorem verifyPass_eq_mismatch_iff (h : s.Fits m) {wrong : Mismatch} :
    s.verifyPass m seed = .error (.mismatch wrong) ↔
      ∃ i < s.slots, s.slot? m i = some wrong.found ∧ wrong.index = i.toNat ∧
        wrong.expected = Layout.pattern i.toNat seed ∧ wrong.found ≠ wrong.expected ∧
        ∀ j < i, s.Right m seed j := by
  constructor
  · intro herror
    by_cases hholds : Client.Holds m.slotWord seed s.slots.toNat
    · rw [verifyPass_of_holds hholds] at herror
      exact nomatch herror
    · obtain ⟨n, hn⟩ := Client.exists_firstWrong hholds
      rw [verifyPass_of_firstWrong hn] at herror
      obtain rfl := HandshakeError.mismatch.inj (Except.error.inj herror)
      have hlt := s.slots.toNat_lt_size
      have hword : (UInt64.ofNat n).toNat = n :=
        UInt64.toNat_ofNat_of_lt' (Nat.lt_trans hn.lt hlt)
      have hthere : UInt64.ofNat n < s.slots := by
        rw [UInt64.lt_iff_toNat_lt, hword]
        exact hn.lt
      refine ⟨UInt64.ofNat n, hthere, ?_, hword.symm, by rw [hword], hn.wrong, ?_⟩
      · rw [slot?_eq_slotWord h hthere, hword]
      · refine (holds_iff h (UInt64.le_of_lt hthere)).mp ?_
        rw [hword]
        exact hn.before
  · rintro ⟨i, hi, hfound, hindex, hexpected, hwrong, hfront⟩
    obtain ⟨index, expected, found⟩ := wrong
    obtain rfl : index = i.toNat := hindex
    obtain rfl : expected = Layout.pattern i.toNat seed := hexpected
    rw [slot?_eq_slotWord h hi] at hfound
    obtain rfl : m.slotWord i.toNat = found := Option.some.inj hfound
    exact verifyPass_of_firstWrong ⟨UInt64.lt_iff_toNat_lt.mp hi, hwrong,
      (holds_iff h (UInt64.le_of_lt hi)).mpr hfront⟩

/-- A check has no other outcome. -/
theorem verifyPass_cases (s : Session) (m : Memory) (seed : UInt32) :
    s.verifyPass m seed = .ok s.slots ∨
      ∃ wrong, s.verifyPass m seed = .error (.mismatch wrong) := by
  by_cases h : Client.Holds m.slotWord seed s.slots.toNat
  · exact .inl (verifyPass_of_holds h)
  · obtain ⟨i, hi⟩ := Client.exists_firstWrong h
    exact .inr ⟨_, verifyPass_of_firstWrong hi⟩

/-! ## Fills -/

/-- Sets slots one after the other; the answer tells whether all of them were there. -/
def setSlots (s : Session) (word : UInt64 → UInt32) (m : Memory) : List UInt64 → Bool × Memory
  | [] => (true, m)
  | index :: rest =>
      let (stored, m) := s.setSlot m index (word index)
      let (all, m) := setSlots s word m rest
      (stored && all, m)

variable {word : UInt64 → UInt32} {index : UInt64} {l : List UInt64}

theorem Fits.setSlotWord (h : s.Fits m) (i : Nat) (value : UInt32) :
    s.Fits (m.setSlotWord i value) := by
  rw [Fits, Memory.size_bytes_setSlotWord]
  exact h

theorem setSlots_cons (h : s.Fits m) (hindex : index < s.slots) :
    s.setSlots word m (index :: l) =
      s.setSlots word (m.setSlotWord index.toNat (word index)) l := by
  rw [setSlots, setSlot_of_lt h (UInt64.lt_iff_toNat_lt.mp hindex), Memory.setCell_slot]
  simp only [Bool.true_and]

/-- The slots that a pass walks along are those that the session sets. -/
theorem setSlots_eq_fillFrom {count start : Nat} (h : s.Fits m)
    (hcount : start + count ≤ s.slots.toNat) :
    s.setSlots (fun i => Layout.pattern i.toNat seed) m
        ((List.range' start count).map UInt64.ofNat) =
      (true, Memory.fillFrom seed count start m) := by
  induction count generalizing start m with
  | zero => rfl
  | succ count ih =>
      have hlt := s.slots.toNat_lt_size
      have hword : (UInt64.ofNat start).toNat = start :=
        UInt64.toNat_ofNat_of_lt' (by omega)
      have hthere : UInt64.ofNat start < s.slots := by
        rw [UInt64.lt_iff_toNat_lt, hword]
        omega
      rw [List.range'_succ, List.map_cons, setSlots_cons h hthere, hword, Memory.fillFrom]
      exact ih (h.setSlotWord start _) (by omega)

theorem holds_fill (h : s.Fits m) (seed : UInt32) :
    Client.Holds (m.fill s.slots.toNat seed).slotWord seed s.slots.toNat := by
  have hroom : 28 + 4 * s.slots.toNat ≤ m.bytes.size := h
  intro i hi
  rw [Memory.fill, Memory.slotWord_fillFrom seed _ _ (by omega), if_pos (by omega)]

theorem Fits.fill (h : s.Fits m) (seed : UInt32) : s.Fits (m.fill s.slots.toNat seed) := by
  rw [Fits, Memory.fill, Memory.size_bytes_fillFrom]
  exact h

/-- What was filled with one seed is not what another seed asks for. -/
theorem verifyPass_fill (h : s.Fits m) (hslots : 0 < s.slots.toNat) :
    s.verifyPass (m.fill s.slots.toNat seed) seed' = .ok s.slots ↔ seed' = seed := by
  have hholds := holds_fill h seed
  constructor
  · intro hok
    have hright := (verifyPass_eq_ok_iff (h.fill seed)).mp hok
    have hholds' := (holds_iff (h.fill seed) UInt64.le_rfl).mpr hright
    have hfirst : Layout.pattern 0 seed' = Layout.pattern 0 seed :=
      (hholds' 0 hslots).symm.trans (hholds 0 hslots)
    exact Layout.pattern_inj.mp hfirst
  · rintro rfl
    exact verifyPass_of_holds hholds

/-! ## Slots that were changed -/

theorem Fits.setSlots (h : s.Fits m) (hl : ∀ i ∈ l, i < s.slots) :
    s.Fits (s.setSlots word m l).2 := by
  induction l generalizing m with
  | nil => exact h
  | cons i l ih =>
      obtain ⟨hi, hrest⟩ := List.forall_mem_cons.mp hl
      rw [setSlots_cons h hi]
      exact ih (h.setSlotWord i.toNat _) hrest

theorem slotWord_setSlotWord (h : s.Fits m) (hindex : index < s.slots) (value : UInt32) (n : Nat) :
    (m.setSlotWord index.toNat value).slotWord n =
      if n = index.toNat then value else m.slotWord n := by
  have hroom : 28 + 4 * s.slots.toNat ≤ m.bytes.size := h
  have hlt := UInt64.lt_iff_toNat_lt.mp hindex
  exact Memory.slotWord_setSlotWord (by omega) n value

theorem slotWord_setSlots_of_not_mem (h : s.Fits m) (hl : ∀ i ∈ l, i < s.slots) {n : Nat}
    (hn : ∀ i ∈ l, i.toNat ≠ n) : (s.setSlots word m l).2.slotWord n = m.slotWord n := by
  induction l generalizing m with
  | nil => rfl
  | cons i l ih =>
      obtain ⟨hi, hrest⟩ := List.forall_mem_cons.mp hl
      obtain ⟨hne, hnrest⟩ := List.forall_mem_cons.mp hn
      rw [setSlots_cons h hi, ih (h.setSlotWord i.toNat _) hrest hnrest,
        slotWord_setSlotWord h hi, if_neg (Ne.symm hne)]

theorem slotWord_setSlots_of_mem (h : s.Fits m) (hl : ∀ i ∈ l, i < s.slots) (hindex : index ∈ l) :
    (s.setSlots word m l).2.slotWord index.toNat = word index := by
  induction l generalizing m with
  | nil => exact absurd hindex List.not_mem_nil
  | cons i l ih =>
      obtain ⟨hi, hrest⟩ := List.forall_mem_cons.mp hl
      rw [setSlots_cons h hi]
      -- what counts is whether the slot is set once more
      by_cases hagain : index ∈ l
      · exact ih (h.setSlotWord i.toNat _) hrest hagain
      · obtain rfl := (List.mem_cons.mp hindex).resolve_right hagain
        have hlast : ∀ j ∈ l, j.toNat ≠ index.toNat := by
          intro j hj heq
          exact hagain (UInt64.toNat_inj.mp heq ▸ hj)
        rw [slotWord_setSlots_of_not_mem (h.setSlotWord index.toNat _) hrest hlast,
          slotWord_setSlotWord h hi, if_pos rfl]

/-- If good slots are overwritten by other words, the first of them is found. -/
theorem verifyPass_setSlots (h : s.Fits m) (hgood : Client.Holds m.slotWord seed s.slots.toNat)
    (hsome : l ≠ []) (hl : ∀ i ∈ l, i < s.slots ∧ word i ≠ Layout.pattern i.toNat seed) :
    ∃ first ∈ l, (∀ i ∈ l, first ≤ i) ∧
      s.verifyPass (s.setSlots word m l).2 seed =
        .error (.mismatch ⟨first.toNat, Layout.pattern first.toNat seed, word first⟩) := by
  have hthere : ∀ i ∈ l, i < s.slots := fun i hi => (hl i hi).1
  have hword : ∀ i ∈ l, (s.setSlots word m l).2.slotWord i.toNat = word i :=
    fun i hi => slotWord_setSlots_of_mem h hthere hi
  obtain ⟨i, hi⟩ := List.exists_mem_of_ne_nil l hsome
  have hbad : ¬Client.Holds (s.setSlots word m l).2.slotWord seed s.slots.toNat := by
    intro hholds
    have hright := hholds i.toNat (UInt64.lt_iff_toNat_lt.mp (hthere i hi))
    exact (hl i hi).2 ((hword i hi).symm.trans hright)
  obtain ⟨n, hn⟩ := Client.exists_firstWrong hbad
  have hchanged : ∃ first ∈ l, first.toNat = n := by
    by_contra hnone
    have hkept : (s.setSlots word m l).2.slotWord n = m.slotWord n :=
      slotWord_setSlots_of_not_mem h hthere fun j hj heq => hnone ⟨j, hj, heq⟩
    exact hn.wrong (hkept.trans (hgood n hn.lt))
  obtain ⟨first, hfirst, rfl⟩ := hchanged
  refine ⟨first, hfirst, ?_, ?_⟩
  · intro j hj
    rw [UInt64.le_iff_toNat_le]
    by_contra hless
    have hright := hn.before j.toNat (Nat.not_le.mp hless)
    exact (hl j hj).2 ((hword j hj).symm.trans hright)
  · rw [verifyPass_of_firstWrong hn, hword first hfirst]

/-- Two good slots that were exchanged are found if their words differ. -/
theorem verifyPass_exchanged {i j : UInt64} (h : s.Fits m)
    (hgood : Client.Holds m.slotWord seed s.slots.toNat) (hi : i < s.slots) (hj : j < s.slots)
    (hne : i ≠ j) (hroom : s.slots.toNat ≤ UInt32.size) :
    s.verifyPass (s.setSlot (s.setSlot m i (m.slotWord j.toNat)).2 j (m.slotWord i.toNat)).2 seed =
      .error (.mismatch ⟨min i.toNat j.toNat, Layout.pattern (min i.toNat j.toNat) seed,
        Layout.pattern (max i.toNat j.toNat) seed⟩) := by
  have hi' := UInt64.lt_iff_toNat_lt.mp hi
  have hj' := UInt64.lt_iff_toNat_lt.mp hj
  have hdiffer : Layout.pattern i.toNat seed ≠ Layout.pattern j.toNat seed := by
    intro heq
    exact hne (UInt64.toNat_inj.mp (Layout.index_eq_of_pattern (by omega) (by omega) heq))
  let word : UInt64 → UInt32 := fun x =>
    if x = i then Layout.pattern j.toNat seed else Layout.pattern i.toNat seed
  have hword : word i = Layout.pattern j.toNat seed := if_pos rfl
  have hword' : word j = Layout.pattern i.toNat seed := if_neg hne.symm
  have hpair : (s.setSlot (s.setSlot m i (m.slotWord j.toNat)).2 j (m.slotWord i.toNat)).2 =
      (s.setSlots word m [i, j]).2 := by
    rw [hgood i.toNat hi', hgood j.toNat hj', ← hword, ← hword']
    rfl
  have hl : ∀ x ∈ [i, j], x < s.slots ∧ word x ≠ Layout.pattern x.toNat seed := by
    refine List.forall_mem_cons.mpr ⟨⟨hi, ?_⟩, List.forall_mem_singleton.mpr ⟨hj, ?_⟩⟩
    · rw [hword]
      exact hdiffer.symm
    · rw [hword']
      exact hdiffer
  obtain ⟨first, hfirst, hleast, herror⟩ :=
    verifyPass_setSlots h hgood (List.cons_ne_nil _ _) hl
  have hlei := UInt64.le_iff_toNat_le.mp (hleast i List.mem_cons_self)
  have hlej := UInt64.le_iff_toNat_le.mp
    (hleast j (List.mem_cons_of_mem _ (List.mem_singleton_self j)))
  rw [hpair, herror]
  rcases List.mem_cons.mp hfirst with rfl | hlast
  · rw [hword, Nat.min_eq_left hlej, Nat.max_eq_right hlej]
  · obtain rfl := List.mem_singleton.mp hlast
    rw [hword', Nat.min_eq_right hlei, Nat.max_eq_left hlei]

/-- **Passes are sound and complete.**  Let a session be opened over a window, whatever is in it, and
let it have `k` slots.  The word of a round in a slot is the index, cut to 32 bits, combined with the
seed.  To fill is to set the slots to these words through the session, one after the other, each of
which is there; it answers `k`, and leaves the record and the bytes behind the last slot as they
were.  A check answers `k` just if each slot holds its word; else it reports the first that does
not, with the word that is expected and the one that is found, and it has no other outcome.  So what
was filled with a seed passes a check with this seed only.  If some of the slots are overwritten by
other words, the first of these is reported; and as long as there are no more slots than 32-bit
words, so it is if two of them are exchanged. -/
theorem passes_exact {region : Ref .region} {s : Session} {m : Memory}
    (hopen : Session.open? region m.size = .ok s) (seed seed' : UInt32) :
    let k := s.slots.toNat
    let filled := (s.writePass m seed).2
    (∀ i, (Layout.pattern i seed).toNat = i % UInt32.size ^^^ seed.toNat) ∧
    (s.writePass m seed).1.toNat = k ∧
    s.setSlots (fun i => Layout.pattern i.toNat seed) m ((List.range k).map UInt64.ofNat) =
      (true, filled) ∧
    filled.bytes.size = m.bytes.size ∧
    (∀ a, a < 28 ∨ 28 + 4 * k ≤ a → filled.bytes[a]? = m.bytes[a]?) ∧
    (s.verifyPass m seed' = .ok s.slots ↔
      ∀ i < s.slots, s.slot? m i = some (Layout.pattern i.toNat seed')) ∧
    (∀ wrong, s.verifyPass m seed' = .error (.mismatch wrong) ↔
      ∃ i < s.slots, s.slot? m i = some wrong.found ∧ wrong.index = i.toNat ∧
        wrong.expected = Layout.pattern i.toNat seed' ∧ wrong.found ≠ wrong.expected ∧
        ∀ j < i, s.slot? m j = some (Layout.pattern j.toNat seed')) ∧
    (s.verifyPass m seed' = .ok s.slots ∨
      ∃ wrong, s.verifyPass m seed' = .error (.mismatch wrong)) ∧
    (s.verifyPass filled seed' = .ok s.slots ↔ seed' = seed) ∧
    (∀ (word : UInt64 → UInt32) (changed : List UInt64), changed ≠ [] →
      (∀ i ∈ changed, i < s.slots ∧ s.slot? filled i ≠ some (word i)) →
      ∃ first ∈ changed, (∀ i ∈ changed, first ≤ i) ∧
        s.verifyPass (s.setSlots word filled changed).2 seed =
          .error (.mismatch ⟨first.toNat, Layout.pattern first.toNat seed, word first⟩)) ∧
    (k ≤ UInt32.size → ∀ i j a b, i < s.slots → j < s.slots → i ≠ j →
      s.slot? filled i = some a → s.slot? filled j = some b →
      s.verifyPass (s.setSlot (s.setSlot filled i b).2 j a).2 seed =
        .error (.mismatch ⟨min i.toNat j.toNat, Layout.pattern (min i.toNat j.toNat) seed,
          Layout.pattern (max i.toNat j.toNat) seed⟩)) := by
  intro k filled
  obtain ⟨-, hslots, hfits⟩ := Session.of_open hopen
  rw [Memory.toNat_size] at hfits
  have hm : s.Fits m := hfits
  have hfilled : s.Fits filled := hm.fill seed
  have hgood : Client.Holds filled.slotWord seed k := holds_fill hm seed
  have hall : s.setSlots (fun i => Layout.pattern i.toNat seed) m
      ((List.range k).map UInt64.ofNat) = (true, filled) := by
    rw [List.range_eq_range']
    exact setSlots_eq_fillFrom hm (Nat.le_of_eq (Nat.zero_add k))
  have hslot {i : UInt64} (hi : i < s.slots) :
      s.slot? filled i = some (Layout.pattern i.toNat seed) := by
    rw [slot?_eq_slotWord hfilled hi, hgood i.toNat (UInt64.lt_iff_toNat_lt.mp hi)]
  refine ⟨fun i => Layout.toNat_pattern i seed, rfl, hall, Memory.size_bytes_fillFrom .., ?_,
    verifyPass_eq_ok_iff hm, fun wrong => verifyPass_eq_mismatch_iff hm,
    verifyPass_cases s m seed', verifyPass_fill hm hslots, ?_, ?_⟩
  · intro a ha
    exact (Memory.getElem?_fillFrom seed k 0 m a).trans (if_neg (by omega))
  · intro word changed hsome hchanged
    refine verifyPass_setSlots hfilled hgood hsome ?_
    intro i hi
    obtain ⟨hthere, hother⟩ := hchanged i hi
    rw [hslot hthere] at hother
    exact ⟨hthere, fun heq => hother (congrArg some heq.symm)⟩
  · intro hroom i j a b hi hj hne ha hb
    rw [slot?_eq_slotWord hfilled hi] at ha
    rw [slot?_eq_slotWord hfilled hj] at hb
    obtain rfl := Option.some.inj ha
    obtain rfl := Option.some.inj hb
    exact verifyPass_exchanged hfilled hgood hi hj hne hroom

/-- Four slots are filled with one seed.  Then they do not pass with another one; of two slots that
are overwritten the first one is reported; and so is the first one of two that are exchanged. -/
theorem passes_exact_spoilt :
    let s : Session := ⟨⟨0⟩, 4⟩
    let filled := (s.writePass (.zeroed 47) 7).2
    Session.open? ⟨0⟩ (Memory.zeroed 47).size = .ok s ∧
    s.verifyPass filled 8 ≠ .ok 4 ∧
    s.verifyPass (s.setSlots (fun _ => 9) filled [3, 1]).2 7 = .error (.mismatch ⟨1, 6, 9⟩) ∧
    s.verifyPass (s.setSlot (s.setSlot filled 2 7).2 0 5).2 7 = .error (.mismatch ⟨0, 7, 5⟩) := by
  intro s filled
  have hopen : Session.open? ⟨0⟩ (Memory.zeroed 47).size = .ok s := rfl
  obtain ⟨-, -, -, -, -, -, -, -, -, hoverwritten, hexchanged⟩ := passes_exact hopen 7 7
  obtain ⟨-, -, -, -, -, -, -, -, hseed, -⟩ := passes_exact hopen 7 8
  refine ⟨hopen, fun hok => absurd (hseed.mp hok) (by decide), ?_,
    hexchanged (by decide) 2 0 5 7 (by decide) (by decide) (by decide) (by decide) (by decide)⟩
  have hchanged : ∀ i ∈ ([3, 1] : List UInt64), i < s.slots ∧ s.slot? filled i ≠ some 9 := by
    intro i hi
    rcases List.mem_cons.mp hi with rfl | hlast
    · exact ⟨by decide, by decide⟩
    · obtain rfl := List.mem_singleton.mp hlast
      exact ⟨by decide, by decide⟩
  obtain ⟨first, hfirst, hleast, herror⟩ :=
    hoverwritten (fun _ => 9) [3, 1] (List.cons_ne_nil _ _) hchanged
  have hone : first ≤ 1 := hleast 1 (by decide)
  obtain rfl : first = 1 := by
    rcases List.mem_cons.mp hfirst with rfl | hlast
    · exact absurd hone (by decide)
    · exact List.mem_singleton.mp hlast
  exact herror

end Session

end PeerBus
