/-
# `PeerBus.Proofs.Window.History` — the last byte written

Many hold the same memory: a window and its clones, the devices whose window it is, and their
mappings.  Whatever they write, in whatever order, and however their writes overlap, at each place
there is the last byte that one of them wrote to it, or else the one that was there at first
(`Window.byteAfter`), and that is what all of them read.

    write   puts its data from its offset on; what would lie past the end is dropped
    store   puts the four bytes of its word, if its offset has a word
    others  leave the memories alone: reads, interrupts, devices that come and go, …

**What is proved.**  One act changes each byte as `Act.byte?` says (`Step.bytes`), so a history
leaves the last ones (`bytes_of_run`), and a read delivers them (`readAt_of_run`).  That is said of
transfers in `transfers_agree`, and of words in `words_agree`.
-/
import PeerBus.Proofs.Window.Words
import PeerBus.Proofs.Run

namespace PeerBus

namespace Window

/-! ## Histories -/

/-- What a write goes through. -/
inductive Route where
  | window
  | device (device : Ref .device)

/-- What can happen to the memories of a machine. -/
inductive Act where
  | write (route : Route) (region : Ref .region) (offset : UInt64) (data : List UInt8)
  | store (region : Ref .region) (offset : UInt64) (value : UInt32)
  | others

/-- What an act makes of a machine. -/
inductive Step : Machine → Act → Machine → Prop
  | window {m : Machine} {region : Ref .region} {offset : UInt64} {data : List UInt8} :
      Step m (.write .window region offset data) (m.writeRegion region offset data).1
  | device {m : Machine} {d : Ref .device} {region : Ref .region} {offset : UInt64}
      {data : List UInt8} (h : m.Shows d region) :
      Step m (.write (.device d) region offset data) (m.write d offset data).1
  | store {m : Machine} {region : Ref .region} {offset : UInt64} {value : UInt32} :
      Step m (.store region offset value) (m.storeRegion region offset value).1
  | others {m m' : Machine}
      (h : ∀ r, m.regions.Has r → m'.regions.Has r ∧ m'.regions.get r = m.regions.get r) :
      Step m .others m'

/-- What an act writes to the byte at `i` of a memory of `size` bytes, if it writes there. -/
def Act.byte? (r : Ref .region) (size i : Nat) : Act → Option UInt8
  | .write _ region offset data =>
      if region = r ∧ offset.toNat ≤ i then data[i - offset.toNat]? else none
  | .store region offset value =>
      if region = r ∧ (offset.toNat % 4 = 0 ∧ offset.toNat + 4 ≤ size) ∧ offset.toNat ≤ i then
        (wordBytes value)[i - offset.toNat]?
      else none
  | .others => none

/-- The last byte that is written to a place, if one is. -/
def lastByte? (r : Ref .region) (size i : Nat) (acts : List Act) : Option UInt8 :=
  acts.reverse.findSome? (Act.byte? r size i)

/-- The byte at a place after some acts: the last one written there, or else the one before. -/
def byteAfter (m : Machine) (r : Ref .region) (acts : List Act) (i : Nat) : UInt8 :=
  (lastByte? r (m.regions.get r).bytes.size i acts).getD ((m.regions.get r).byte i)

theorem lastByte?_snoc (r : Ref .region) (size i : Nat) (acts : List Act) (a : Act) :
    lastByte? r size i (acts ++ [a]) = (a.byte? r size i).or (lastByte? r size i acts) := by
  unfold lastByte?
  rw [List.reverse_append, List.reverse_singleton, List.singleton_append, List.findSome?_cons]
  cases a.byte? r size i <;> rfl

/-! ## One act -/

variable {m m' : Machine} {r : Ref .region} {a : Act} {acts : List Act}

/-- A memory in which each byte is the one that `byte?` tells, or else the one before. -/
structure Updated (r : Ref .region) (byte? : Nat → Option UInt8) (m m' : Machine) : Prop where
  has : m'.regions.Has r
  size : (m'.regions.get r).bytes.size = (m.regions.get r).bytes.size
  byte : ∀ i, (m'.regions.get r).bytes[i]? =
    (m.regions.get r).bytes[i]?.map fun b => (byte? i).getD b

theorem Updated.same (hr : m'.regions.Has r) (h : m'.regions.get r = m.regions.get r) :
    Updated r (fun _ => none) m m' where
  has := hr
  size := by rw [h]
  byte i := by
    rw [h]
    cases (m.regions.get r).bytes[i]? <;> rfl

theorem updated_writeRegion (hr : m.regions.Has r) (region : Ref .region) (offset : UInt64)
    (data : List UInt8) :
    Updated r (fun i => if region = r ∧ offset.toNat ≤ i then data[i - offset.toNat]? else none) m
      (m.writeRegion region offset data).1 := by
  have hhas : (m.writeRegion region offset data).1.regions.Has r := (Table.has_modify ..).mpr hr
  by_cases h : region = r
  · subst h
    have hget : (m.writeRegion region offset data).1.regions.get region =
        ((m.regions.get region).writeAt offset data).2 := Table.get_modify_self hr _
    refine ⟨hhas, ?_, ?_⟩
    · rw [hget, Memory.size_bytes_writeAt]
    · intro i
      rw [hget, Memory.getElem?_writeAt]
      simp only [true_and]
  · simp only [h, false_and, if_false]
    exact .same hhas (Table.get_modify_of_ne _ h _)

theorem updated_storeRegion (hr : m.regions.Has r) (region : Ref .region) (offset : UInt64)
    (value : UInt32) :
    Updated r (fun i => (Act.store region offset value).byte? r (m.regions.get r).bytes.size i) m
      (m.storeRegion region offset value).1 := by
  by_cases h : region = r
  · subst h
    by_cases hfits : offset.toNat % 4 = 0 ∧ offset.toNat + 4 ≤ (m.regions.get region).bytes.size
    · rw [Machine.storeRegion_of_fits hfits]
      have hwrite := updated_writeRegion hr region offset (wordBytes value)
      simpa only [Act.byte?, hfits, true_and] using hwrite
    · rw [Machine.storeRegion_of_refused hfits]
      simp only [Act.byte?, hfits, false_and, and_false, if_false]
      exact .same hr rfl
  · have hhas : (m.storeRegion region offset value).1.regions.Has r := (Table.has_modify ..).mpr hr
    simp only [Act.byte?, h, false_and, if_false]
    exact .same hhas (Table.get_modify_of_ne _ h _)

theorem Step.bytes (h : Step m a m') (hr : m.regions.Has r) :
    Updated r (fun i => a.byte? r (m.regions.get r).bytes.size i) m m' := by
  cases h with
  | window => exact updated_writeRegion hr ..
  | device hd =>
      rw [Machine.write_of_shows hd]
      exact updated_writeRegion hr ..
  | store => exact updated_storeRegion hr ..
  | others hsame =>
      obtain ⟨hhas, hget⟩ := hsame r hr
      exact .same hhas hget

/-! ## Many acts -/

theorem bytes_of_run (h : Run Step m acts m') (hr : m.regions.Has r) :
    Updated r (fun i => lastByte? r (m.regions.get r).bytes.size i acts) m m' := by
  induction h with
  | nil => exact .same hr rfl
  | @snoc acts t u a _ hs ih =>
      have hlast := hs.bytes ih.has
      refine ⟨hlast.has, hlast.size.trans ih.size, ?_⟩
      intro i
      rw [hlast.byte, ih.byte, ih.size, lastByte?_snoc, Option.map_map]
      congr 1
      funext b
      cases a.byte? r (m.regions.get r).bytes.size i <;> rfl

/-- All reads at the end of a history deliver the last bytes written. -/
theorem readAt_of_run (h : Run Step m acts m') (hr : m.regions.Has r) (offset : UInt64)
    (wanted : Nat) :
    (m'.regions.get r).readAt offset wanted =
      (List.range' offset.toNat ((m.regions.get r).span offset wanted)).map
        (byteAfter m r acts) := by
  have hbytes := bytes_of_run h hr
  have hspan : (m'.regions.get r).span offset wanted = (m.regions.get r).span offset wanted := by
    unfold Memory.span
    rw [hbytes.size]
  have hlength := (m'.regions.get r).length_readAt offset wanted
  refine List.ext_getElem? ?_
  intro j
  by_cases hj : j < (m.regions.get r).span offset wanted
  · have hfits := (m.regions.get r).span_inside offset (Nat.zero_lt_of_lt hj)
    have hinside : offset.toNat + j < (m.regions.get r).bytes.size := by omega
    have hbefore : (m.regions.get r).bytes[offset.toNat + j]? =
        some (m.regions.get r).bytes[offset.toNat + j] := Array.getElem?_eq_getElem hinside
    rw [Memory.getElem?_readAt _ _ (by rwa [hspan]), hbytes.byte, List.getElem?_map,
      List.getElem?_range' hj, Nat.one_mul, hbefore]
    simp only [Option.map_some, byteAfter, Memory.byte, hbefore, Option.getD_some]
  · rw [List.getElem?_eq_none (by omega), List.getElem?_eq_none]
    rw [List.length_map, List.length_range']
    omega

/-! ## Transfers -/

/-- **Transfers move what lies inside the window, and reads deliver the last bytes written.**  Let a
memory have `n` bytes, whatever they are.  A write of some data at an offset, through a window or
through an attached device, moves `k` bytes, the number of them that lie between the offset and the
end; it replaces these by the first `k` bytes of the data and changes nothing else.  A read into a
buffer moves as many as are counted in the same way; it puts them to the front of the buffer and
leaves the rest as it was.  A read of a device delivers what a buffer would receive, one of the
wanted length and one that is no longer than what there is.  Where a byte is moved, all of them lie
inside the memory, and sizes are words.  So after any history of writes, through whatever windows
and devices, each read delivers at each place the last byte that was written there, or else the one
that was there at first, which is zero if the memory is new. -/
theorem transfers_agree (hr : m.regions.Has r) :
    let memory := m.regions.get r
    let n := memory.bytes.size
    n < UInt64.size ∧
    (∀ offset data,
      let k := min data.length (n - min offset.toNat n)
      (m.writeRegion r offset data).2 = k ∧ (0 < k → offset.toNat + k ≤ n) ∧
      Machine.Wrote r offset.toNat (data.take k) m (m.writeRegion r offset data).1 ∧
      ∀ d, m.Shows d r → m.write d offset data = ((m.writeRegion r offset data).1, .ok k)) ∧
    (∀ offset buffer,
      let k := min buffer.length (n - min offset.toNat n)
      let filled := (k, (memory.bytes.toList.drop offset.toNat).take k ++ buffer.drop k)
      memory.readInto offset buffer = filled ∧ (0 < k → offset.toNat + k ≤ n) ∧
      ∀ d, m.Shows d r → m.readInto d offset buffer = .ok filled) ∧
    (∀ offset wanted d, m.Shows d r → ∀ buffer : List UInt8,
      buffer.length = wanted ∨ buffer.length = min wanted (n - offset.toNat) →
      let filled := memory.readInto offset buffer
      m.read d offset wanted = .ok (filled.2.take filled.1)) ∧
    (∀ acts m', Run Step m acts m' → (m'.regions.get r).bytes.size = n ∧ ∀ offset buffer,
      let k := min buffer.length (n - min offset.toNat n)
      let found := (List.range' offset.toNat k).map (byteAfter m r acts)
      (m'.regions.get r).readInto offset buffer = (k, found ++ buffer.drop k) ∧
      ∀ d, m'.Shows d r → m'.readInto d offset buffer = .ok (k, found ++ buffer.drop k) ∧
        m'.read d offset buffer.length = .ok found) ∧
    ∀ size, memory = .zeroed size → ∀ acts i,
      byteAfter m r acts i = (lastByte? r size.toNat i acts).getD 0 := by
  intro memory n
  refine ⟨memory.size_lt, ?_, ?_, ?_, ?_, ?_⟩
  · intro offset data k
    have hk : (m.writeRegion r offset data).2 = k := memory.span_eq offset data.length
    have hwrote := Machine.wrote_writeRegion hr offset data
    rw [hk] at hwrote
    refine ⟨hk, ?_, hwrote, ?_⟩
    · rw [← hk]
      exact memory.span_inside offset
    · intro d hd
      rw [Machine.write_of_shows hd, hk]
  · intro offset buffer k filled
    have hk : memory.span offset buffer.length = k := memory.span_eq offset buffer.length
    have hfilled : memory.readInto offset buffer = filled := by
      rw [memory.readInto_eq, hk]
    refine ⟨hfilled, ?_, ?_⟩
    · rw [← hk]
      exact memory.span_inside offset
    · intro d hd
      rw [Machine.readInto_of_shows hd, hfilled]
  · intro offset wanted d hd buffer hbuffer filled
    rw [Machine.read_of_shows hd, ← memory.take_readInto offset hbuffer]
  · intro acts m' h
    refine ⟨(bytes_of_run h hr).size, ?_⟩
    intro offset buffer k found
    have hk : memory.span offset buffer.length = k := memory.span_eq offset buffer.length
    have hread : (m'.regions.get r).readAt offset buffer.length = found := by
      rw [readAt_of_run h hr, hk]
    have hlength : found.length = k := by rw [List.length_map, List.length_range']
    have hfilled : (m'.regions.get r).readInto offset buffer = (k, found ++ buffer.drop k) := by
      simp only [Memory.readInto, hread, hlength]
    refine ⟨hfilled, ?_⟩
    intro d hd
    rw [Machine.readInto_of_shows hd, Machine.read_of_shows hd, hfilled, hread]
    exact ⟨rfl, rfl⟩
  · intro size hzeroed acts i
    have hsize : (m.regions.get r).bytes.size = size.toNat := by
      rw [← Memory.size_bytes_zeroed size, ← hzeroed]
    have hbyte : (m.regions.get r).byte i = 0 := by
      show memory.byte i = 0
      rw [hzeroed, Memory.byte_zeroed]
    rw [byteAfter, hsize, hbyte]

/-- A new memory of ten bytes that is the window of two devices. -/
def tenBytes : Machine :=
  let m := (((Machine.addLine {} 5).1.addRegion 10).1.addWords).1
  let m := (m.attach (some (.words ⟨0⟩)) (some ⟨0⟩) ⟨0⟩).1
  (m.attach (some (.words ⟨0⟩)) (some ⟨0⟩) ⟨0⟩).1

/-- The second write lies over the first one, and the third one has a byte too many. -/
def overlapping : List Act :=
  [.write .window ⟨0⟩ 2 [1, 2, 3, 4], .write (.device ⟨0⟩) ⟨0⟩ 4 [5, 6],
    .write (.device ⟨1⟩) ⟨0⟩ 8 [7, 8, 9]]

theorem transfers_agree_overlapping :
    tenBytes.regions.Has ⟨0⟩ ∧ ∃ m, Run Step tenBytes overlapping m ∧ m.Shows ⟨1⟩ ⟨0⟩ ∧
      m.read ⟨1⟩ 3 9 = .ok [2, 5, 6, 0, 0, 7, 8] := by
  have hr : tenBytes.regions.Has ⟨0⟩ := by decide
  let m₁ : Machine := (tenBytes.writeRegion ⟨0⟩ 2 [1, 2, 3, 4]).1
  let m₂ : Machine := (m₁.write ⟨0⟩ 4 [5, 6]).1
  let m₃ : Machine := (m₂.write ⟨1⟩ 8 [7, 8, 9]).1
  have hrun : Run Step tenBytes overlapping m₃ :=
    .snoc (.snoc (.single .window) (.device ⟨rfl, rfl⟩)) (.device ⟨rfl, rfl⟩)
  have hshows : m₃.Shows ⟨1⟩ ⟨0⟩ := ⟨rfl, rfl⟩
  obtain ⟨-, -, -, -, hruns, -⟩ := transfers_agree hr
  obtain ⟨-, hread⟩ := (hruns _ _ hrun).2 3 (List.replicate 9 0) |>.2 ⟨1⟩ hshows
  have hfound : (List.range' 3 7).map (byteAfter tenBytes ⟨0⟩ overlapping) =
      [2, 5, 6, 0, 0, 7, 8] := by decide
  exact ⟨hr, m₃, hrun, hshows, hread.trans (congrArg Except.ok hfound)⟩

/-! ## Words -/

/-- **Words and transfers show the same memory.**  Let a memory have `n` bytes, whatever they are.
There is a word at an offset if it is a multiple of four and the offset and four together, as
integers, are no more than `n`; everywhere else a store and a load are refused, and nothing has
changed.  To store a word is to write its four bytes, lowest first, all of which are moved; to load
one delivers the number of the four bytes that are read there.  The mapping of an attached device is
the memory of its window.  So after any history of words stored and bytes written, through whatever
mappings, windows and devices, words and bytes both are the last ones written. -/
theorem words_agree (hr : m.regions.Has r) :
    let memory := m.regions.get r
    let n := memory.bytes.size
    (∀ offset (value : UInt32),
      ((m.storeRegion r offset value).2 = true ↔
        offset.toNat % 4 = 0 ∧ offset.toNat + 4 ≤ n) ∧
      ((m.storeRegion r offset value).2 = true → ∀ bytes : List UInt8, bytes.length = 4 →
        littleEndian bytes = value.toNat →
        m.writeRegion r offset bytes = ((m.storeRegion r offset value).1, 4)) ∧
      ((m.storeRegion r offset value).2 = false → (m.storeRegion r offset value).1 = m)) ∧
    (∀ value : UInt32, ∃ bytes, bytes.length = 4 ∧ littleEndian bytes = value.toNat) ∧
    (∀ offset,
      ((memory.load? offset).isSome = true ↔ offset.toNat % 4 = 0 ∧ offset.toNat + 4 ≤ n) ∧
      ∀ value, memory.load? offset = some value →
        (memory.readAt offset 4).length = 4 ∧
        value.toNat = littleEndian (memory.readAt offset 4)) ∧
    (∀ d, m.Shows d r → m.map d = .ok r) ∧
    ∀ acts m', Run Step m acts m' → ∀ offset,
      (∀ wanted, (m'.regions.get r).readAt offset wanted =
        (List.range' offset.toNat (min wanted (n - min offset.toNat n))).map
          (byteAfter m r acts)) ∧
      (offset.toNat % 4 = 0 ∧ offset.toNat + 4 ≤ n → ∃ value,
        (m'.regions.get r).load? offset = some value ∧
        value.toNat = littleEndian ((List.range' offset.toNat 4).map (byteAfter m r acts))) ∧
      (¬(offset.toNat % 4 = 0 ∧ offset.toNat + 4 ≤ n) →
        (m'.regions.get r).load? offset = none) := by
  intro memory n
  refine ⟨?_, ?_, ?_, fun d hd => Machine.map_of_shows hd, ?_⟩
  · intro offset value
    by_cases hfits : offset.toNat % 4 = 0 ∧ offset.toNat + 4 ≤ n
    · rw [Machine.storeRegion_of_fits hfits]
      refine ⟨iff_of_true rfl hfits, ?_, fun h => absurd h.symm Bool.false_ne_true⟩
      intro _ bytes hlength hbytes
      have hsame : bytes = wordBytes value :=
        eq_of_littleEndian hlength (hbytes.trans (littleEndian_wordBytes value).symm)
      have hall : memory.span offset 4 = 4 := Memory.span_of_fits hfits
      rw [hsame]
      exact congrArg (Prod.mk _) hall
    · rw [Machine.storeRegion_of_refused hfits]
      exact ⟨iff_of_false Bool.false_ne_true hfits, fun h => absurd h Bool.false_ne_true,
        fun _ => rfl⟩
  · intro value
    exact ⟨wordBytes value, rfl, littleEndian_wordBytes value⟩
  · intro offset
    by_cases hfits : offset.toNat % 4 = 0 ∧ offset.toNat + 4 ≤ n
    · obtain ⟨value, hload, hvalue⟩ := Memory.load?_of_fits hfits
      rw [hload]
      refine ⟨iff_of_true rfl hfits, ?_⟩
      intro value' hvalue'
      obtain rfl := Option.some.inj hvalue'
      exact ⟨(memory.length_readAt offset 4).trans (Memory.span_of_fits hfits), hvalue⟩
    · rw [Memory.load?_of_refused hfits]
      exact ⟨iff_of_false Bool.false_ne_true hfits, nofun⟩
  · intro acts m' h offset
    have hsize : (m'.regions.get r).bytes.size = n := (bytes_of_run h hr).size
    have hread := readAt_of_run h hr offset
    refine ⟨?_, ?_, ?_⟩
    · intro wanted
      rw [hread, Memory.span_eq]
    · intro hfits
      have hthere := Memory.load?_of_fits (m := m'.regions.get r) (by rwa [hsize])
      rw [hread, Memory.span_of_fits hfits] at hthere
      exact hthere
    · intro hrefused
      exact Memory.load?_of_refused (by rwa [hsize])

/-- Two bytes are written over the middle of a word; ten bytes have no word at 8, and none has one
at the end of all offsets. -/
def mixedWords : List Act :=
  [.store ⟨0⟩ 4 0x04030201, .write (.device ⟨1⟩) ⟨0⟩ 5 [0xFF, 0xFE], .store ⟨0⟩ 8 7,
    .store ⟨0⟩ 0xFFFFFFFFFFFFFFFC 7]

theorem words_agree_mixed :
    tenBytes.regions.Has ⟨0⟩ ∧ ∃ m, Run Step tenBytes mixedWords m ∧
      (m.regions.get ⟨0⟩).load? 4 = some 0x04FEFF01 ∧ (m.regions.get ⟨0⟩).load? 8 = none ∧
      (m.regions.get ⟨0⟩).load? 0xFFFFFFFFFFFFFFFC = none := by
  have hr : tenBytes.regions.Has ⟨0⟩ := by decide
  let m₁ : Machine := (tenBytes.storeRegion ⟨0⟩ 4 0x04030201).1
  let m₂ : Machine := (m₁.write ⟨1⟩ 5 [0xFF, 0xFE]).1
  let m₃ : Machine := (m₂.storeRegion ⟨0⟩ 8 7).1
  let m₄ : Machine := (m₃.storeRegion ⟨0⟩ 0xFFFFFFFFFFFFFFFC 7).1
  have hrun : Run Step tenBytes mixedWords m₄ :=
    .snoc (.snoc (.snoc (.single .store) (.device ⟨rfl, rfl⟩)) .store) .store
  obtain ⟨-, -, -, -, hruns⟩ := words_agree hr
  have hthere := hruns _ _ hrun
  obtain ⟨value, hload, hvalue⟩ := (hthere 4).2.1 (by decide)
  have hword : littleEndian ((List.range' 4 4).map (byteAfter tenBytes ⟨0⟩ mixedWords)) =
      0x04FEFF01 := by decide
  have hsame : value = 0x04FEFF01 := UInt32.toNat_inj.mp (hvalue.trans hword)
  rw [hsame] at hload
  exact ⟨hr, m₄, hrun, hload, (hthere 8).2.2 (by decide),
    (hthere 0xFFFFFFFFFFFFFFFC).2.2 (by decide)⟩

end Window

end PeerBus
