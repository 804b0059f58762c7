/-
# `PeerBus.Proofs.Window.Stream` — what a stream moves

A stream has some bytes ahead of it, those from its position to the end of the window
(`Stream.ahead`).  With `a` of them, and whatever is wanted,

    read, write     move `min wanted a` bytes, and the position by as many
    seek            goes to its target, or to the end if that is past it
    readExact       moves as many, and fails unless that is all that is wanted
    writeAll        likewise
    readToEnd       moves all `a` bytes, however they are cut into single reads (`Drained`)

The last three repeat single transfers, with a bound on how often.  A single transfer moves all that
can be moved, so the first repetition of `readExact` and of `writeAll` is the last one that moves
anything, and a bound of what is wanted suffices (`readRepeatedly_eq`, `writeRepeatedly_eq`).
`readToEnd` takes a chunk at a time and stops at the first read that moves nothing; each but that
one moves a byte at least, so a bound larger than `a` suffices (`drained_drain`).
-/
import PeerBus.Proofs.Window.Transfer
import PeerBus.Proofs.Machine.Handle

namespace PeerBus

namespace Stream

variable {m : Machine} {s : Stream} {r : Ref .region}

/-! ## Positions -/

/-- The bytes from the position to the end of the window. -/
def ahead (s : Stream) (m : Machine) (r : Ref .region) : List UInt8 :=
  (m.regions.get r).bytes.toList.drop s.position.toNat

/-- A stream over a window: its position is no further than the end. -/
structure Over (r : Ref .region) (m : Machine) (s : Stream) : Prop where
  has : m.regions.Has r
  shows : m.Shows s.device r
  inside : s.position.toNat ≤ (m.regions.get r).bytes.size

theorem length_ahead (s : Stream) (m : Machine) (r : Ref .region) :
    (s.ahead m r).length = (m.regions.get r).bytes.size - s.position.toNat := by
  rw [ahead, List.length_drop, Array.length_toList]

theorem span_position (s : Stream) (m : Machine) (r : Ref .region) (wanted : Nat) :
    (m.regions.get r).span s.position wanted = min wanted (s.ahead m r).length := by
  rw [length_ahead, Memory.span, Nat.min_comm]

theorem advance_zero (s : Stream) : s.advance 0 = s := by
  have hlt := s.position.toNat_lt
  have hposition : Cursor.advance s.position 0 = s.position := by
    refine UInt64.toNat_inj.mp ?_
    rw [Cursor.advance, Word.toNat_saturatingAdd]
    show min (s.position.toNat + 0) (UInt64.size - 1) = _
    simp only [UInt64.size]
    omega
  rw [advance, hposition]

namespace Over

variable (h : s.Over r m)
include h

/-- A step that goes no further than the end is exact. -/
theorem toNat_advance {k : Nat} (hk : k ≤ (s.ahead m r).length) :
    (s.advance k).position.toNat = s.position.toNat + k := by
  have hsize := (m.regions.get r).size_lt
  have hinside := h.inside
  rw [length_ahead] at hk
  have hword : (UInt64.ofNat k).toNat = k := by
    rw [UInt64.toNat_ofNat']
    refine Nat.mod_eq_of_lt ?_
    simp only [UInt64.size] at hsize
    omega
  show (Word.saturatingAdd s.position (UInt64.ofNat k)).toNat = _
  rw [Word.toNat_saturatingAdd, hword]
  omega

theorem advance {k : Nat} (hk : k ≤ (s.ahead m r).length) : (s.advance k).Over r m where
  has := h.has
  shows := h.shows
  inside := by
    have hinside := h.inside
    rw [h.toNat_advance hk]
    rw [length_ahead] at hk
    omega

theorem ahead_advance {k : Nat} (hk : k ≤ (s.ahead m r).length) :
    (s.advance k).ahead m r = (s.ahead m r).drop k := by
  rw [ahead, ahead, h.toNat_advance hk, List.drop_drop]

/-- What is moved is ahead no more, also if the bytes themselves change meanwhile. -/
theorem length_ahead_advance {m' : Machine}
    (hsize : (m'.regions.get r).bytes.size = (m.regions.get r).bytes.size) {k : Nat}
    (hk : k ≤ (s.ahead m r).length) :
    ((s.advance k).ahead m' r).length = (s.ahead m r).length - k := by
  rw [length_ahead, length_ahead, hsize, h.toNat_advance hk, Nat.sub_sub]

theorem advance_advance {j k : Nat} (hk : j + k ≤ (s.ahead m r).length) :
    (s.advance j).advance k = s.advance (j + k) := by
  have hj : j ≤ (s.ahead m r).length := by omega
  have hrest : k ≤ ((s.advance j).ahead m r).length := by
    rw [h.length_ahead_advance rfl hj]
    omega
  have hposition : ((s.advance j).advance k).position = (s.advance (j + k)).position := by
    refine UInt64.toNat_inj.mp ?_
    rw [(h.advance hj).toNat_advance hrest, h.toNat_advance hj, h.toNat_advance hk, Nat.add_assoc]
  show ({ s with position := ((s.advance j).advance k).position } : Stream) = _
  rw [hposition]
  rfl

/-! ## Single transfers -/

theorem read_eq (buffer : List UInt8) :
    s.read m buffer = (s.advance (min buffer.length (s.ahead m r).length),
      .ok (min buffer.length (s.ahead m r).length,
        (s.ahead m r).take (min buffer.length (s.ahead m r).length) ++
          buffer.drop (min buffer.length (s.ahead m r).length))) := by
  unfold Stream.read
  rw [Machine.readInto_of_shows h.shows, Memory.readInto_eq, span_position]
  rfl

theorem write_eq (data : List UInt8) :
    s.write m data = ((m.writeRegion r s.position data).1,
      s.advance (min data.length (s.ahead m r).length),
      .ok (min data.length (s.ahead m r).length)) := by
  have hcount : (m.writeRegion r s.position data).2 = min data.length (s.ahead m r).length :=
    s.span_position m r data.length
  unfold Stream.write
  rw [Machine.write_of_shows h.shows, hcount]

theorem wrote (data : List UInt8) :
    Machine.Wrote r s.position.toNat (data.take (min data.length (s.ahead m r).length)) m
      (m.writeRegion r s.position data).1 := by
  have hwrote := Machine.wrote_writeRegion h.has s.position data
  have hcount : (m.writeRegion r s.position data).2 = min data.length (s.ahead m r).length :=
    s.span_position m r data.length
  rwa [hcount] at hwrote

/-- A stream is over the window, whatever was written there. -/
theorem written {start : Nat} {data : List UInt8} {m' : Machine}
    (hwrote : Machine.Wrote r start data m m') : s.Over r m' where
  has := (hwrote.has r).mpr h.has
  shows := by
    rw [hwrote.beside]
    exact h.shows
  inside := by
    rw [hwrote.replaced.size]
    exact h.inside

end Over

/-! ## Seeks -/

/-- The target of a seek in a window of `n` bytes, from the position `p`. -/
def goal (n p : Nat) : SeekFrom → Int
  | .start offset => offset.toNat
  | .current distance => p + distance.toInt
  | .finish distance => n + distance.toInt

/-- A target is found if it is a word. -/
theorem target?_eq (size position : UInt64) (origin : SeekFrom) :
    Cursor.target? size position origin =
      if 0 ≤ goal size.toNat position.toNat origin ∧
          goal size.toNat position.toNat origin < (UInt64.size : Int) then
        some (UInt64.ofNat (goal size.toNat position.toNat origin).toNat)
      else none := by
  cases origin with
  | start offset =>
      have hlt := offset.toNat_lt
      have hword : 0 ≤ (offset.toNat : Int) ∧ (offset.toNat : Int) < (UInt64.size : Int) := by
        simp only [UInt64.size]
        omega
      rw [goal, if_pos hword, Int.toNat_natCast, UInt64.ofNat_toNat]
      rfl
  | current distance => rfl
  | finish distance => rfl

/-- The target, or the end if the target is past it. -/
theorem clamp_eq (m : Memory) {n : Nat} (h : n < UInt64.size) :
    (if UInt64.ofNat n ≤ m.size then UInt64.ofNat n else m.size) =
      UInt64.ofNat (min n m.bytes.size) := by
  have hword : (UInt64.ofNat n).toNat = n := UInt64.toNat_ofNat'.trans (Nat.mod_eq_of_lt h)
  have hle : UInt64.ofNat n ≤ m.size ↔ n ≤ m.bytes.size := by
    rw [UInt64.le_iff_toNat_le, hword, Memory.toNat_size]
  by_cases hn : n ≤ m.bytes.size
  · rw [if_pos (hle.mpr hn), Nat.min_eq_left hn]
  · rw [if_neg fun hin => hn (hle.mp hin), Nat.min_eq_right (by omega)]
    rfl

theorem cursor_seek_eq (m : Memory) (position : UInt64) (origin : SeekFrom) :
    Cursor.seek m.size position origin =
      if 0 ≤ goal m.bytes.size position.toNat origin ∧
          goal m.bytes.size position.toNat origin < (UInt64.size : Int) then
        .ok (UInt64.ofNat (min (goal m.bytes.size position.toNat origin).toNat m.bytes.size))
      else .error .invalidSeek := by
  have htarget := target?_eq m.size position origin
  rw [Memory.toNat_size] at htarget
  unfold Cursor.seek
  rw [htarget]
  by_cases hword : 0 ≤ goal m.bytes.size position.toNat origin ∧
      goal m.bytes.size position.toNat origin < (UInt64.size : Int)
  · have hlt : (goal m.bytes.size position.toNat origin).toNat < UInt64.size := by omega
    rw [if_pos hword, if_pos hword, ← clamp_eq m hlt]
  · rw [if_neg hword, if_neg hword]

theorem Over.seek_eq (h : s.Over r m) (origin : SeekFrom) :
    let n := (m.regions.get r).bytes.size
    let target := goal n s.position.toNat origin
    s.seek m origin =
      if 0 ≤ target ∧ target < (UInt64.size : Int) then
        ({ s with position := UInt64.ofNat (min target.toNat n) },
          .ok (UInt64.ofNat (min target.toNat n)))
      else (s, .error (.device .invalidSeek)) := by
  intro n target
  have hseek := cursor_seek_eq (m.regions.get r) s.position origin
  unfold Stream.seek
  rw [Machine.windowSize_of_shows h.shows]
  by_cases hword : 0 ≤ target ∧ target < (UInt64.size : Int)
  · rw [if_pos hword] at hseek ⊢
    simp only [hseek]
    rfl
  · rw [if_neg hword] at hseek ⊢
    simp only [hseek]

/-! ## Repeated transfers -/

/-- What was moved stands in front of what the buffer had. -/
theorem take_filled {k : Nat} {l : List UInt8} (hk : k ≤ l.length) (buffer : List UInt8) :
    (l.take k ++ buffer.drop k).take k = l.take k :=
  List.take_left' (List.length_take_of_le hk)

/-- A read asks for all that is wanted, so if it moves less there is nothing left to move. -/
theorem Over.readRepeatedly_eq {fuel wanted : Nat} (h : s.Over r m) (hfuel : wanted ≤ fuel) :
    readRepeatedly m fuel wanted s = (s.advance (min wanted (s.ahead m r).length),
      if wanted ≤ (s.ahead m r).length then .ok ((s.ahead m r).take wanted)
      else .error .unexpectedEnd) := by
  induction fuel generalizing wanted s with
  | zero =>
      obtain rfl := Nat.le_zero.mp hfuel
      rw [readRepeatedly, Nat.zero_min, advance_zero, if_pos (Nat.zero_le _), List.take_zero]
  | succ fuel ih =>
      cases wanted with
      | zero =>
          rw [readRepeatedly, Nat.zero_min, advance_zero, if_pos (Nat.zero_le _), List.take_zero]
      | succ wanted =>
          have hread := h.read_eq (List.replicate (wanted + 1) 0)
          rw [List.length_replicate] at hread
          generalize hk : min (wanted + 1) (s.ahead m r).length = k at hread ⊢
          have hahead : k ≤ (s.ahead m r).length := by omega
          simp only [readRepeatedly, hread]
          by_cases hnone : k = 0
          · rw [if_pos hnone, if_neg (by omega)]
          -- either all that is wanted was moved, or nothing is ahead any more
          · have hleft := h.length_ahead_advance rfl hahead
            have hdone : min (wanted + 1 - k) ((s.advance k).ahead m r).length = 0 := by omega
            have hfuel' : wanted + 1 - k ≤ fuel := by omega
            rw [if_neg hnone, ih (h.advance hahead) hfuel', hdone, advance_zero, hleft,
              take_filled hahead]
            by_cases hall : wanted + 1 ≤ (s.ahead m r).length
            · have hwhole : wanted + 1 = k := by omega
              rw [if_pos hall, if_pos (by omega), hwhole, Nat.sub_self, List.take_zero]
              exact congrArg (fun l => (s.advance k, Except.ok l)) (List.append_nil _)
            · rw [if_neg hall, if_neg (by omega)]
              rfl

theorem Over.readExact_eq (h : s.Over r m) (wanted : Nat) :
    s.readExact m wanted = (s.advance (min wanted (s.ahead m r).length),
      if wanted ≤ (s.ahead m r).length then .ok ((s.ahead m r).take wanted)
      else .error .unexpectedEnd) :=
  h.readRepeatedly_eq Nat.le.refl

theorem writeRegion_of_nothing {data : List UInt8}
    (h : min data.length (s.ahead m r).length = 0) : (m.writeRegion r s.position data).1 = m := by
  rw [Machine.writeRegion_of_span (by rw [span_position, h])]

/-- A write offers all the data, so if it moves less there is no room for more. -/
theorem Over.writeRepeatedly_eq {fuel : Nat} {data : List UInt8} (h : s.Over r m)
    (hfuel : data.length ≤ fuel) :
    writeRepeatedly fuel m s data = ((m.writeRegion r s.position data).1,
      s.advance (min data.length (s.ahead m r).length),
      if data.length ≤ (s.ahead m r).length then .ok () else .error .writeZero) := by
  induction fuel generalizing m s data with
  | zero =>
      obtain rfl := List.length_eq_zero_iff.mp (Nat.le_zero.mp hfuel)
      rw [writeRepeatedly, List.length_nil, Nat.zero_min, advance_zero, if_pos (Nat.zero_le _),
        writeRegion_of_nothing (Nat.zero_min _)]
  | succ fuel ih =>
      cases data with
      | nil =>
          rw [writeRepeatedly, List.length_nil, Nat.zero_min, advance_zero, if_pos (Nat.zero_le _),
            writeRegion_of_nothing (Nat.zero_min _)]
      | cons b rest =>
          have hwrite := h.write_eq (b :: rest)
          have hwrote := h.wrote (b :: rest)
          have hsome : 0 < (b :: rest).length := Nat.zero_lt_succ _
          generalize hk : min (b :: rest).length (s.ahead m r).length = k at hwrite hwrote ⊢
          have hahead : k ≤ (s.ahead m r).length := by omega
          simp only [writeRepeatedly, hwrite]
          by_cases hnone : k = 0
          · rw [if_pos hnone, if_neg (by omega)]
          -- either all the data was moved, or there is no room any more
          · have hnext := (h.advance hahead).written hwrote
            have hleft := h.length_ahead_advance hwrote.replaced.size hahead
            have hlength : ((b :: rest).drop k).length = (b :: rest).length - k := List.length_drop
            have hdone : min ((b :: rest).drop k).length
                ((s.advance k).ahead (m.writeRegion r s.position (b :: rest)).1 r).length = 0 := by
              omega
            rw [if_neg hnone, ih hnext (by omega), hdone, advance_zero,
              writeRegion_of_nothing hdone]
            by_cases hall : (b :: rest).length ≤ (s.ahead m r).length
            · rw [if_pos hall, if_pos (by omega)]
            · rw [if_neg hall, if_neg (by omega)]

theorem Over.writeAll_eq (h : s.Over r m) (data : List UInt8) :
    s.writeAll m data = ((m.writeRegion r s.position data).1,
      s.advance (min data.length (s.ahead m r).length),
      if data.length ≤ (s.ahead m r).length then .ok () else .error .writeZero) :=
  h.writeRepeatedly_eq Nat.le.refl

/-! ## Reading to the end -/

/-- Reads into buffers of whatever sizes, until one of them moves nothing: the bytes that were read,
and the stream then. -/
inductive Drained (m : Machine) : Stream → List UInt8 → Stream → Prop
  | stop {s s' : Stream} {buffer after : List UInt8} :
      buffer ≠ [] → s.read m buffer = (s', .ok (0, after)) → Drained m s [] s'
  | more {s s' last : Stream} {count : Nat} {buffer after rest : List UInt8} :
      count ≠ 0 → s.read m buffer = (s', .ok (count, after)) → Drained m s' rest last →
      Drained m s (after.take count ++ rest) last

/-- However the reads are cut, together they deliver all that was ahead. -/
theorem Over.of_drained {bytes : List UInt8} {last : Stream} (h : s.Over r m)
    (hdrained : Drained m s bytes last) :
    bytes = s.ahead m r ∧ last = s.advance (s.ahead m r).length := by
  induction hdrained with
  | @stop s s' buffer after hbuffer hread =>
      rw [h.read_eq] at hread
      obtain ⟨hstream, hcount⟩ := Prod.mk.inj hread
      have hnone : min buffer.length (s.ahead m r).length = 0 :=
        (Prod.mk.inj (Except.ok.inj hcount)).1
      have hlength := List.length_pos_iff.mpr hbuffer
      have hempty : s.ahead m r = [] := List.length_eq_zero_iff.mp (by omega)
      rw [hnone] at hstream
      exact ⟨hempty.symm, by rw [hempty, ← hstream]; rfl⟩
  | @more s s' last count buffer after rest hcount hread _ ih =>
      rw [h.read_eq] at hread
      obtain ⟨hstream, hresult⟩ := Prod.mk.inj hread
      obtain ⟨hmoved, hafter⟩ := Prod.mk.inj (Except.ok.inj hresult)
      have hahead : count ≤ (s.ahead m r).length := by omega
      rw [hmoved] at hstream hafter
      obtain ⟨hrest, hlast⟩ := ih (by rw [← hstream]; exact h.advance hahead)
      rw [← hstream, h.ahead_advance hahead] at hrest hlast
      refine ⟨?_, ?_⟩
      · rw [← hafter, take_filled hahead, hrest, List.take_append_drop]
      · rw [hlast, List.length_drop, h.advance_advance (by omega)]
        congr 1
        omega

/-- To read a chunk at a time is one of these ways. -/
theorem Over.drained_drain {fuel : Nat} (h : s.Over r m) (hfuel : (s.ahead m r).length < fuel) :
    ∃ bytes last, drain m fuel s = (last, .ok bytes) ∧ Drained m s bytes last := by
  induction fuel generalizing s with
  | zero => exact absurd hfuel (Nat.not_lt_zero _)
  | succ fuel ih =>
      have hread := h.read_eq (List.replicate chunk 0)
      rw [List.length_replicate] at hread
      generalize hk : min chunk (s.ahead m r).length = k at hread
      have hahead : k ≤ (s.ahead m r).length := by omega
      by_cases hnone : k = 0
      · subst hnone
        have hchunk : List.replicate chunk (0 : UInt8) ≠ [] := List.cons_ne_nil _ _
        refine ⟨[], s.advance 0, ?_, .stop hchunk hread⟩
        simp only [drain, hread, if_true]
      · have hleft : ((s.advance k).ahead m r).length < fuel := by
          rw [h.length_ahead_advance rfl hahead]
          omega
        obtain ⟨bytes, last, hdrain, hdrained⟩ := ih (h.advance hahead) hleft
        refine ⟨_, last, ?_, .more hnone hread hdrained⟩
        simp only [drain, hread, if_neg hnone, hdrain]
        rfl

theorem Over.readToEnd_eq (h : s.Over r m) :
    s.readToEnd m = (s.advance (s.ahead m r).length, .ok (s.ahead m r)) := by
  have hsize : (m.windowSize s.device).toOption.elim 0 UInt64.toNat =
      (m.regions.get r).bytes.size := by
    rw [Machine.windowSize_of_shows h.shows]
    exact Memory.toNat_size _
  have henough : (s.ahead m r).length < (m.regions.get r).bytes.size + 1 := by
    rw [length_ahead]
    omega
  obtain ⟨bytes, last, hdrain, hdrained⟩ := h.drained_drain henough
  obtain ⟨rfl, rfl⟩ := h.of_drained hdrained
  unfold readToEnd
  rw [hsize]
  exact hdrain

/-! ## Reading what was written -/

/-- Back at the position of a write, the stream is what it was before, over the written window. -/
theorem Over.seek_back (h : s.Over r m) (data : List UInt8) :
    (s.write m data).2.1.seek (s.write m data).1 (.start s.position) = (s, .ok s.position) := by
  have hmoved : min data.length (s.ahead m r).length ≤ (s.ahead m r).length := Nat.min_le_right ..
  have hnext := (h.advance hmoved).written (h.wrote data)
  have hseek := hnext.seek_eq (.start s.position)
  have hlt := s.position.toNat_lt
  have hinside := (h.written (h.wrote data)).inside
  have hword : (0 : Int) ≤ s.position.toNat ∧ (s.position.toNat : Int) < (UInt64.size : Int) := by
    simp only [UInt64.size]
    omega
  simp only [goal, if_pos hword, Int.toNat_natCast, Nat.min_eq_left hinside,
    UInt64.ofNat_toNat] at hseek
  rw [h.write_eq]
  exact hseek

/-- As many bytes as were written, read where they were written, are those that were written. -/
theorem Over.read_back (h : s.Over r m) (data : List UInt8) {buffer : List UInt8}
    (hbuffer : buffer.length = min data.length (s.ahead m r).length) :
    (s.read (s.write m data).1 buffer).2 =
      .ok (buffer.length, data.take (min data.length (s.ahead m r).length)) := by
  have hwrote := h.wrote data
  have hover := h.written hwrote
  have hlength : (data.take (min data.length (s.ahead m r).length)).length = buffer.length := by
    rw [List.length_take, hbuffer]
    omega
  have hroom : (s.ahead (m.writeRegion r s.position data).1 r).length = (s.ahead m r).length := by
    rw [length_ahead, length_ahead, hwrote.replaced.size]
  have hwhole : min buffer.length (s.ahead (m.writeRegion r s.position data).1 r).length =
      buffer.length := by
    rw [hroom, hbuffer]
    omega
  have hthere := hwrote.replaced.readAt (by
    rw [hlength, hbuffer, length_ahead]
    omega)
  rw [hlength, Memory.readAt_eq, span_position, hwhole] at hthere
  rw [h.write_eq, hover.read_eq, hwhole, List.drop_length, List.append_nil]
  exact congrArg (fun l => Except.ok (buffer.length, l)) hthere

/-! ## Streams that are served, and streams that are refused -/

/-- What a stream over a window does: with `n` bytes in the window, the position `p` and the
`n - p` bytes ahead of it, each operation moves exactly what it says. -/
structure Served (m : Machine) (r : Ref .region) (s : Stream) : Prop where
  ahead : (s.ahead m r).length = (m.regions.get r).bytes.size - s.position.toNat
  read : ∀ buffer,
    let k := min buffer.length (s.ahead m r).length
    (s.read m buffer).2 = .ok (k, (s.ahead m r).take k ++ buffer.drop k) ∧
    (s.read m buffer).1.position.toNat = s.position.toNat + k
  write : ∀ data,
    let k := min data.length (s.ahead m r).length
    (s.write m data).2.2 = .ok k ∧
    (s.write m data).2.1.position.toNat = s.position.toNat + k ∧
    Machine.Wrote r s.position.toNat (data.take k) m (s.write m data).1
  seek : ∀ origin,
    let n := (m.regions.get r).bytes.size
    let target := goal n s.position.toNat origin
    if 0 ≤ target ∧ target < (UInt64.size : Int) then
      (s.seek m origin).1.position.toNat = min target.toNat n ∧
      (s.seek m origin).2 = .ok (s.seek m origin).1.position
    else s.seek m origin = (s, .error (.device .invalidSeek))
  readToEnd : (s.readToEnd m).2 = .ok (s.ahead m r) ∧
    (s.readToEnd m).1.position.toNat = (m.regions.get r).bytes.size
  /-- However the reads up to the end are cut. -/
  drained : ∀ bytes last, Drained m s bytes last →
    bytes = s.ahead m r ∧ last = (s.readToEnd m).1
  writeAll : ∀ data,
    let k := min data.length (s.ahead m r).length
    (s.writeAll m data).2.2 =
      (if data.length ≤ (s.ahead m r).length then .ok () else .error .writeZero) ∧
    (s.writeAll m data).2.1.position.toNat = s.position.toNat + k ∧
    Machine.Wrote r s.position.toNat (data.take k) m (s.writeAll m data).1
  readExact : ∀ wanted,
    (s.readExact m wanted).2 =
      (if wanted ≤ (s.ahead m r).length then .ok ((s.ahead m r).take wanted)
      else .error .unexpectedEnd) ∧
    (s.readExact m wanted).1.position.toNat =
      s.position.toNat + min wanted (s.ahead m r).length
  /-- A write, a seek back to where it began, and a read of as many bytes. -/
  back : ∀ data,
    let k := min data.length (s.ahead m r).length
    let written := s.write m data
    let sought := written.2.1.seek written.1 (.start s.position)
    sought.1.position = s.position ∧ ∀ buffer : List UInt8, buffer.length = k →
      (sought.1.read written.1 buffer).2 = .ok (k, data.take k)

/-- What a stream over a device that is detached does: it fails, and nothing has happened. -/
structure Refused (m : Machine) (s : Stream) : Prop where
  read : ∀ buffer, s.read m buffer = (s, .error (.device .unavailable))
  write : ∀ data, s.write m data = (m, s, .error (.device .unavailable))
  seek : ∀ origin, s.seek m origin = (s, .error (.device .unavailable))
  readToEnd : s.readToEnd m = (s, .error (.device .unavailable))

theorem Over.served (h : s.Over r m) : s.Served m r := by
  have hmoved : ∀ wanted, min wanted (s.ahead m r).length ≤ (s.ahead m r).length :=
    fun wanted => Nat.min_le_right ..
  have hlength := length_ahead s m r
  have hinside := h.inside
  constructor
  · exact hlength
  · intro buffer k
    rw [h.read_eq]
    exact ⟨rfl, h.toNat_advance (hmoved _)⟩
  · intro data k
    rw [h.write_eq]
    exact ⟨rfl, h.toNat_advance (hmoved _), h.wrote data⟩
  · intro origin n target
    rw [h.seek_eq]
    split
    · rename_i hword
      have hsize := (m.regions.get r).size_lt
      have hlt : min target.toNat n < UInt64.size :=
        Nat.lt_of_le_of_lt (Nat.min_le_right ..) hsize
      have hposition : (UInt64.ofNat (min target.toNat n)).toNat = min target.toNat n :=
        UInt64.toNat_ofNat'.trans (Nat.mod_eq_of_lt hlt)
      exact ⟨hposition, rfl⟩
    · rfl
  · rw [h.readToEnd_eq]
    refine ⟨rfl, ?_⟩
    rw [h.toNat_advance Nat.le.refl, hlength]
    omega
  · intro bytes last hdrained
    rw [h.readToEnd_eq]
    exact h.of_drained hdrained
  · intro data k
    rw [h.writeAll_eq]
    exact ⟨rfl, h.toNat_advance (hmoved _), h.wrote data⟩
  · intro wanted
    rw [h.readExact_eq]
    exact ⟨rfl, h.toNat_advance (hmoved _)⟩
  · intro data k written sought
    have hsought : sought = (s, .ok s.position) := h.seek_back data
    rw [hsought]
    refine ⟨rfl, ?_⟩
    intro buffer hbuffer
    rw [h.read_back data hbuffer, hbuffer]

theorem refused_of_disabled (h : (m.devices.get s.device).enabled = false) : s.Refused m where
  read := read_of_disabled h
  write := write_of_disabled h
  seek := seek_of_disabled h
  readToEnd := by
    unfold readToEnd
    rw [Machine.windowSize_of_disabled h]
    show drain m 1 s = _
    simp only [drain, read_of_disabled h]

end Stream

end PeerBus
