/-
Probing an image reads only what is there, and reads the size of a well-formed header.

Every read of a round of the JPEG scan lies within the ten bytes that the loop asks for, and
every read of the other headers behind a check of the length.  What the scan does from a
place on depends only on the bytes from there on (`jpegLoop_append`), so segments are skipped
one at a time, by induction on their list.
-/
import BookHouse.Catalog.ImageProbe
import Mathlib.Algebra.BigOperators.Group.List.Basic

namespace BookHouse

/-! ### Reads within the buffer succeed -/

section reads

variable {buf : Buffer} {i : ℕ}

theorem byteAt_ok (h : i < buf.length) : ∃ b, byteAt buf i = .ok b := by
  refine ⟨buf[i].toNat, ?_⟩
  rw [byteAt, List.getElem?_eq_getElem h]

theorem bind_succeeds {α β : Type} {x : Except ReadError α} {f : α → Except ReadError β}
    (hx : ∃ a, x = .ok a) (hf : ∀ a, ∃ b, f a = .ok b) : ∃ b, (x >>= f) = .ok b := by
  obtain ⟨a, rfl⟩ := hx
  exact hf a

theorem map_succeeds {α β : Type} {x : Except ReadError α} {f : α → β}
    (hx : ∃ a, x = .ok a) : ∃ b, x.map f = .ok b := by
  obtain ⟨a, rfl⟩ := hx
  exact ⟨f a, rfl⟩

theorem readUInt16BE_ok (h : i + 1 < buf.length) : ∃ n, readUInt16BE buf i = .ok n :=
  bind_succeeds (byteAt_ok (by omega)) fun _ => bind_succeeds (byteAt_ok h) fun _ => ⟨_, rfl⟩

theorem readUInt16LE_ok (h : i + 1 < buf.length) : ∃ n, readUInt16LE buf i = .ok n :=
  bind_succeeds (byteAt_ok (by omega)) fun _ => bind_succeeds (byteAt_ok h) fun _ => ⟨_, rfl⟩

theorem readUInt32BE_ok (h : i + 3 < buf.length) : ∃ n, readUInt32BE buf i = .ok n :=
  bind_succeeds (readUInt16BE_ok (by omega)) fun _ =>
    bind_succeeds (readUInt16BE_ok (by omega)) fun _ => ⟨_, rfl⟩

theorem readUInt32LE_ok (h : i + 3 < buf.length) : ∃ n, readUInt32LE buf i = .ok n :=
  bind_succeeds (readUInt16LE_ok (by omega)) fun _ =>
    bind_succeeds (readUInt16LE_ok (by omega)) fun _ => ⟨_, rfl⟩

theorem readUInt24LE_ok (h : i + 2 < buf.length) : ∃ n, readUInt24LE buf i = .ok n :=
  bind_succeeds (readUInt16LE_ok (by omega)) fun _ => bind_succeeds (byteAt_ok h) fun _ => ⟨_, rfl⟩

/-- A round of the scan stays within ten bytes. -/
theorem scanAt_ok (h : i + 9 < buf.length) : ∃ s, scanAt buf i = .ok s := by
  have hsegment : ∀ marker, ∃ s, segmentAt buf i marker = .ok s := by
    intro marker
    refine bind_succeeds (readUInt16BE_ok (by omega)) fun len => ?_
    split
    · exact bind_succeeds (readUInt16BE_ok (by omega)) fun _ =>
        bind_succeeds (readUInt16BE_ok (by omega)) fun _ => ⟨_, rfl⟩
    split
    · exact ⟨_, rfl⟩
    · exact ⟨_, rfl⟩
  refine bind_succeeds (byteAt_ok (by omega)) fun b => ?_
  split
  · exact ⟨_, rfl⟩
  refine bind_succeeds (byteAt_ok (by omega)) fun marker => ?_
  split
  · exact ⟨_, rfl⟩
  · exact hsegment marker

theorem jpegLoop_next {j : ℕ} (h : i + 9 < buf.length) (hs : scanAt buf i = .ok (.next j)) :
    jpegLoop buf i = jpegLoop buf j := by
  rw [jpegLoop, if_pos h]
  split
  · rename_i e he
    rw [hs] at he
    cases he
  · rename_i size hsize
    rw [hs] at hsize
    cases hsize
  · rename_i k hk
    rw [hs] at hk
    cases hk
    rfl

theorem jpegLoop_done {size : Size} (h : i + 9 < buf.length)
    (hs : scanAt buf i = .ok (.done size)) : jpegLoop buf i = .ok size := by
  rw [jpegLoop, if_pos h]
  split
  · rename_i e he
    rw [hs] at he
    cases he
  · rename_i size' hsize
    rw [hs] at hsize
    cases hsize
    rfl
  · rename_i k hk
    rw [hs] at hk
    cases hk

theorem jpegLoop_end (h : buf.length ≤ i + 9) : jpegLoop buf i = .ok .unknown := by
  rw [jpegLoop, if_neg (by omega)]

/-- The scan ends with a size or without one, on every buffer. -/
theorem jpegLoop_ok (buf : Buffer) (i : ℕ) : ∃ size, jpegLoop buf i = .ok size := by
  by_cases h : i + 9 < buf.length
  · obtain ⟨s, hs⟩ := scanAt_ok h
    cases s with
    | done size => exact ⟨size, jpegLoop_done h hs⟩
    | next j =>
        have hlt := scanAt_next hs
        rw [jpegLoop_next h hs]
        exact jpegLoop_ok buf j
  · exact ⟨.unknown, jpegLoop_end (by omega)⟩
termination_by buf.length - i

theorem webpSize_ok (buf : Buffer) : ∃ size, webpSize buf = .ok size := by
  unfold webpSize
  split
  · exact ⟨_, rfl⟩
  rename_i hlen
  dsimp only
  split
  · exact bind_succeeds (readUInt16LE_ok (by omega)) fun _ =>
      bind_succeeds (readUInt16LE_ok (by omega)) fun _ => ⟨_, rfl⟩
  split
  · exact bind_succeeds (readUInt32LE_ok (by omega)) fun _ => ⟨_, rfl⟩
  split
  · exact bind_succeeds (readUInt24LE_ok (by omega)) fun _ =>
      bind_succeeds (readUInt24LE_ok (by omega)) fun _ => ⟨_, rfl⟩
  · exact ⟨_, rfl⟩

/-- No buffer is read outside of. -/
theorem probeImage_ok (buf : Buffer) : ∃ info, probeImage buf = .ok info := by
  unfold probeImage
  split
  · exact ⟨none, rfl⟩
  rename_i hlen
  have hpng : ∃ b, isPng buf = .ok b := by
    refine bind_succeeds (readUInt32BE_ok (by omega)) fun a => ?_
    split
    · exact bind_succeeds (readUInt32BE_ok (by omega)) fun _ => ⟨_, rfl⟩
    · exact ⟨_, rfl⟩
  have hjpeg : ∃ b, isJpeg buf = .ok b := by
    refine bind_succeeds (byteAt_ok (by omega)) fun a => ?_
    split
    · refine bind_succeeds (byteAt_ok (by omega)) fun b => ?_
      split
      · exact bind_succeeds (byteAt_ok (by omega)) fun _ => ⟨_, rfl⟩
      · exact ⟨_, rfl⟩
    · exact ⟨_, rfl⟩
  have hother : ∃ info, probeOther buf = .ok info := by
    unfold probeOther
    split
    · exact map_succeeds (bind_succeeds (readUInt16LE_ok (by omega)) fun _ =>
        bind_succeeds (readUInt16LE_ok (by omega)) fun _ => ⟨_, rfl⟩)
    split
    · exact map_succeeds (webpSize_ok buf)
    · refine bind_succeeds hjpeg fun b => ?_
      split
      · exact map_succeeds (jpegLoop_ok buf 2)
      · exact ⟨_, rfl⟩
  refine bind_succeeds hpng fun b => ?_
  split
  · refine map_succeeds ?_
    unfold pngSize
    split
    · exact bind_succeeds (readUInt32BE_ok (by omega)) fun _ =>
        bind_succeeds (readUInt32BE_ok (by omega)) fun _ => ⟨_, rfl⟩
    · exact ⟨_, rfl⟩
  · exact hother

end reads

/-! ### Reads of bytes that were written -/

/-- The bytes of a number below 65536, high byte first. -/
def be16 (n : ℕ) : Buffer := [UInt8.ofNat (n / 256), UInt8.ofNat (n % 256)]

def be32 (n : ℕ) : Buffer := be16 (n / 65536) ++ be16 (n % 65536)

def le16 (n : ℕ) : Buffer := [UInt8.ofNat (n % 256), UInt8.ofNat (n / 256)]

def le24 (n : ℕ) : Buffer := le16 (n % 65536) ++ [UInt8.ofNat (n / 65536)]

def le32 (n : ℕ) : Buffer := le16 (n % 65536) ++ le16 (n / 65536)

section written

variable {pre rest : Buffer} {n k : ℕ}

/-- What stands after the first bytes is read at its distance to them. -/
theorem byteAt_append (pre s : Buffer) (k : ℕ) :
    byteAt (pre ++ s) (pre.length + k) = byteAt s k := by
  rw [byteAt, byteAt, List.getElem?_append_right (by omega), Nat.add_sub_cancel_left]

theorem readUInt16BE_append (pre s : Buffer) (k : ℕ) :
    readUInt16BE (pre ++ s) (pre.length + k) = readUInt16BE s k := by
  rw [readUInt16BE, readUInt16BE, Nat.add_assoc, byteAt_append, byteAt_append]

theorem readUInt16LE_append (pre s : Buffer) (k : ℕ) :
    readUInt16LE (pre ++ s) (pre.length + k) = readUInt16LE s k := by
  rw [readUInt16LE, readUInt16LE, Nat.add_assoc, byteAt_append, byteAt_append]

theorem readUInt32BE_append (pre s : Buffer) (k : ℕ) :
    readUInt32BE (pre ++ s) (pre.length + k) = readUInt32BE s k := by
  rw [readUInt32BE, readUInt32BE, Nat.add_assoc, readUInt16BE_append, readUInt16BE_append]

theorem readUInt32LE_append (pre s : Buffer) (k : ℕ) :
    readUInt32LE (pre ++ s) (pre.length + k) = readUInt32LE s k := by
  rw [readUInt32LE, readUInt32LE, Nat.add_assoc, readUInt16LE_append, readUInt16LE_append]

theorem readUInt24LE_append (pre s : Buffer) (k : ℕ) :
    readUInt24LE (pre ++ s) (pre.length + k) = readUInt24LE s k := by
  rw [readUInt24LE, readUInt24LE, Nat.add_assoc, readUInt16LE_append, byteAt_append]

theorem toNat_ofNat {n : ℕ} (h : n < 256) : (UInt8.ofNat n).toNat = n := by
  rw [UInt8.toNat_ofNat']
  exact Nat.mod_eq_of_lt h

theorem readUInt16BE_be16 (h : n < 65536) : readUInt16BE (be16 n ++ rest) 0 = .ok n := by
  have hhigh : (UInt8.ofNat (n / 256)).toNat = n / 256 := toNat_ofNat (by omega)
  have hlow : (UInt8.ofNat (n % 256)).toNat = n % 256 := toNat_ofNat (by omega)
  show Except.ok ((UInt8.ofNat (n / 256)).toNat * 256 + (UInt8.ofNat (n % 256)).toNat) = _
  rw [hhigh, hlow]
  congr 1
  omega

theorem readUInt16LE_le16 (h : n < 65536) : readUInt16LE (le16 n ++ rest) 0 = .ok n := by
  have hhigh : (UInt8.ofNat (n / 256)).toNat = n / 256 := toNat_ofNat (by omega)
  have hlow : (UInt8.ofNat (n % 256)).toNat = n % 256 := toNat_ofNat (by omega)
  show Except.ok ((UInt8.ofNat (n % 256)).toNat + (UInt8.ofNat (n / 256)).toNat * 256) = _
  rw [hhigh, hlow]
  congr 1
  omega

theorem readUInt32BE_be32 (h : n < 2 ^ 32) : readUInt32BE (be32 n ++ rest) 0 = .ok n := by
  have hhigh : readUInt16BE (be32 n ++ rest) 0 = .ok (n / 65536) := by
    rw [be32, List.append_assoc]
    exact readUInt16BE_be16 (by omega)
  have hlow : readUInt16BE (be32 n ++ rest) 2 = .ok (n % 65536) := by
    rw [be32, List.append_assoc]
    exact (readUInt16BE_append (be16 (n / 65536)) _ 0).trans (readUInt16BE_be16 (by omega))
  rw [readUInt32BE, hhigh, hlow]
  show Except.ok (n / 65536 * 65536 + n % 65536) = _
  congr 1
  omega

theorem readUInt32LE_le32 (h : n < 2 ^ 32) : readUInt32LE (le32 n ++ rest) 0 = .ok n := by
  have hlow : readUInt16LE (le32 n ++ rest) 0 = .ok (n % 65536) := by
    rw [le32, List.append_assoc]
    exact readUInt16LE_le16 (by omega)
  have hhigh : readUInt16LE (le32 n ++ rest) 2 = .ok (n / 65536) := by
    rw [le32, List.append_assoc]
    exact (readUInt16LE_append (le16 (n % 65536)) _ 0).trans (readUInt16LE_le16 (by omega))
  rw [readUInt32LE, hlow, hhigh]
  show Except.ok (n % 65536 + n / 65536 * 65536) = _
  congr 1
  omega

theorem readUInt24LE_le24 (h : n < 2 ^ 24) : readUInt24LE (le24 n ++ rest) 0 = .ok n := by
  have hlow : readUInt16LE (le24 n ++ rest) 0 = .ok (n % 65536) := by
    rw [le24, List.append_assoc]
    exact readUInt16LE_le16 (by omega)
  have hhigh : (UInt8.ofNat (n / 65536)).toNat = n / 65536 := toNat_ofNat (by omega)
  rw [readUInt24LE, hlow]
  show Except.ok (n % 65536 + (UInt8.ofNat (n / 65536)).toNat * 65536) = _
  rw [hhigh]
  congr 1
  omega

end written

/-! ### JPEG -/

/-- A round moved along by the bytes before. -/
def Scan.shift (d : ℕ) : Scan → Scan
  | .next i => .next (d + i)
  | .done size => .done size

theorem scanAt_append (pre s : Buffer) (k : ℕ) :
    scanAt (pre ++ s) (pre.length + k) = (scanAt s k).map (Scan.shift pre.length) := by
  have hframe : frameSize (pre ++ s) (pre.length + k) =
      (frameSize s k).map (Scan.shift pre.length) := by
    rw [frameSize, frameSize, Nat.add_assoc, Nat.add_assoc, readUInt16BE_append,
      readUInt16BE_append]
    cases readUInt16BE s (k + 5) with
    | error e => rfl
    | ok height =>
        cases readUInt16BE s (k + 7) with
        | error e => rfl
        | ok width => rfl
  have hsegment : ∀ marker, segmentAt (pre ++ s) (pre.length + k) marker =
      (segmentAt s k marker).map (Scan.shift pre.length) := by
    intro marker
    rw [segmentAt, segmentAt, hframe, Nat.add_assoc, readUInt16BE_append]
    cases readUInt16BE s (k + 2) with
    | error e => rfl
    | ok len =>
        show (if isSof marker then (frameSize s k).map (Scan.shift pre.length)
          else if len < 2 then Except.ok (Scan.done .unknown)
          else .ok (Scan.next (pre.length + (k + 2) + len))) =
          Except.map (Scan.shift pre.length) (if isSof marker then frameSize s k
            else if len < 2 then Except.ok (Scan.done .unknown) else .ok (Scan.next (k + 2 + len)))
        rw [apply_ite (Except.map (Scan.shift pre.length)),
          apply_ite (Except.map (Scan.shift pre.length)), Nat.add_assoc pre.length]
        rfl
  rw [scanAt, scanAt, Nat.add_assoc, byteAt_append, byteAt_append]
  cases byteAt s k with
  | error e => rfl
  | ok b =>
      by_cases hb : b ≠ 0xff
      · show (if b ≠ 0xff then Except.ok (Scan.next (pre.length + (k + 1))) else _) =
          Except.map (Scan.shift pre.length) (if b ≠ 0xff then Except.ok (Scan.next (k + 1)) else _)
        rw [if_pos hb, if_pos hb]
        rfl
      show (if b ≠ 0xff then _ else _) = Except.map (Scan.shift pre.length) (if b ≠ 0xff then _ else _)
      rw [if_neg hb, if_neg hb]
      cases byteAt s (k + 1) with
      | error e => rfl
      | ok marker =>
          show (if standsAlone marker then Except.ok (Scan.next (pre.length + k + 2))
              else segmentAt (pre ++ s) (pre.length + k) marker) =
            Except.map (Scan.shift pre.length) (if standsAlone marker then Except.ok (Scan.next (k + 2))
              else segmentAt s k marker)
          rw [apply_ite (Except.map (Scan.shift pre.length)), hsegment, Nat.add_assoc]
          rfl

/-- What the scan does from a place on depends on the bytes from there on. -/
theorem jpegLoop_append (pre s : Buffer) (k : ℕ) :
    jpegLoop (pre ++ s) (pre.length + k) = jpegLoop s k := by
  have hlen : (pre ++ s).length = pre.length + s.length := List.length_append
  by_cases h : k + 9 < s.length
  · obtain ⟨step, hs⟩ := scanAt_ok h
    have hshift := scanAt_append pre s k
    rw [hs] at hshift
    cases step with
    | done size => rw [jpegLoop_done (by omega) hshift, jpegLoop_done h hs]
    | next j =>
        have hlt := scanAt_next hs
        rw [jpegLoop_next (by omega) hshift, jpegLoop_next h hs]
        exact jpegLoop_append pre s j
  · rw [jpegLoop_end (by omega), jpegLoop_end (by omega)]
termination_by s.length - k

/-- The markers that a segment other than the frame header begins with: DHT, JPG, DAC, those
from SOS to COM, and the reserved ones. -/
def SegmentMarker (m : UInt8) : Prop :=
  m = 0xC4 ∨ m = 0xC8 ∨ m = 0xCC ∨ (0xDA ≤ m ∧ m ≤ 0xFE) ∨ (0x02 ≤ m ∧ m ≤ 0xBF)

/-- SOF0 to SOF15. -/
def FrameMarker (m : UInt8) : Prop :=
  0xC0 ≤ m ∧ m ≤ 0xCF ∧ m ≠ 0xC4 ∧ m ≠ 0xC8 ∧ m ≠ 0xCC

/-- A marker segment, behind any number of fill bytes. -/
structure Segment where
  fill : ℕ
  marker : UInt8
  payload : Buffer
  known : SegmentMarker marker
  fits : payload.length + 2 < 65536

def Segment.bytes (s : Segment) : Buffer :=
  List.replicate s.fill 0xFF ++ ([0xFF, s.marker] ++ be16 (s.payload.length + 2) ++ s.payload)

/-- A start-of-frame segment with the bytes after its size fields. -/
structure Frame where
  fill : ℕ
  marker : UInt8
  precision : UInt8
  height : ℕ
  width : ℕ
  tail : Buffer
  known : FrameMarker marker
  height_fits : height < 65536
  width_fits : width < 65536
  tail_length : 2 ≤ tail.length
  fits : tail.length + 7 < 65536

def Frame.bytes (f : Frame) : Buffer :=
  List.replicate f.fill 0xFF ++ ([0xFF, f.marker] ++ be16 (f.tail.length + 7) ++ [f.precision] ++
    be16 f.height ++ be16 f.width ++ f.tail)

/-- SOI, the segments, the frame header and whatever follows. -/
def jpegStream (segments : List Segment) (frame : Frame) (rest : Buffer) : Buffer :=
  [0xFF, 0xD8] ++ (segments.flatMap Segment.bytes ++ (frame.bytes ++ rest))

theorem SegmentMarker.passed {m : UInt8} (h : SegmentMarker m) :
    standsAlone m.toNat = false ∧ isSof m.toNat = false := by
  have hcases : m.toNat = 0xC4 ∨ m.toNat = 0xC8 ∨ m.toNat = 0xCC ∨
      (0xDA ≤ m.toNat ∧ m.toNat ≤ 0xFE) ∨ (0x02 ≤ m.toNat ∧ m.toNat ≤ 0xBF) := by
    rcases h with rfl | rfl | rfl | h | h
    · exact Or.inl rfl
    · exact Or.inr (Or.inl rfl)
    · exact Or.inr (Or.inr (Or.inl rfl))
    · exact Or.inr (Or.inr (Or.inr (Or.inl h)))
    · exact Or.inr (Or.inr (Or.inr (Or.inr h)))
  constructor
  · simp only [standsAlone, Bool.or_eq_false_iff, Bool.and_eq_false_iff, decide_eq_false_iff_not]
    omega
  · rw [Bool.eq_false_iff]
    simp only [isSof, ne_eq, Bool.and_eq_true, decide_eq_true_eq]
    omega

theorem FrameMarker.stops {m : UInt8} (h : FrameMarker m) :
    standsAlone m.toNat = false ∧ isSof m.toNat = true := by
  obtain ⟨hlow, hhigh, h4, h8, hC⟩ := h
  have hge : 0xC0 ≤ m.toNat := hlow
  have hle : m.toNat ≤ 0xCF := hhigh
  have hne : ∀ c : UInt8, m ≠ c → m.toNat ≠ c.toNat :=
    fun c hc heq => hc (UInt8.toNat_inj.mp heq)
  have h4' : m.toNat ≠ 0xC4 := hne 0xC4 h4
  have h8' : m.toNat ≠ 0xC8 := hne 0xC8 h8
  have hC' : m.toNat ≠ 0xCC := hne 0xCC hC
  constructor
  · simp only [standsAlone, Bool.or_eq_false_iff, Bool.and_eq_false_iff, decide_eq_false_iff_not]
    omega
  · simp only [isSof, ne_eq, Bool.and_eq_true, decide_eq_true_eq]
    omega

/-- A round at a marker with a length. -/
theorem scanAt_marker {m : UInt8} (h : standsAlone m.toNat = false) (rest : Buffer) :
    scanAt (0xFF :: m :: rest) 0 = segmentAt (0xFF :: m :: rest) 0 m.toNat := by
  have hscan : scanAt (0xFF :: m :: rest) 0 = (if standsAlone m.toNat then .ok (.next 2)
      else segmentAt (0xFF :: m :: rest) 0 m.toNat) := rfl
  rw [hscan, h, if_neg Bool.false_ne_true]

/-- A segment without fill bytes is skipped. -/
theorem jpegLoop_segment (s : Segment) (hfill : s.fill = 0) {rest : Buffer}
    (hrest : 10 ≤ rest.length) : jpegLoop (s.bytes ++ rest) 0 = jpegLoop rest 0 := by
  obtain ⟨halone, hsof⟩ := s.known.passed
  let body := be16 (s.payload.length + 2) ++ s.payload
  have hbytes : s.bytes = 0xFF :: s.marker :: body := by
    rw [Segment.bytes, hfill]
    rfl
  have hlen : s.bytes.length = 4 + s.payload.length := by
    rw [hbytes]
    simp [body, be16]
    omega
  have hread : readUInt16BE (0xFF :: s.marker :: (body ++ rest)) 2 = .ok (s.payload.length + 2) := by
    refine (readUInt16BE_append [0xFF, s.marker] (body ++ rest) 0).trans ?_
    rw [List.append_assoc]
    exact readUInt16BE_be16 s.fits
  have hscan : scanAt (s.bytes ++ rest) 0 = .ok (.next (4 + s.payload.length)) := by
    rw [hbytes, List.cons_append, List.cons_append, scanAt_marker halone, segmentAt, hread]
    show (if isSof s.marker.toNat then _ else if s.payload.length + 2 < 2 then _ else
      Except.ok (Scan.next (0 + 2 + (s.payload.length + 2)))) = _
    rw [hsof, if_neg Bool.false_ne_true, if_neg (by omega)]
    congr 2
    omega
  have hlong : 0 + 9 < (s.bytes ++ rest).length := by
    rw [List.length_append]
    omega
  rw [jpegLoop_next hlong hscan, ← hlen]
  exact jpegLoop_append s.bytes rest 0

/-- A frame header without fill bytes is read. -/
theorem jpegLoop_frame (f : Frame) (hfill : f.fill = 0) (rest : Buffer) :
    jpegLoop (f.bytes ++ rest) 0 = .ok ⟨some f.width, some f.height⟩ := by
  obtain ⟨halone, hsof⟩ := f.known.stops
  let size := be16 f.height ++ (be16 f.width ++ (f.tail ++ rest))
  have hbytes : f.bytes ++ rest =
      0xFF :: f.marker :: (be16 (f.tail.length + 7) ++ f.precision :: size) := by
    rw [Frame.bytes, hfill]
    simp [size]
  have hlength : readUInt16BE (f.bytes ++ rest) 2 = .ok (f.tail.length + 7) := by
    rw [hbytes]
    exact (readUInt16BE_append [0xFF, f.marker] _ 0).trans (readUInt16BE_be16 f.fits)
  have hheight : readUInt16BE (f.bytes ++ rest) 5 = .ok f.height := by
    rw [hbytes]
    exact (readUInt16BE_append ([0xFF, f.marker] ++ be16 (f.tail.length + 7) ++ [f.precision]) _
      0).trans (readUInt16BE_be16 f.height_fits)
  have hwidth : readUInt16BE (f.bytes ++ rest) 7 = .ok f.width := by
    rw [hbytes]
    exact (readUInt16BE_append ([0xFF, f.marker] ++ be16 (f.tail.length + 7) ++ [f.precision] ++
      be16 f.height) _ 0).trans (readUInt16BE_be16 f.width_fits)
  have hscan : scanAt (f.bytes ++ rest) 0 = .ok (.done ⟨some f.width, some f.height⟩) := by
    have hmarker := scanAt_marker halone (be16 (f.tail.length + 7) ++ f.precision :: size)
    rw [← hbytes] at hmarker
    rw [hmarker, segmentAt, hlength]
    show (if isSof f.marker.toNat then frameSize (f.bytes ++ rest) 0 else _) = _
    rw [hsof, if_pos rfl, frameSize, hheight, hwidth]
    rfl
  have htail := f.tail_length
  refine jpegLoop_done ?_ hscan
  rw [hbytes]
  simp [size, be16]
  omega

theorem jpegLoop_stream (f : Frame) (hfill : f.fill = 0) (rest : Buffer) :
    ∀ segments : List Segment, (∀ s ∈ segments, s.fill = 0) →
      jpegLoop (segments.flatMap Segment.bytes ++ (f.bytes ++ rest)) 0 =
        .ok ⟨some f.width, some f.height⟩ := by
  intro segments
  induction segments with
  | nil => exact fun _ => jpegLoop_frame f hfill rest
  | cons s segments ih =>
      intro hall
      have htail := f.tail_length
      have hlong : 10 ≤ (segments.flatMap Segment.bytes ++ (f.bytes ++ rest)).length := by
        have hframe : f.bytes.length = 9 + f.tail.length := by
          rw [Frame.bytes, hfill]
          simp [be16]
          omega
        rw [List.length_append, List.length_append, hframe]
        omega
      rw [List.flatMap_cons, List.append_assoc, jpegLoop_segment s (hall s List.mem_cons_self) hlong]
      exact ih fun s hs => hall s (List.mem_cons_of_mem _ hs)

/-- The buffer is taken for an image of that kind and size. -/
def ReadsAs (buf : Buffer) (mime : Mime) (ext : String) (width height : ℕ) : Prop :=
  probeImage buf = .ok (some ⟨mime, ext, ⟨some width, some height⟩⟩)

theorem probeImage_branch {buf : Buffer} {b : Bool} (hlen : 12 ≤ buf.length)
    (hpng : isPng buf = .ok b) : probeImage buf =
      if b then (pngSize buf).map fun size => some ⟨.png, "png", size⟩ else probeOther buf := by
  rw [probeImage, if_neg (by omega), hpng]
  rfl

/-- A buffer with another first byte is no PNG. -/
theorem isPng_first {b : UInt8} (hb : b ≠ 0x89) (x y z : UInt8) (rest : Buffer) :
    isPng (b :: x :: y :: z :: rest) = .ok false := by
  have hread : readUInt32BE (b :: x :: y :: z :: rest) 0 =
      .ok ((b.toNat * 256 + x.toNat) * 65536 + (y.toNat * 256 + z.toNat)) := rfl
  have hne : b.toNat ≠ 0x89 := fun h => hb (UInt8.toNat_inj.mp h)
  have hx := x.toNat_lt
  have hy := y.toNat_lt
  have hz := z.toNat_lt
  have hvalue : (b.toNat * 256 + x.toNat) * 65536 + (y.toNat * 256 + z.toNat) ≠ 0x89504e47 := by
    omega
  rw [isPng, hread]
  show (if (b.toNat * 256 + x.toNat) * 65536 + (y.toNat * 256 + z.toNat) = 0x89504e47 then _
    else Except.ok false) = _
  rw [if_neg hvalue]

/-- A buffer that does not begin with a `G` is no GIF. -/
theorem isGif_first {b : UInt8} (hb : b &&& 0x7F ≠ 0x47) (rest : Buffer) :
    isGif (b :: rest) = false := by
  have hne : ∀ s : List UInt8, asciiAt (b :: rest) 0 6 ≠ 0x47 :: s :=
    fun s h => hb (List.cons.inj h).1
  have h87 : asciiAt (b :: rest) 0 6 ≠ ascii "GIF87a" := hne _
  have h89 : asciiAt (b :: rest) 0 6 ≠ ascii "GIF89a" := hne _
  simp [isGif, h87, h89]

theorem probeImage_jpeg (x : UInt8) (body : Buffer) (h : 8 ≤ body.length) :
    probeImage (0xFF :: 0xD8 :: 0xFF :: x :: body) =
      (jpegLoop (0xFF :: x :: body) 0).map fun size => some ⟨.jpeg, "jpg", size⟩ := by
  let buf : Buffer := 0xFF :: 0xD8 :: 0xFF :: x :: body
  have hlen : 12 ≤ buf.length := by
    simp only [buf, List.length_cons]
    omega
  have hpng : isPng buf = .ok false := isPng_first (by decide) _ _ _ _
  have hgif : isGif buf = false := isGif_first (by decide) _
  have hwebp : isWebp buf = false := by
    have hriff : asciiAt buf 0 4 ≠ ascii "RIFF" :=
      fun h => absurd (List.cons.inj h).1 (by decide)
    simp [isWebp, hriff]
  have hjpeg : isJpeg buf = .ok true := rfl
  have hloop : jpegSize buf = jpegLoop (0xFF :: x :: body) 0 :=
    jpegLoop_append [0xFF, 0xD8] (0xFF :: x :: body) 0
  rw [show probeImage (0xFF :: 0xD8 :: 0xFF :: x :: body) = _ from probeImage_branch hlen hpng,
    if_neg Bool.false_ne_true, probeOther, hgif, if_neg Bool.false_ne_true, hwebp,
    if_neg Bool.false_ne_true, hjpeg, hloop]
  rfl

/-- Without fill bytes the first segment's marker is the third and fourth byte. -/
theorem jpegStream_start {segments : List Segment} {frame : Frame}
    (hsegments : ∀ s ∈ segments, s.fill = 0) (hframe : frame.fill = 0) (rest : Buffer) :
    ∃ x body, segments.flatMap Segment.bytes ++ (frame.bytes ++ rest) = 0xFF :: x :: body ∧
      8 ≤ body.length := by
  have hlong : 11 ≤ frame.bytes.length := by
    have htail := frame.tail_length
    rw [Frame.bytes, hframe]
    simp [be16]
    omega
  cases segments with
  | nil =>
      refine ⟨frame.marker, frame.bytes.drop 2 ++ rest, ?_, ?_⟩
      · rw [Frame.bytes, hframe]
        rfl
      · rw [List.length_append, List.length_drop]
        omega
  | cons s segments =>
      have hs := hsegments s List.mem_cons_self
      refine ⟨s.marker, s.bytes.drop 2 ++ (segments.flatMap Segment.bytes ++ (frame.bytes ++ rest)),
        ?_, ?_⟩
      · rw [List.flatMap_cons, List.append_assoc, Segment.bytes, hs]
        rfl
      · rw [List.length_append, List.length_append, List.length_append]
        omega

theorem probeImage_stream {segments : List Segment} {frame : Frame}
    (hsegments : ∀ s ∈ segments, s.fill = 0) (hframe : frame.fill = 0) (rest : Buffer) :
    ReadsAs (jpegStream segments frame rest) .jpeg "jpg" frame.width frame.height := by
  obtain ⟨x, body, hbody, hlong⟩ := jpegStream_start hsegments hframe rest
  have hstream : jpegStream segments frame rest = 0xFF :: 0xD8 :: 0xFF :: x :: body := by
    rw [jpegStream, hbody]
    rfl
  have hloop := jpegLoop_stream frame hframe rest segments hsegments
  rw [ReadsAs, hstream, probeImage_jpeg x body hlong, ← hbody, hloop]
  rfl

/-! ### PNG, GIF and WebP -/

/-- The signature, the length and name of the first chunk, its first two fields. -/
def pngHeader (ihdr : Buffer) (width height : ℕ) : Buffer :=
  be32 0x89504e47 ++ (be32 0x0d0a1a0a ++ (ihdr ++ (be32 width ++ be32 height)))

theorem probeImage_png {ihdr : Buffer} (hihdr : ihdr.length = 8) {width height : ℕ}
    (hw : width < 2 ^ 32) (hh : height < 2 ^ 32) (rest : Buffer) :
    ReadsAs (pngHeader ihdr width height ++ rest) .png "png" width height := by
  let buf := pngHeader ihdr width height ++ rest
  have hbuf : buf = be32 0x89504e47 ++ (be32 0x0d0a1a0a ++ (ihdr ++ (be32 width ++
      (be32 height ++ rest)))) := by
    simp [buf, pngHeader]
  have hlen : 24 ≤ buf.length := by
    simp [hbuf, be32, be16, hihdr]
    omega
  have hsignature : isPng buf = .ok true := by
    have hfirst : readUInt32BE buf 0 = .ok 0x89504e47 := by
      rw [hbuf]
      exact readUInt32BE_be32 (by decide)
    have hsecond : readUInt32BE buf 4 = .ok 0x0d0a1a0a := by
      rw [hbuf]
      exact (readUInt32BE_append (be32 0x89504e47) _ 0).trans (readUInt32BE_be32 (by decide))
    rw [isPng, hfirst]
    show (if 0x89504e47 = 0x89504e47 then readUInt32BE buf 4 >>= fun b =>
      Except.ok (decide (b = 0x0d0a1a0a)) else Except.ok false) = _
    rw [if_pos rfl, hsecond]
    rfl
  have hat16 : (be32 0x89504e47 ++ be32 0x0d0a1a0a ++ ihdr).length + 0 = 16 := by
    simp [be32, be16, hihdr]
  have hat20 : (be32 0x89504e47 ++ be32 0x0d0a1a0a ++ ihdr ++ be32 width).length + 0 = 20 := by
    simp [be32, be16, hihdr]
  have hwidth : readUInt32BE buf 16 = .ok width := by
    rw [hbuf, ← List.append_assoc, ← List.append_assoc, ← hat16, readUInt32BE_append]
    exact readUInt32BE_be32 hw
  have hheight : readUInt32BE buf 20 = .ok height := by
    rw [hbuf, ← List.append_assoc, ← List.append_assoc, ← List.append_assoc, ← hat20,
      readUInt32BE_append]
    exact readUInt32BE_be32 hh
  have hsize : pngSize buf = .ok ⟨some width, some height⟩ := by
    rw [pngSize, if_pos hlen, hwidth, hheight]
    rfl
  show probeImage buf = _
  rw [probeImage_branch (by omega) hsignature, if_pos rfl, hsize]
  rfl

/-- A version, the size of the screen. -/
def gifHeader (version : String) (width height : ℕ) : Buffer :=
  ascii version ++ (le16 width ++ le16 height)

theorem probeImage_gif {version : String} (hversion : version = "GIF87a" ∨ version = "GIF89a")
    {width height : ℕ} (hw : width < 2 ^ 16) (hh : height < 2 ^ 16) {rest : Buffer}
    (hrest : 2 ≤ rest.length) :
    ReadsAs (gifHeader version width height ++ rest) .gif "gif" width height := by
  let buf := gifHeader version width height ++ rest
  have hbuf : buf = ascii version ++ (le16 width ++ (le16 height ++ rest)) := by
    simp [buf, gifHeader]
  have hsix : (ascii version).length = 6 := by
    rcases hversion with rfl | rfl
    · rfl
    · rfl
  have hlen : 12 ≤ buf.length := by
    simp [hbuf, le16, hsix]
    omega
  have hpng : isPng buf = .ok false := by
    rw [hbuf]
    rcases hversion with rfl | rfl
    · exact isPng_first (by decide) _ _ _ _
    · exact isPng_first (by decide) _ _ _ _
  have hgif : isGif buf = true := by
    rw [hbuf]
    rcases hversion with rfl | rfl
    · rfl
    · rfl
  have hwidth : readUInt16LE buf 6 = .ok width := by
    rw [hbuf, ← hsix]
    exact (readUInt16LE_append (ascii version) _ 0).trans (readUInt16LE_le16 hw)
  have hheight : readUInt16LE buf 8 = .ok height := by
    have hat : (ascii version ++ le16 width).length + 0 = 8 := by simp [le16, hsix]
    rw [hbuf, ← List.append_assoc, ← hat, readUInt16LE_append]
    exact readUInt16LE_le16 hh
  show probeImage buf = _
  rw [probeImage_branch hlen hpng, if_neg Bool.false_ne_true, probeOther, if_pos hgif, gifSize,
    hwidth, hheight]
  rfl

/-- RIFF, the size of the file, WEBP, the first chunk's name and size. -/
def webpHeader (chunk : String) (riff size : ℕ) : Buffer :=
  ascii "RIFF" ++ (le32 riff ++ (ascii "WEBP" ++ (ascii chunk ++ le32 size)))

theorem probeImage_webp {chunk : String} {riff size : ℕ} {body : Buffer} :
    probeImage (webpHeader chunk riff size ++ body) =
      (webpSize (webpHeader chunk riff size ++ body)).map fun size => some ⟨.webp, "webp", size⟩ := by
  have hlen : 12 ≤ (webpHeader chunk riff size ++ body).length := by
    have hriff : (ascii "RIFF").length = 4 := rfl
    have hwebp : (ascii "WEBP").length = 4 := rfl
    simp [webpHeader, le32, le16, hriff, hwebp]
    omega
  have hpng : isPng (webpHeader chunk riff size ++ body) = .ok false :=
    isPng_first (by decide) _ _ _ _
  have hgif : isGif (webpHeader chunk riff size ++ body) = false := isGif_first (by decide) _
  have hwebp : isWebp (webpHeader chunk riff size ++ body) = true := rfl
  rw [probeImage_branch hlen hpng, if_neg Bool.false_ne_true, probeOther, hgif,
    if_neg Bool.false_ne_true, hwebp, if_pos rfl]

/-- A lossy image: frame tag, start code, sizes with their scales. -/
def vp8Body (tag width height xscale yscale : ℕ) : Buffer :=
  le24 tag ++ ([0x9D, 0x01, 0x2A] ++
    (le16 (width + xscale * 2 ^ 14) ++ le16 (height + yscale * 2 ^ 14)))

theorem probeImage_vp8 (riff size tag : ℕ) {width height xscale yscale : ℕ}
    (hw : width < 2 ^ 14) (hh : height < 2 ^ 14) (hx : xscale < 4) (hy : yscale < 4)
    (rest : Buffer) : ReadsAs (webpHeader "VP8 " riff size ++
      (vp8Body tag width height xscale yscale ++ rest)) .webp "webp" width height := by
  let start := webpHeader "VP8 " riff size ++ le24 tag ++ [0x9D, 0x01, 0x2A]
  let buf := webpHeader "VP8 " riff size ++ (vp8Body tag width height xscale yscale ++ rest)
  have hbuf : buf =
      start ++ (le16 (width + xscale * 2 ^ 14) ++ (le16 (height + yscale * 2 ^ 14) ++ rest)) := by
    simp [buf, vp8Body, start]
  have hlen : ¬ buf.length < 30 := by
    have hstart : start.length = 26 := rfl
    rw [hbuf, List.length_append, hstart]
    simp [le16]
    omega
  have hchunk : asciiAt buf 12 16 = ascii "VP8 " := rfl
  have hwidth : readUInt16LE buf 26 = .ok (width + xscale * 2 ^ 14) := by
    rw [hbuf]
    exact (readUInt16LE_append start _ 0).trans (readUInt16LE_le16 (by omega))
  have hheight : readUInt16LE buf 28 = .ok (height + yscale * 2 ^ 14) := by
    rw [hbuf, ← List.append_assoc]
    exact (readUInt16LE_append (start ++ le16 _) _ 0).trans (readUInt16LE_le16 (by omega))
  have hsize : webpSize buf = .ok ⟨some width, some height⟩ := by
    have hw' : (width + xscale * 2 ^ 14) % 0x4000 = width := by omega
    have hh' : (height + yscale * 2 ^ 14) % 0x4000 = height := by omega
    unfold webpSize
    rw [if_neg hlen]
    dsimp only
    rw [if_pos hchunk, hwidth, hheight]
    show Except.ok (Size.mk (some ((width + xscale * 2 ^ 14) % 0x4000))
      (some ((height + yscale * 2 ^ 14) % 0x4000))) = _
    rw [hw', hh']
  show probeImage buf = _
  rw [show probeImage buf = _ from probeImage_webp, show webpSize _ = _ from hsize]
  rfl

/-- A lossless image: signature, sizes less one, alpha and version bits. -/
def vp8lBody (width height high : ℕ) : Buffer :=
  [0x2F] ++ le32 (width - 1 + (height - 1) * 2 ^ 14 + high * 2 ^ 28)

/-- A lossless image is read when its file has at least 30 bytes, 5 more than its header. -/
theorem probeImage_vp8l (riff size : ℕ) {width height high : ℕ}
    (hw : 1 ≤ width ∧ width ≤ 2 ^ 14) (hh : 1 ≤ height ∧ height ≤ 2 ^ 14) (hhigh : high < 16)
    (rest : Buffer) : ReadsAs (webpHeader "VP8L" riff size ++ (vp8lBody width height high ++ rest))
      .webp "webp" width height ↔ 5 ≤ rest.length := by
  let start := webpHeader "VP8L" riff size ++ [0x2F]
  let bits := width - 1 + (height - 1) * 2 ^ 14 + high * 2 ^ 28
  let buf := webpHeader "VP8L" riff size ++ (vp8lBody width height high ++ rest)
  have hbuf : buf = start ++ (le32 bits ++ rest) := by
    simp [buf, vp8lBody, start, bits]
  have hlen : buf.length = 25 + rest.length := by
    have hstart : start.length = 21 := rfl
    rw [hbuf, List.length_append, hstart]
    simp [le32, le16]
    omega
  have hchunk : asciiAt buf 12 16 = ascii "VP8L" := rfl
  have hbits : readUInt32LE buf 21 = .ok bits := by
    rw [hbuf]
    exact (readUInt32LE_append start _ 0).trans (readUInt32LE_le32 (by omega))
  have hother : ascii "VP8L" ≠ ascii "VP8 " := by decide
  have hprobe : probeImage buf =
      (webpSize buf).map fun size => some ⟨.webp, "webp", size⟩ := probeImage_webp
  constructor
  · intro hreads
    by_contra hshort
    have hunknown : webpSize buf = .ok .unknown := by
      unfold webpSize
      rw [if_pos (by omega)]
    have hnone : probeImage buf = .ok (some ⟨.webp, "webp", .unknown⟩) := by
      rw [hprobe, hunknown]
      rfl
    cases hnone.symm.trans hreads
  · intro hlong
    have hsize : webpSize buf = .ok ⟨some width, some height⟩ := by
      have hw' : bits % 0x4000 + 1 = width := by omega
      have hh' : bits / 0x4000 % 0x4000 + 1 = height := by omega
      unfold webpSize
      rw [if_neg (by omega)]
      dsimp only
      rw [hchunk, if_neg hother, if_pos rfl, hbits]
      show Except.ok (Size.mk (some (bits % 0x4000 + 1)) (some (bits / 0x4000 % 0x4000 + 1))) = _
      rw [hw', hh']
    show probeImage buf = _
    rw [hprobe, hsize]
    rfl

/-- An extended image: flags, sizes less one. -/
def vp8xBody (flags width height : ℕ) : Buffer :=
  le32 flags ++ (le24 (width - 1) ++ le24 (height - 1))

theorem probeImage_vp8x (riff size flags : ℕ) {width height : ℕ}
    (hw : 1 ≤ width ∧ width ≤ 2 ^ 24) (hh : 1 ≤ height ∧ height ≤ 2 ^ 24) (rest : Buffer) :
    ReadsAs (webpHeader "VP8X" riff size ++ (vp8xBody flags width height ++ rest))
      .webp "webp" width height := by
  let start := webpHeader "VP8X" riff size ++ le32 flags
  let buf := webpHeader "VP8X" riff size ++ (vp8xBody flags width height ++ rest)
  have hbuf : buf = start ++ (le24 (width - 1) ++ (le24 (height - 1) ++ rest)) := by
    simp [buf, vp8xBody, start]
  have hlen : ¬ buf.length < 30 := by
    have hstart : start.length = 24 := rfl
    rw [hbuf, List.length_append, hstart]
    simp [le24, le16]
    omega
  have hchunk : asciiAt buf 12 16 = ascii "VP8X" := rfl
  have hwidth : readUInt24LE buf 24 = .ok (width - 1) := by
    rw [hbuf]
    exact (readUInt24LE_append start _ 0).trans (readUInt24LE_le24 (by omega))
  have hheight : readUInt24LE buf 27 = .ok (height - 1) := by
    rw [hbuf, ← List.append_assoc]
    exact (readUInt24LE_append (start ++ le24 _) _ 0).trans (readUInt24LE_le24 (by omega))
  have hlossy : ascii "VP8X" ≠ ascii "VP8 " := by decide
  have hlossless : ascii "VP8X" ≠ ascii "VP8L" := by decide
  have hsize : webpSize buf = .ok ⟨some width, some height⟩ := by
    have hw' : width - 1 + 1 = width := by omega
    have hh' : height - 1 + 1 = height := by omega
    unfold webpSize
    rw [if_neg hlen]
    dsimp only
    rw [hchunk, if_neg hlossy, if_neg hlossless, if_pos rfl, hwidth, hheight]
    show Except.ok (Size.mk (some (width - 1 + 1)) (some (height - 1 + 1))) = _
    rw [hw', hh']
  show probeImage buf = _
  rw [show probeImage buf = _ from probeImage_webp, show webpSize _ = _ from hsize]
  rfl

/-- **No buffer is read outside of, and a full header is read right: a JPEG's where no marker has
fill bytes before it, a lossless WebP's exactly where the file has 30 bytes.** -/
theorem probeImage_reads (buf rest : Buffer) :
    (∃ info, probeImage buf = .ok info) ∧
    (∀ (segments : List Segment) (frame : Frame), (∀ s ∈ segments, s.fill = 0) → frame.fill = 0 →
      ReadsAs (jpegStream segments frame rest) .jpeg "jpg" frame.width frame.height) ∧
    (∀ (ihdr : Buffer) (width height : ℕ), ihdr.length = 8 → width < 2 ^ 32 → height < 2 ^ 32 →
      ReadsAs (pngHeader ihdr width height ++ rest) .png "png" width height) ∧
    (∀ (version : String) (width height : ℕ), version = "GIF87a" ∨ version = "GIF89a" →
      width < 2 ^ 16 → height < 2 ^ 16 → 2 ≤ rest.length →
      ReadsAs (gifHeader version width height ++ rest) .gif "gif" width height) ∧
    (∀ riff size tag width height xscale yscale : ℕ, width < 2 ^ 14 → height < 2 ^ 14 →
      xscale < 4 → yscale < 4 → ReadsAs (webpHeader "VP8 " riff size ++
        (vp8Body tag width height xscale yscale ++ rest)) .webp "webp" width height) ∧
    (∀ riff size width height high : ℕ, 1 ≤ width ∧ width ≤ 2 ^ 14 → 1 ≤ height ∧ height ≤ 2 ^ 14 →
      high < 16 → (ReadsAs (webpHeader "VP8L" riff size ++
        (vp8lBody width height high ++ rest)) .webp "webp" width height ↔ 5 ≤ rest.length)) ∧
    (∀ riff size flags width height : ℕ, 1 ≤ width ∧ width ≤ 2 ^ 24 →
      1 ≤ height ∧ height ≤ 2 ^ 24 → ReadsAs (webpHeader "VP8X" riff size ++
        (vp8xBody flags width height ++ rest)) .webp "webp" width height) := by
  refine ⟨probeImage_ok buf, ?_, ?_, ?_, ?_, ?_, ?_⟩
  · intro segments frame hsegments hframe
    exact probeImage_stream hsegments hframe rest
  · intro ihdr width height hihdr hw hh
    exact probeImage_png hihdr hw hh rest
  · intro version width height hversion hw hh hrest
    exact probeImage_gif hversion hw hh hrest
  · intro riff size tag width height xscale yscale hw hh hx hy
    exact probeImage_vp8 riff size tag hw hh hx hy rest
  · intro riff size width height high hw hh hhigh
    exact probeImage_vp8l riff size hw hh hhigh rest
  · intro riff size flags width height hw hh
    exact probeImage_vp8x riff size flags hw hh rest

/-- A comment of two bytes. -/
def comment : Segment where
  fill := 0
  marker := 0xFE
  payload := [0x68, 0x69]
  known := by unfold SegmentMarker; decide
  fits := by decide

/-- A grey frame of 32 by 16, behind some fill bytes. -/
def greyFrame (fill : ℕ) : Frame where
  fill := fill
  marker := 0xC0
  precision := 8
  height := 16
  width := 32
  tail := [1, 1, 0x11, 0]
  known := by unfold FrameMarker; decide
  height_fits := by decide
  width_fits := by decide
  tail_length := by decide
  fits := by decide

theorem probeImage_reads_grey :
    ReadsAs (jpegStream [comment] (greyFrame 0) []) .jpeg "jpg" 32 16 :=
  (probeImage_reads [] []).2.1 [comment] (greyFrame 0) (by simp [comment]) rfl

/-- **One fill byte before the frame header, and the size is not found; nor is that of a
lossless WebP of 25 bytes.** -/
theorem probeImage_fill :
    (¬ ∀ (segments : List Segment) (frame : Frame) (rest : Buffer),
      ReadsAs (jpegStream segments frame rest) .jpeg "jpg" frame.width frame.height) ∧
    ¬ ∀ (riff size width height high : ℕ) (rest : Buffer), 1 ≤ width ∧ width ≤ 2 ^ 14 →
      1 ≤ height ∧ height ≤ 2 ^ 14 → high < 16 → ReadsAs (webpHeader "VP8L" riff size ++
        (vp8lBody width height high ++ rest)) .webp "webp" width height := by
  constructor
  · intro hall
    let body : Buffer := [0xC0, 0, 11, 8, 0, 16, 0, 32, 1, 1, 0x11, 0]
    have hstream : jpegStream [] (greyFrame 1) [] = 0xFF :: 0xD8 :: 0xFF :: 0xFF :: body := rfl
    have hscan : scanAt (0xFF :: 0xFF :: body) 0 = .ok (.next (0 + 2 + 0xC000)) := by
      decide +kernel
    have hsize : jpegLoop (0xFF :: 0xFF :: body) 0 = .ok .unknown := by
      rw [jpegLoop_next (by decide) hscan, jpegLoop_end (by decide)]
    have hreads := hall [] (greyFrame 1) []
    rw [ReadsAs, hstream, probeImage_jpeg _ _ (by decide), hsize] at hreads
    cases hreads
  · intro hall
    have hreads := hall 26 13 1 1 0 [] (by decide) (by decide) (by decide)
    exact absurd ((probeImage_vp8l 26 13 (by decide) (by decide) (by decide) []).mp hreads)
      (by decide)

end BookHouse
