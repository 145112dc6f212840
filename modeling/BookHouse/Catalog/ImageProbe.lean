/-
Identifying an uploaded image: `catalog/domain/image-probe.ts`.

The bytes come from the client.  Every read goes through `byteAt`, which fails where the
source would throw a RangeError or see `undefined`, so that reading outside the buffer is
something the model can do.
-/
import BookHouse.Lib.Result

namespace BookHouse

abbrev Buffer := List UInt8

inductive ReadError
  | outOfRange
deriving DecidableEq, Repr

inductive Mime
  | jpeg | png | webp | gif
deriving DecidableEq, Repr

structure Size where
  width : Option ℕ
  height : Option ℕ
deriving DecidableEq, Repr

def Size.unknown : Size := ⟨none, none⟩

structure ImageInfo where
  mime : Mime
  ext : String
  size : Size
deriving DecidableEq, Repr

/-- `buf[i]` -/
def byteAt (buf : Buffer) (i : ℕ) : Except ReadError ℕ :=
  match buf[i]? with
  | some b => .ok b.toNat
  | none => .error .outOfRange

def readUInt16BE (buf : Buffer) (i : ℕ) : Except ReadError ℕ := do
  return (← byteAt buf i) * 256 + (← byteAt buf (i + 1))

def readUInt16LE (buf : Buffer) (i : ℕ) : Except ReadError ℕ := do
  return (← byteAt buf i) + (← byteAt buf (i + 1)) * 256

def readUInt32BE (buf : Buffer) (i : ℕ) : Except ReadError ℕ := do
  return (← readUInt16BE buf i) * 65536 + (← readUInt16BE buf (i + 2))

def readUInt32LE (buf : Buffer) (i : ℕ) : Except ReadError ℕ := do
  return (← readUInt16LE buf i) + (← readUInt16LE buf (i + 2)) * 65536

/-- `buf.readUIntLE(i, 3)` -/
def readUInt24LE (buf : Buffer) (i : ℕ) : Except ReadError ℕ := do
  return (← readUInt16LE buf i) + (← byteAt buf (i + 2)) * 65536

/-- `buf.subarray(a, b).toString('ascii')`, which drops the high bit of each byte. -/
def asciiAt (buf : Buffer) (a b : ℕ) : List UInt8 := ((buf.take b).drop a).map (· &&& 0x7F)

/-- The bytes of an ASCII literal. -/
def ascii (s : String) : List UInt8 := s.toList.map fun c => c.toNat.toUInt8

/-! ### WebP -/

def webpSize (buf : Buffer) : Except ReadError Size :=
  if buf.length < 30 then .ok .unknown
  else
    let chunk := asciiAt buf 12 16
    if chunk = ascii "VP8 " then do
      let w ← readUInt16LE buf 26
      let h ← readUInt16LE buf 28
      return ⟨some (w % 0x4000), some (h % 0x4000)⟩
    else if chunk = ascii "VP8L" then do
      let b ← readUInt32LE buf 21
      return ⟨some (b % 0x4000 + 1), some (b / 0x4000 % 0x4000 + 1)⟩
    else if chunk = ascii "VP8X" then do
      let w ← readUInt24LE buf 24
      let h ← readUInt24LE buf 27
      return ⟨some (w + 1), some (h + 1)⟩
    else .ok .unknown

/-! ### JPEG -/

/-- A marker without a length after it. -/
def standsAlone (marker : ℕ) : Bool :=
  marker = 0xd8 || marker = 0x01 || (0xd0 ≤ marker && marker ≤ 0xd7)

def isSof (marker : ℕ) : Bool :=
  0xc0 ≤ marker && marker ≤ 0xcf && marker ≠ 0xc4 && marker ≠ 0xc8 && marker ≠ 0xcc

/-- What one round of the scan comes to. -/
inductive Scan
  | next (i : ℕ)
  | done (size : Size)
deriving DecidableEq, Repr

def frameSize (buf : Buffer) (i : ℕ) : Except ReadError Scan := do
  let height ← readUInt16BE buf (i + 5)
  let width ← readUInt16BE buf (i + 7)
  return .done ⟨some width, some height⟩

/-- A marker with its length: the frame's size, or where the next segment begins. -/
def segmentAt (buf : Buffer) (i marker : ℕ) : Except ReadError Scan := do
  let len ← readUInt16BE buf (i + 2)
  if isSof marker then frameSize buf i
  else if len < 2 then return .done .unknown
  else return .next (i + 2 + len)

/-- The body of the loop. -/
def scanAt (buf : Buffer) (i : ℕ) : Except ReadError Scan := do
  let b ← byteAt buf i
  if b ≠ 0xff then return .next (i + 1)
  else
    let marker ← byteAt buf (i + 1)
    if standsAlone marker then return .next (i + 2) else segmentAt buf i marker

theorem segmentAt_next {buf : Buffer} {i j marker : ℕ}
    (h : segmentAt buf i marker = .ok (.next j)) : i < j := by
  obtain ⟨len, -, h⟩ := Result.bind_ok.mp h
  split at h
  · obtain ⟨height, -, h⟩ := Result.bind_ok.mp h
    obtain ⟨width, -, h⟩ := Result.bind_ok.mp h
    cases h
  split at h
  · cases h
  · cases h
    omega

/-- The loop only goes forward. -/
theorem scanAt_next {buf : Buffer} {i j : ℕ} (h : scanAt buf i = .ok (.next j)) : i < j := by
  obtain ⟨b, -, h⟩ := Result.bind_ok.mp h
  split at h
  · cases h
    omega
  obtain ⟨marker, -, h⟩ := Result.bind_ok.mp h
  split at h
  · cases h
    omega
  · exact segmentAt_next h

def jpegLoop (buf : Buffer) (i : ℕ) : Except ReadError Size :=
  if i + 9 < buf.length then
    match h : scanAt buf i with
    | .error e => .error e
    | .ok (.done size) => .ok size
    | .ok (.next j) =>
        have := scanAt_next h
        jpegLoop buf j
  else .ok .unknown
termination_by buf.length - i

def jpegSize (buf : Buffer) : Except ReadError Size := jpegLoop buf 2

/-! ### Any image -/

def isPng (buf : Buffer) : Except ReadError Bool := do
  let a ← readUInt32BE buf 0
  if a = 0x89504e47 then
    let b ← readUInt32BE buf 4
    return b = 0x0d0a1a0a
  else return false

def isGif (buf : Buffer) : Bool :=
  asciiAt buf 0 6 = ascii "GIF87a" || asciiAt buf 0 6 = ascii "GIF89a"

def isWebp (buf : Buffer) : Bool :=
  asciiAt buf 0 4 = ascii "RIFF" && asciiAt buf 8 12 = ascii "WEBP"

def isJpeg (buf : Buffer) : Except ReadError Bool := do
  if (← byteAt buf 0) = 0xff then
    if (← byteAt buf 1) = 0xd8 then return (← byteAt buf 2) = 0xff else return false
  else return false

def pngSize (buf : Buffer) : Except ReadError Size :=
  if 24 ≤ buf.length then do
    let width ← readUInt32BE buf 16
    let height ← readUInt32BE buf 20
    return ⟨some width, some height⟩
  else .ok .unknown

def gifSize (buf : Buffer) : Except ReadError Size := do
  let width ← readUInt16LE buf 6
  let height ← readUInt16LE buf 8
  return ⟨some width, some height⟩

/-- The branches after PNG: GIF, WebP, JPEG, or nothing that is supported. -/
def probeOther (buf : Buffer) : Except ReadError (Option ImageInfo) :=
  if isGif buf then (gifSize buf).map fun size => some ⟨.gif, "gif", size⟩
  else if isWebp buf then (webpSize buf).map fun size => some ⟨.webp, "webp", size⟩
  else do
    if ← isJpeg buf then (jpegSize buf).map fun size => some ⟨.jpeg, "jpg", size⟩
    else return none

def probeImage (buf : Buffer) : Except ReadError (Option ImageInfo) :=
  if buf.length < 12 then .ok none
  else do
    if ← isPng buf then (pngSize buf).map fun size => some ⟨.png, "png", size⟩
    else probeOther buf

end BookHouse
