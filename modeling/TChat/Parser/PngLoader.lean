import TChat.Common.Protocol
import TChat.Lib.Counting
/-!
# The PNG loader

`parser/PNGloader.cpp` and the `readBigEndian32` of `parser/utils.cpp`.  A vector is a byte
list, and an access beyond its end gives `none`.  zlib is not looked into: what `uncompress`
writes and returns is a parameter, and so are the bytes of an array that is read before it is
written.
-/

namespace TChat.Parser

open TChat.Common TChat.Lib

/-- `struct Image`, without the pixels that the loader does not touch. -/
structure Image where
  width : UInt32
  height : UInt32
  channels : UInt32
  data : Bytes
  zlibStream : Bytes
  pixels : Bytes
  deriving DecidableEq, Repr

def Image.empty : Image := ⟨0, 0, 0, [], [], []⟩

def pngSignature : Bytes := [0x89, 0x50, 0x4E, 0x47, 0x0D, 0x0A, 0x1A, 0x0A]

/-- A size as the code computes it, and the number it stands for. -/
structure Size where
  computed : ℤ
  exact : ℤ
  deriving DecidableEq, Repr

/-- What the loader calls and does not define. -/
structure Environment where
  /-- `uncompress`: the code it returns, and what it writes into a buffer of that length. -/
  uncompress : Bytes → ℕ → ℤ × Bytes
  length_uncompress : ∀ source destLen, (uncompress source destLen).2.length ≤ destLen
  /-- There is memory for a vector of that many bytes. -/
  allocates : ℕ → Bool
  /-- What the array of `readBigEndian32` holds before a length, a width and a height. -/
  lengthBytes : Bytes
  widthBytes : Bytes
  heightBytes : Bytes

def zOk : ℤ := 0

/-! ## The file -/

/-- A `std::ifstream`: what is left of the file, `none` when `good()` does not hold. -/
abbrev Stream := Option Bytes

namespace Stream

def read (n : ℕ) : Stream → Bytes × Stream
  | none => ([], none)
  | some rest => (rest.take n, if n ≤ rest.length then some (rest.drop n) else none)

def get : Stream → UInt8 × Stream
  | none | some [] => (255, none)
  | some (byte :: rest) => (byte, some rest)

def ignore (n : ℕ) : Stream → Stream
  | none => none
  | some rest => if n ≤ rest.length then some (rest.drop n) else none

/-- `seekg` from the current position, which goes beyond the end without an error. -/
def seekg (n : ℕ) : Stream → Stream
  | none => none
  | some rest => some (rest.drop n)

end Stream

def bigEndianWord (bytes : Bytes) : UInt32 :=
  (bytes.getD 0 0).toUInt32 <<< 24 ||| (bytes.getD 1 0).toUInt32 <<< 16 |||
    (bytes.getD 2 0).toUInt32 <<< 8 ||| (bytes.getD 3 0).toUInt32

/-- `readBigEndian32`, with what its array holds before it reads. -/
def readBigEndian32 (garbage : Bytes) (file : Stream) : UInt32 × Stream :=
  let (read, file) := Stream.read 4 file
  (bigEndianWord (read ++ garbage.drop read.length), file)

def validateSignature (file : Stream) : Bool × Stream :=
  let (buffer, file) := Stream.read 8 file
  (decide (buffer.length = 8 ∧ buffer = pngSignature), file)

/-! ## The chunks -/

inductive ChunkResult
  | next (file : Stream) (image : Image)
  | ended (file : Stream) (image : Image)
  | rejected (file : Stream) (image : Image)

def processHeader (env : Environment) (file : Stream) (image : Image) : ChunkResult :=
  let (width, file) := readBigEndian32 env.widthBytes file
  let (height, file) := readBigEndian32 env.heightBytes file
  let image := { image with width := width, height := height }
  let (bitDepth, file) := Stream.get file
  if bitDepth ≠ 8 then .rejected file image
  else
    let (colorType, file) := Stream.get file
    let file := Stream.ignore 3 file
    if colorType = 2 then .next (readBigEndian32 [] file).2 { image with channels := 3 }
    else if colorType = 6 then .next (readBigEndian32 [] file).2 { image with channels := 4 }
    else .rejected file image

def processData (length : UInt32) (file : Stream) (image : Image) : ChunkResult :=
  let (read, file) := Stream.read length.toNat file
  let data := read ++ List.replicate (length.toNat - read.length) 0
  .next (readBigEndian32 [] file).2 { image with zlibStream := image.zlibStream ++ data }

/-- The body of the loop of `processChunks`, and the sizes it computes. -/
def processChunk (env : Environment) (file : Stream) (image : Image) :
    ChunkResult × List Size :=
  let (length, file) := readBigEndian32 env.lengthBytes file
  let (read, file) := Stream.read 4 file
  let type := read.takeWhile (· ≠ 0)
  if type = literal "IHDR" then (processHeader env file image, [])
  else if type = literal "IDAT" then (processData length file image, [])
  else if type = literal "IEND" then (.ended file image, [])
  else
    (.next (Stream.seekg (length + 4).toNat file) image,
      [⟨(length + 4).toNat, length.toNat + 4⟩])

def Stream.left : Stream → ℕ
  | none => 0
  | some rest => rest.length + 1

section

variable {file file' : Stream} {image image' : Image} {env : Environment} {sizes : List Size}

@[simp] theorem Stream.left_none : Stream.left none = 0 := rfl

@[simp] theorem Stream.left_some (rest : Bytes) : Stream.left (some rest) = rest.length + 1 := rfl

theorem Stream.left_read (n : ℕ) (file : Stream) :
    (Stream.read n file).2.left ≤ file.left - n := by
  cases file with
  | none => exact Nat.zero_le _
  | some rest =>
      unfold Stream.read
      dsimp only
      split_ifs with hn
      · rw [left_some, left_some, List.length_drop]
        omega
      · exact Nat.zero_le _

theorem Stream.left_get (file : Stream) : (Stream.get file).2.left ≤ file.left := by
  cases file with
  | none => exact Nat.le_refl _
  | some rest =>
      cases rest with
      | nil => exact Nat.zero_le _
      | cons byte rest => exact Nat.le_succ _

theorem Stream.left_ignore (n : ℕ) (file : Stream) :
    (Stream.ignore n file).left ≤ file.left := by
  cases file with
  | none => exact Nat.le_refl _
  | some rest =>
      unfold Stream.ignore
      dsimp only
      split_ifs
      · rw [left_some, left_some, List.length_drop]
        omega
      · exact Nat.zero_le _

theorem Stream.left_seekg (n : ℕ) (file : Stream) : (Stream.seekg n file).left ≤ file.left := by
  cases file with
  | none => exact Nat.le_refl _
  | some rest =>
      rw [Stream.seekg, left_some, left_some, List.length_drop]
      omega

theorem left_readBigEndian32 (garbage : Bytes) (file : Stream) :
    (readBigEndian32 garbage file).2.left ≤ file.left - 4 :=
  Stream.left_read 4 file

theorem left_processHeader (h : processHeader env file image = .next file' image') :
    file'.left ≤ file.left := by
  unfold processHeader at h
  dsimp only at h
  have hwidth := left_readBigEndian32 env.widthBytes file
  generalize readBigEndian32 env.widthBytes file = width at h hwidth
  have hheight := left_readBigEndian32 env.heightBytes width.2
  generalize readBigEndian32 env.heightBytes width.2 = height at h hheight
  have hdepth := height.2.left_get
  generalize Stream.get height.2 = bitDepth at h hdepth
  have hcolor := bitDepth.2.left_get
  generalize Stream.get bitDepth.2 = colorType at h hcolor
  have hignored := colorType.2.left_ignore 3
  have hcrc := left_readBigEndian32 [] (colorType.2.ignore 3)
  split_ifs at h
  · obtain ⟨rfl, -⟩ := ChunkResult.next.inj h
    omega
  · obtain ⟨rfl, -⟩ := ChunkResult.next.inj h
    omega

theorem left_processData {length : UInt32}
    (h : processData length file image = .next file' image') : file'.left ≤ file.left := by
  unfold processData at h
  dsimp only at h
  have hdata := file.left_read length.toNat
  generalize Stream.read length.toNat file = data at h hdata
  have hcrc := left_readBigEndian32 [] data.2
  obtain ⟨rfl, -⟩ := ChunkResult.next.inj h
  omega

theorem left_of_next (h : processChunk env file image = (.next file' image', sizes)) :
    file'.left ≤ file.left - 4 := by
  unfold processChunk at h
  dsimp only at h
  have hlength := left_readBigEndian32 env.lengthBytes file
  generalize readBigEndian32 env.lengthBytes file = length at h hlength
  have htype := length.2.left_read 4
  generalize Stream.read 4 length.2 = type at h htype
  split_ifs at h
  · have hheader := left_processHeader (Prod.mk.inj h).1
    omega
  · have hdata := left_processData (Prod.mk.inj h).1
    omega
  · cases (Prod.mk.inj h).1
  · have hskip := type.2.left_seekg (length.1 + 4).toNat
    obtain ⟨rfl, -⟩ := ChunkResult.next.inj (Prod.mk.inj h).1
    omega

end

/-- The walk over the chunks has ended, or `processChunks` has returned `false` in it. -/
inductive WalkResult
  | ended (file : Stream) (image : Image)
  | rejected (file : Stream) (image : Image)

/-- The loop of `processChunks`, and the sizes it computes. -/
def walkChunks (env : Environment) (file : Stream) (image : Image) : WalkResult × List Size :=
  match file with
  | none => (.ended none image, [])
  | some rest =>
      match h : processChunk env (some rest) image with
      | (.next file image, sizes) =>
          have := left_of_next h
          let (result, more) := walkChunks env file image
          (result, sizes ++ more)
      | (.ended file image, sizes) => (.ended file image, sizes)
      | (.rejected file image, sizes) => (.rejected file image, sizes)
termination_by file.left
decreasing_by
  rw [Stream.left_some] at this ⊢
  omega

def resize (bytes : Bytes) (size : ℕ) : Bytes :=
  bytes.take size ++ List.replicate (size - bytes.length) 0

def Image.bytesPerScanline (image : Image) : UInt32 := 1 + image.width * image.channels

def Image.expectedStreamSize (image : Image) : UInt64 :=
  image.height.toUInt64 * image.bytesPerScanline.toUInt64

def Image.streamSizes (image : Image) : List Size :=
  [⟨image.bytesPerScanline.toNat, 1 + image.width.toNat * image.channels.toNat⟩,
    ⟨image.expectedStreamSize.toNat,
      image.height.toNat * (1 + image.width.toNat * image.channels.toNat)⟩]

/-- How `processChunks` ends: what it returns, `none` if it throws, the file and the image it
leaves, the number of bytes that `uncompress` reports and the sizes it has computed. -/
structure Processed where
  verdict : Option Bool
  file : Stream
  image : Image
  destLen : Option ℕ
  sizes : List Size

def processChunks (env : Environment) (file : Stream) (image : Image) : Processed :=
  match walkChunks env file image with
  | (.rejected file image, sizes) => ⟨some false, file, image, none, sizes⟩
  | (.ended file image, sizes) =>
      if image.zlibStream = [] then ⟨some false, file, image, none, sizes⟩
      else
        let sizes := sizes ++ image.streamSizes
        let expectedStreamSize := image.expectedStreamSize.toNat
        if env.allocates expectedStreamSize = false then ⟨none, file, image, none, sizes⟩
        else
          let (result, written) := env.uncompress image.zlibStream expectedStreamSize
          let data := resize image.data expectedStreamSize
          let image := { image with data := written ++ data.drop written.length }
          ⟨some (decide (result = zOk)), file, image, some written.length, sizes⟩

/-! ## The pixels -/

def toInt (n : UInt32) : ℤ := if n.toNat < 2 ^ 31 then n.toNat else (n.toNat : ℤ) - 2 ^ 32

/-- An element by an `int`.  A negative one is converted to a number beyond any vector. -/
def at? (bytes : Bytes) (index : ℤ) : Option UInt8 :=
  if 0 ≤ index then bytes[index.toNat]? else none

def paethPredictor (a b c : UInt8) : UInt8 :=
  let p : ℤ := a.toNat + b.toNat - c.toNat
  let pa : ℤ := |p - a.toNat|
  let pb : ℤ := |p - b.toNat|
  let pc : ℤ := |p - c.toNat|
  if pa ≤ pb ∧ pa ≤ pc then a
  else if pb ≤ pa ∧ pb ≤ pc then b
  else c

/-- The `switch` over the filter type.  A byte keeps the low eight bits of a sum. -/
def unfilter (filterType raw left up upLeft : UInt8) : UInt8 :=
  if filterType = 0 then raw
  else if filterType = 1 then raw + left
  else if filterType = 2 then raw + up
  else if filterType = 3 then raw + UInt8.ofNat ((left.toNat + up.toNat) / 2)
  else if filterType = 4 then raw + paethPredictor left up upLeft
  else raw

def Image.stride (image : Image) : ℤ := toInt (image.width * image.channels)

def Image.pixelBytes (image : Image) : UInt32 := image.width * image.height * image.channels

def Image.pixelSizes (image : Image) : List Size :=
  [⟨image.pixelBytes.toNat,
      image.width.toNat * image.height.toNat * image.channels.toNat⟩,
    ⟨image.stride, image.width.toNat * image.channels.toNat⟩]

structure Reconstruction where
  rawIndex : ℕ
  pixels : Bytes

def left? (image : Image) (pixels : Bytes) (pixelIndex : ℤ) (c : ℕ) : Option UInt8 :=
  if toInt image.channels ≤ c then
    at? pixels (UInt32.ofInt pixelIndex - image.channels).toNat
  else some 0

def up? (image : Image) (pixels : Bytes) (pixelIndex : ℤ) (y : UInt32) : Option UInt8 :=
  if 0 < y then at? pixels (pixelIndex - image.stride) else some 0

def upLeft? (image : Image) (pixels : Bytes) (pixelIndex : ℤ) (y : UInt32) (c : ℕ) :
    Option UInt8 :=
  if 0 < y ∧ toInt image.channels ≤ c then
    at? pixels (UInt32.ofInt (pixelIndex - image.stride) - image.channels).toNat
  else some 0

def reconstructByte (image : Image) (filterType : UInt8) (y : UInt32) (c : ℕ)
    (loop : Reconstruction) : Option Reconstruction := do
  let pixelIndex := toInt (y * UInt32.ofInt image.stride + UInt32.ofNat c)
  let raw ← image.data[loop.rawIndex]?
  let left ← left? image loop.pixels pixelIndex c
  let up ← up? image loop.pixels pixelIndex y
  let upLeft ← upLeft? image loop.pixels pixelIndex y c
  if 0 ≤ pixelIndex ∧ pixelIndex < loop.pixels.length then
    some ⟨loop.rawIndex + 1,
      loop.pixels.set pixelIndex.toNat (unfilter filterType raw left up upLeft)⟩
  else none

def reconstructRow (image : Image) (y : ℕ) (loop : Reconstruction) : Option Reconstruction := do
  let filterType ← image.data[loop.rawIndex]?
  forRange image.stride.toNat (reconstructByte image filterType (UInt32.ofNat y))
    { loop with rawIndex := loop.rawIndex + 1 }

/-- `reconstructImage`: how much of `data` it has read, and the image it leaves. -/
def reconstructImage (image : Image) : Option (ℕ × Image) := do
  let loop ← forRange image.height.toNat (reconstructRow image)
    ⟨0, resize image.pixels image.pixelBytes.toNat⟩
  some (loop.rawIndex, { image with pixels := loop.pixels })

/-! ## The whole -/

inductive Outcome
  | returned (result : Bool)
  | thrown
  | outOfRange
  deriving DecidableEq, Repr

/-- A call of `Load`: the outcome, the image it leaves, how `processChunks` ended if it was
called and the sizes computed. -/
structure Loading where
  outcome : Outcome
  image : Image
  processed : Option Processed
  sizes : List Size

/-- `Load` on the contents of a file, `none` if it cannot be opened. -/
def load (env : Environment) (contents : Option Bytes) (image : Image) : Loading :=
  match contents with
  | none => ⟨.returned false, image, none, []⟩
  | some contents =>
      let (valid, file) := validateSignature (some contents)
      if valid = false then ⟨.returned false, image, none, []⟩
      else
        let processed := processChunks env file image
        let image := processed.image
        if processed.verdict = none then ⟨.thrown, image, some processed, processed.sizes⟩
        else
          let sizes := processed.sizes ++ image.pixelSizes
          match reconstructImage image with
          | none => ⟨.outOfRange, image, some processed, sizes⟩
          | some (_, image) => ⟨.returned true, image, some processed, sizes⟩

end TChat.Parser
