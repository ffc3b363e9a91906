import SuperShuckie.Lib.LittleEndian

/-!
# Compression

The zstd library is a parameter: `Zstd` lists the entry points the program calls, and `Lossless`
what it relies on, which is what the library documents.  Around them stand the program's own
checks: a frame must claim exactly the size that the caller expects before anything is decoded.

A frame can also be decoded a few bytes at a time (`BlobDecoder`).  What each step delivers depends
on the frame alone, so a decoder is the list of the outcomes still to come; a step that fails is not
passed, and fails again.

`rawZstd` is an instance that stores small inputs the way the library stores what it cannot
compress, as one raw block; it shows that the assumptions can be met.
-/

set_option autoImplicit false

namespace SuperShuckie

open ByteFormat

/-- What one step of a streaming decode gives: the bytes it produced and whether the frame is
complete, or an error. -/
abbrev DecodeStep := Except String (Bytes × Bool)

/-- The entry points of the zstd library. -/
structure Zstd where
  /-- `ZSTD_compress2` with a compression level, a window size (`none` for the library's own
  choice) and a reference prefix. -/
  compress2 : Int → Option Nat → Bytes → Bytes → Except String Bytes
  /-- `ZSTD_getFrameContentSize`. -/
  frameContentSize : Bytes → Nat
  /-- `ZSTD_decompressDCtx` of a frame into a buffer of the given size, with a reference prefix. -/
  decompressDCtx : Bytes → Nat → Bytes → Except String Bytes
  /-- The outcomes of `ZSTD_decompressStream` on a frame fed in pieces, with a buffer of the given
  size. -/
  decompressStream : Nat → Bytes → List DecodeStep
  /-- `ZSTD_minCLevel` and `ZSTD_maxCLevel`. -/
  minCLevel : Int
  maxCLevel : Int

/-- The steps decode to exactly `content`: every step succeeds, and the last one, and no other,
completes the frame. -/
inductive StepsDecode : List DecodeStep → Bytes → Prop
  | last (chunk : Bytes) : StepsDecode [.ok (chunk, true)] chunk
  | more {steps : List DecodeStep} {content : Bytes} (chunk : Bytes) :
      StepsDecode steps content → StepsDecode (.ok (chunk, false) :: steps) (chunk ++ content)

/-- Bytes that the steps deliver until one completes the frame or fails. -/
def delivered : List DecodeStep → Bytes
  | .ok (chunk, true) :: _ => chunk
  | .ok (chunk, false) :: steps => chunk ++ delivered steps
  | _ => []

@[simp] theorem delivered_nil : delivered [] = [] := rfl

@[simp] theorem delivered_error (e : String) (steps : List DecodeStep) :
    delivered (.error e :: steps) = [] := rfl

@[simp] theorem delivered_last (chunk : Bytes) (steps : List DecodeStep) :
    delivered (.ok (chunk, true) :: steps) = chunk := rfl

@[simp] theorem delivered_more (chunk : Bytes) (steps : List DecodeStep) :
    delivered (.ok (chunk, false) :: steps) = chunk ++ delivered steps := rfl

/-- The steps of a frame deliver `size` bytes at most, and complete the frame only when they have
delivered all of them. -/
def FrameSteps : Nat → List DecodeStep → Prop
  | size, .ok (chunk, true) :: _ => chunk.length = size
  | size, .ok (chunk, false) :: steps =>
    chunk.length ≤ size ∧ FrameSteps (size - chunk.length) steps
  | _, _ => True

variable {steps : List DecodeStep}

theorem StepsDecode.delivered_eq {content : Bytes} (h : StepsDecode steps content) :
    delivered steps = content := by
  induction h with
  | last chunk => rfl
  | more chunk _ ih => rw [delivered, ih]

theorem FrameSteps.length_delivered_le {size : Nat} (h : FrameSteps size steps) :
    (delivered steps).length ≤ size := by
  induction steps generalizing size with
  | nil => exact Nat.zero_le _
  | cons step steps ih =>
    match step with
    | .error e => exact Nat.zero_le _
    | .ok (chunk, true) => exact (show chunk.length = size from h).le
    | .ok (chunk, false) =>
      obtain ⟨hle, hrest⟩ : chunk.length ≤ size ∧ FrameSteps (size - chunk.length) steps := h
      have := ih hrest
      rw [delivered_more, List.length_append]
      omega

theorem StepsDecode.frameSteps {content : Bytes} (h : StepsDecode steps content) :
    FrameSteps content.length steps := by
  induction h with
  | last chunk => rfl
  | more chunk _ ih =>
    rw [FrameSteps, List.length_append, Nat.add_sub_cancel_left]
    exact ⟨Nat.le_add_right _ _, ih⟩

/-- The largest size of a buffer (`isize::MAX`). -/
def isizeMax : Nat := 2 ^ 63 - 1

/-- What the program relies on: a frame records the size of its contents and decodes to them, in one
go and in pieces, given the prefix it was made with. -/
structure Zstd.Lossless (z : Zstd) : Prop where
  contentSize : ∀ {level window pfx data frame}, z.compress2 level window pfx data = .ok frame →
    z.frameContentSize frame = data.length
  decompress : ∀ {level window pfx data frame}, z.compress2 level window pfx data = .ok frame →
    z.decompressDCtx pfx data.length frame = .ok data
  stream : ∀ {level window data frame}, z.compress2 level window [] data = .ok frame →
    StepsDecode (z.decompressStream data.length frame) data
  length_le : ∀ {level window pfx data frame}, z.compress2 level window pfx data = .ok frame →
    frame.length ≤ isizeMax

/-- The library checks the size that a frame records: whatever the bytes are, decoding them in
pieces never delivers more, and is complete only when it delivered all of it. -/
def Zstd.ChecksSize (z : Zstd) : Prop :=
  ∀ frame size, z.frameContentSize frame = size → FrameSteps size (z.decompressStream size frame)

namespace Zstd

/-! ## Compressing -/

def largeWindowThreshold : Nat := 8 * 1024 * 1024
def maxWindowLog : Nat := 27
def maxStatePrefixWindowLog : Nat := 30

/-- `usize::BITS - (n - 1).leading_zeros()`: the number of bits of `n - 1`. -/
def bitsBelow (n : Nat) : Nat := if n - 1 = 0 then 0 else (n - 1).log2 + 1

/-- `i32::clamp` of a compression level. -/
def clampLevel (z : Zstd) (level : Int) : Int := max z.minCLevel (min level z.maxCLevel)

/-- Compress `data` as a single frame; a large input gets a window that covers it. -/
def compressData (z : Zstd) (data : Bytes) (level : Int) : Except String Bytes :=
  z.compress2 (z.clampLevel level)
    (if largeWindowThreshold < data.length then some (min (bitsBelow data.length) maxWindowLog)
      else none) [] data

/-- Compress `data` with matches that may reach into `pfx`, over the largest default window. -/
def compressDataWithPrefix (z : Zstd) (data : Bytes) (level : Int) (pfx : Bytes) :
    Except String Bytes :=
  z.compress2 (z.clampLevel level) (some maxWindowLog) pfx data

/-- The same for small inputs, with the library's own parameters. -/
def compressSmallDataWithPrefix (z : Zstd) (data : Bytes) (level : Int) (pfx : Bytes) :
    Except String Bytes :=
  z.compress2 (z.clampLevel level) none pfx data

/-- The same with a window that reaches back over the whole of `pfx`. -/
def compressDataWithStatePrefix (z : Zstd) (data : Bytes) (level : Int) (pfx : Bytes) :
    Except String Bytes :=
  let span := max (pfx.length + data.length) 1
  let windowLog := max maxWindowLog (min (bitsBelow span) maxStatePrefixWindowLog)
  z.compress2 (z.clampLevel level) (some windowLog) pfx data

/-! ## Decompressing -/

/-- `ZSTD_CONTENTSIZE_UNKNOWN` and `ZSTD_CONTENTSIZE_ERROR`. -/
def contentSizeUnknown : Nat := 2 ^ 64 - 1
def contentSizeError : Nat := 2 ^ 64 - 2

/-- The frame's own claim about its size is checked before any memory is reserved. -/
def checkContentSize (z : Zstd) (data : Bytes) (uncompressedSize : Nat) : Except String Unit :=
  let claimed := z.frameContentSize data
  if claimed = contentSizeUnknown then .error "zstd frame does not record its content size"
  else if claimed = contentSizeError then .error "zstd frame header is malformed"
  else if claimed ≠ uncompressedSize then
    .error s!"zstd frame claims {claimed} bytes but {uncompressedSize} were expected"
  else .ok ()

/-- Decompress a frame, made with the same prefix, into exactly `uncompressedSize` bytes. -/
def decompressDataWithPrefix (z : Zstd) (data : Bytes) (uncompressedSize : Nat) (pfx : Bytes) :
    Except String Bytes := do
  z.checkContentSize data uncompressedSize
  let out ← z.decompressDCtx pfx uncompressedSize data
  if out.length ≠ uncompressedSize then
    throw s!"Uncompressed size is incorrect (expected {uncompressedSize} but was {out.length})"
  pure out

/-- Decompress a frame into exactly `uncompressedSize` bytes. -/
def decompressData (z : Zstd) (data : Bytes) (uncompressedSize : Nat) : Except String Bytes :=
  z.decompressDataWithPrefix data uncompressedSize []

/-- A streaming decoder: the outcomes of its steps, from the next one on. -/
abbrev BlobDecoder := List DecodeStep

/-- Prepare to decode a frame that must decompress to exactly `uncompressedSize` bytes. -/
def blobDecoder (z : Zstd) (data : Bytes) (uncompressedSize : Nat) : Except String BlobDecoder := do
  z.checkContentSize data uncompressedSize
  pure (z.decompressStream uncompressedSize data)

/-! ## What was compressed comes back -/

variable {z : Zstd} (hz : z.Lossless)
include hz

theorem Lossless.checkContentSize {level : Int} {window : Option Nat} {pfx data frame : Bytes}
    (h : z.compress2 level window pfx data = .ok frame) (hlen : data.length ≤ isizeMax) :
    z.checkContentSize frame data.length = .ok () := by
  have hmax : isizeMax < contentSizeError := by decide
  have hmax' : isizeMax < contentSizeUnknown := by decide
  rw [Zstd.checkContentSize, hz.contentSize h, if_neg (by omega), if_neg (by omega),
    if_neg (by simp)]

theorem Lossless.decompressDataWithPrefix {level : Int} {window : Option Nat}
    {pfx data frame : Bytes} (h : z.compress2 level window pfx data = .ok frame)
    (hlen : data.length ≤ isizeMax) :
    z.decompressDataWithPrefix frame data.length pfx = .ok data := by
  simp only [Zstd.decompressDataWithPrefix, hz.checkContentSize h hlen, hz.decompress h]
  simp [bind, Except.bind, pure, Except.pure]

theorem Lossless.blobDecoder {level : Int} {data frame : Bytes}
    (h : z.compressData data level = .ok frame) (hlen : data.length ≤ isizeMax) :
    ∃ steps, z.blobDecoder frame data.length = .ok steps ∧ StepsDecode steps data :=
  ⟨_, by simp only [Zstd.blobDecoder, hz.checkContentSize h hlen]; rfl, hz.stream h⟩

end Zstd

/-! ## An instance -/

/-- The magic number of a frame and a header for one segment with a one-byte content size. -/
def rawFrameHead (n : Nat) : Bytes := [0x28, 0xB5, 0x2F, 0xFD, 0x20, UInt8.ofNat n]

/-- The contents of a frame that is one raw block. -/
def rawFrameContent : Bytes → Option Bytes
  | 0x28 :: 0xB5 :: 0x2F :: 0xFD :: 0x20 :: n :: b0 :: b1 :: b2 :: content =>
    if content.length = n.toNat ∧ [b0, b1, b2] = leBytes 3 (n.toNat * 8 + 1) then some content
    else none
  | _ => none

/-- A library that stores inputs of fewer than 256 bytes as one raw block, and runs out of memory
on larger ones. -/
def rawZstd : Zstd where
  compress2 _ _ _ data :=
    if data.length < 256 then
      .ok (rawFrameHead data.length ++ (leBytes 3 (data.length * 8 + 1) ++ data))
    else .error "zstd error: 18446744073709551552 - Allocation error : not enough memory"
  frameContentSize frame := ((rawFrameContent frame).map List.length).getD Zstd.contentSizeError
  decompressDCtx _ size frame :=
    match rawFrameContent frame with
    | some content =>
      if content.length ≤ size then .ok content
      else .error "zstd error: 18446744073709551546 - Destination buffer is too small"
    | none => .error "zstd error: 18446744073709551596 - Data corruption detected"
  decompressStream _ frame :=
    match rawFrameContent frame with
    | some content => [.ok (content, true)]
    | none => [.error "zstd error: 18446744073709551596 - Data corruption detected"]
  minCLevel := -131072
  maxCLevel := 22

theorem rawFrameContent_rawZstd {level : Int} {window : Option Nat} {pfx data frame : Bytes}
    (h : rawZstd.compress2 level window pfx data = .ok frame) :
    rawFrameContent frame = some data ∧ frame.length = data.length + 9 ∧ data.length < 256 := by
  simp only [rawZstd] at h
  split at h
  · rename_i hlen
    cases h
    have hn : (UInt8.ofNat data.length).toNat = data.length := by
      rw [UInt8.toNat_ofNat']
      omega
    refine ⟨?_, by simp [rawFrameHead]; omega, hlen⟩
    simp [rawFrameHead, leBytes, rawFrameContent, hn]
  · cases h

theorem rawZstd_lossless : rawZstd.Lossless where
  contentSize h := by
    simp [rawZstd, (rawFrameContent_rawZstd h).1]
  decompress h := by
    simp [rawZstd, (rawFrameContent_rawZstd h).1]
  stream h := by
    simp only [rawZstd, (rawFrameContent_rawZstd h).1]
    exact .last _
  length_le h := by
    obtain ⟨-, hlen, hdata⟩ := rawFrameContent_rawZstd h
    have hmax : 300 ≤ isizeMax := by decide
    omega

theorem rawZstd_checksSize : rawZstd.ChecksSize := by
  intro frame size hsize
  simp only [rawZstd] at hsize ⊢
  cases hcontent : rawFrameContent frame with
  | none => trivial
  | some content =>
    rw [hcontent] at hsize
    exact hsize

end SuperShuckie
