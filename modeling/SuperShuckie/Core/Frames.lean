import SuperShuckie.Core.State

/-!
# What happens after a run

When a frame has completed, the link traffic of the frame and the frame marker are recorded, then a
keyframe when one is due, then a timeline picture.
-/

set_option autoImplicit false

namespace SuperShuckie

open ByteFormat

namespace SuperShuckieCore

variable {C : Type} (E : EmulatorCore C)

/-- What the console received over the link cable during the frame it just completed. -/
def takeSerialInBytes (s : SuperShuckieCore C) : Bytes × SuperShuckieCore C :=
  match E.linkPort with
  | none => ([], s)
  | some port =>
    let (bytes, core) := port.takeSerialIn s.core
    (bytes, { s with core })

/-- Record what came in over the link cable, if anything did. -/
def recordSerialIn (s : SuperShuckieCore C) : SuperShuckieCore C :=
  let (bytes, s) := s.takeSerialInBytes E
  if bytes.isEmpty then s else s.record [.serialIn bytes]

/-- Mark the link frame the console just completed. -/
def linkFrameCompleted (frames : UInt64) (s : SuperShuckieCore C) : SuperShuckieCore C :=
  { s with
    linkPartner := s.linkPartner.map fun partner ↦
      { partner with frame := partner.frame + frames, framePrepared := false } }

/-- Record the markers of completed frames.  A replay that is played back brings its own; the lent
partner of a link gets its markers here, after the frame's link traffic. -/
def recordFrames (frames : UInt64) (now : TimestampMillis) (s : SuperShuckieCore C) :
    SuperShuckieCore C :=
  if s.isPlayingBack then
    if s.linkPartner.isSome then
      s.record (.replicate frames.toNat (.nextFrame s.recordingMillis))
    else s
  else
    let ms := s.currentTimerMillis now
    { s with totalMilliseconds := ms }.record (.replicate frames.toNat (.nextFrame ms))

def doFrameTimekeeping (time : RunTime) (now : TimestampMillis) (s : SuperShuckieCore C) :
    SuperShuckieCore C :=
  let s := { s with
    framesSinceLastKeyframe := s.framesSinceLastKeyframe + time.frames
    totalFrames := s.totalFrames + time.frames }
  if 0 < time.frames then
    (({ s with replayFramePending := false }.recordSerialIn E).recordFrames time.frames
      now).linkFrameCompleted time.frames
  else s

/-- Record what the console read from its ROM since the last keyframe. -/
def recordRomReads (s : SuperShuckieCore C) : SuperShuckieCore C :=
  let (reads, core) := E.takeRomReads s.core
  let s := { s with core }
  if reads.isEmpty then s else s.record [.romReads reads]

/-- Record what touched each page of the transient memory first since the last keyframe. -/
def recordPageAccess (s : SuperShuckieCore C) : SuperShuckieCore C :=
  let (access, core) := E.takeTransientPageAccess s.core
  let s := { s with core }
  match access with
  | some access => s.record [.transientPageAccess access]
  | none => s

/-- Write a keyframe of the current state into the recording, and restart the keyframe interval. -/
def writeKeyframe (full : Bool) (s : SuperShuckieCore C) : SuperShuckieCore C :=
  let ms := s.recordingMillis
  let state := E.createSaveState s.core
  let s := (s.recordRomReads E).recordPageAccess E
  if s.replayFileRecorder.isSome then
    { s with framesSinceLastKeyframe := 0 }.record
      [.insertKeyframe state ms (if full then .full else .auto)]
  else { s with fullKeyframePending := s.fullKeyframePending || full }

/-- Keyframes a Nintendo 3DS recording lets its thread fall behind by. -/
def max3DSKeyframesInFlight : Nat := 2

def recorderBacklogged (env : Surroundings) (s : SuperShuckieCore C) : Bool :=
  decide (E.console = some .nintendo3DS) && s.replayFileRecorder.isSome &&
    decide (max3DSKeyframesInFlight ≤ env.keyframesInFlight)

def pushKeyframeIfNeeded (time : RunTime) (env : Surroundings) (s : SuperShuckieCore C) :
    SuperShuckieCore C :=
  if time.frames = 0 ∨ E.isMidFrame s.core ∨ s.replayFileRecorder.isNone then s
  else
    let due := s.fullKeyframePending || decide (s.framesPerKeyframe ≤ s.framesSinceLastKeyframe)
    if due ∧ (E.saveStatePossible s.core = false ∨ s.recorderBacklogged E env) then s
    else
      let full := s.fullKeyframePending
      let s := { s with fullKeyframePending := false }
      if due then s.writeKeyframe E full else s

/-- Frames between the timeline pictures of a Nintendo 3DS recording. -/
def thumbnailIntervalFrames : UInt64 := 60

def pushThumbnailIfNeeded (time : RunTime) (s : SuperShuckieCore C) : SuperShuckieCore C :=
  if time.frames = 0 ∨ time.presented = false ∨ E.isMidFrame s.core ∨ s.replayFileRecorder.isNone ∨
      E.console ≠ some .nintendo3DS ∨ s.totalFrames % thumbnailIntervalFrames ≠ 0 then s
  else
    match E.thumbnails s.core with
    | some (top, bottom) => s.record [.thumbnail top bottom]
    | none => s

def afterRun (time : RunTime) (env : Surroundings) (s : SuperShuckieCore C) : SuperShuckieCore C :=
  ((s.doFrameTimekeeping E time env.now).pushKeyframeIfNeeded E time env).pushThumbnailIfNeeded E time

end SuperShuckieCore

end SuperShuckie
