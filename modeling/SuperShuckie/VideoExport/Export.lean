import SuperShuckie.VideoExport.Seeking

/-!
# Exporting a video

An export sends the pictures of a range of frames to a sink, one after the other.  The sink may fail
at any call (`failing`), and the user may cancel before any frame (`cancel`).
-/

set_option autoImplicit false

namespace SuperShuckie

namespace VideoExport

/-- A call of a sink. -/
inductive SinkCall
  | begin (width height fpsNum fpsDen : UInt32)
  | pushFrame (argb : List UInt32)
  | finish
  | abort
deriving DecidableEq

/-- Why an export ends early. -/
inductive VideoExportError
  | noReplayAttached
  | sink (explanation : String)
  | cancelled
deriving DecidableEq

/-- The frames to export, up to the end of the replay if no end is given. -/
structure ExportRange where
  startFrame : Nat
  endFrame : Option Nat

/-- An export under way: the core, and the calls of the sink so far. -/
structure Exporting (C : Type) where
  core : ReplayCore C
  calls : List SinkCall

/-- How an export ends. -/
abbrev Exported (C : Type) := Except VideoExportError Unit × Exporting C

namespace Exporting

variable {C : Type} (E : PicturedCore C) (r : Footage) (layout : ScreenLayout)
  (failing : Nat → Option VideoExportError) (cancel : Nat → Bool)

/-- Call the sink, and go on if it does not fail. -/
def call (sinkCall : SinkCall) (σ : Exporting C)
    (next : Exporting C → Option (Exported C)) : Option (Exported C) :=
  let σ' := { σ with calls := σ.calls ++ [sinkCall] }
  match failing σ.calls.length with
  | some e => some (.error e, { σ' with calls := σ'.calls ++ [.abort] })
  | none => next σ'

/-- End early. -/
def fail (e : VideoExportError) (σ : Exporting C) : Option (Exported C) :=
  some (.error e, { σ with calls := σ.calls ++ [.abort] })

/-- The loop over the frames of the range, `left` of which are still to come. -/
def pictures (fuel : Nat) : Nat → Nat → Exporting C → Option (Exported C)
  | 0, _, σ => σ.call failing .finish fun σ ↦ some (.ok (), σ)
  | left + 1, i, σ =>
    if cancel i then σ.fail .cancelled
    else do
      -- The picture for index `i` is the one after `max(i, 1)` emulated frames.
      let target := max i 1
      let core ← σ.core.runFrames E r (fun _ ↦ true) target fuel
      let σ := { σ with core }
      if core.replayStalled ∧ core.totalFrames < target then
        σ.fail (.sink s!"replay ended at frame {core.totalFrames} before the requested end")
      else
        σ.call failing (.pushFrame (compositeScreens (E.screens core.core) layout))
          (pictures fuel left (i + 1))

/-- Seek to the first frame and begin. -/
def start (fuel frame : Nat) (σ : Exporting C) (next : Exporting C → Option (Exported C)) :
    Option (Exported C) := do
  let (fpsNum, fpsDen) := E.frameRate σ.core.core
  let (result, core) ← σ.core.goToReplayFrame E r fuel frame
  let σ := { σ with core }
  match result with
  | .error e => σ.fail (.sink e)
  | .ok _ =>
    match outputGeometry (E.screens core.core) layout with
    | none => σ.fail (.sink "core has no screens")
    | some (width, height) => σ.call failing (.begin width height fpsNum fpsDen) next

end Exporting

/-- Export a range of the attached replay. -/
def exportFrames {C : Type} (E : PicturedCore C) (replay : Option Footage) (fuel : Nat)
    (range : ExportRange) (layout : ScreenLayout) (failing : Nat → Option VideoExportError)
    (cancel : Nat → Bool) (s : ReplayCore C) : Option (Exported C) :=
  match replay with
  | none => some (.error .noReplayAttached, ⟨s, []⟩)
  | some r =>
    -- The export steps through the replay itself; a stopped one would not be read.
    let s := { s with replayPlaybackStopped := false }
    let start := min range.startFrame r.totalFrames
    let stop := min (range.endFrame.getD r.totalFrames) r.totalFrames
    Exporting.start E r layout failing fuel start ⟨s, []⟩
      (Exporting.pictures E r layout failing cancel fuel (stop - start) start)

end VideoExport

end SuperShuckie
