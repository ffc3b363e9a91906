import SuperShuckie.Live.OwnFile

/-!
# Link traffic in a follower's file

A file has what the console was given during a frame before the frame's marker, and after the marker
of the frame before it.  So a run of the file feeds every frame its own inputs and link traffic.
This holds of a file that is written while a link cable goes in and out, as long as frames run from
their beginning to their end (`Whole`) and link traffic comes with linked frames (`InTime`).
-/

set_option autoImplicit false

namespace SuperShuckie
namespace Live

open ByteFormat SuperShuckieCore

variable {C : Type} (E : EmulatorCore C) (x : Externals)

/-- The steps that leave everything in its frame. -/
def SessionEvent.Placed (event : SessionEvent C) (σ : Session C) : Prop :=
  event.BearsOnFile σ → event.Whole E σ ∧ event.InTime E σ

/-- **The file has every frame's traffic in its place**: a marker for each frame the console
completed, and for the one that waits to run, with what the console was given during the frame
before it; and at its end what the frame in progress has been given. -/
def FramesInPlace (σ : Session C) : Prop :=
  ∀ file, σ.core.replayFileRecorder = some file →
    framesEnded file.calls = σ.completed.length + σ.core.replayFramePending.toNat ∧
    callMarks file.calls = σ.expectedMarks

variable {E x}

/-- What the steps keep. -/
structure InPlace (E : EmulatorCore C) (σ : Session C) : Prop where
  shape : σ.Shape
  whole : ∀ file, σ.core.replayFileRecorder = some file → σ.WholeFrames E
  frames : FramesInPlace σ

theorem inPlace_step {event : SessionEvent C} {σ : Session C} (hσ : InPlace E σ)
    (hsinks : event.SinksWork) (hplaced : event.Placed E σ) : InPlace E (σ.step E x event) := by
  have hshape := Session.shape_step (E := E) x hσ.shape hsinks
  rcases Session.file_step (E := E) x event hσ.shape hsinks with hnone | hstarted |
    ⟨hrecording, calls, hadvances⟩
  · refine ⟨hshape, fun file hfile ↦ ?_, fun file hfile ↦ ?_⟩
    · rw [hnone] at hfile
      cases hfile
    · rw [hnone] at hfile
      cases hfile
  · refine ⟨hshape, fun _ _ ↦ hstarted.whole, fun file hfile ↦ ?_⟩
    obtain ⟨recorder, hrecorder, -⟩ := hstarted.file
    obtain rfl : file = ⟨recorder, []⟩ := Option.some.inj (hfile.symm.trans hrecorder)
    have hpending := hstarted.frames fun hbears ↦ (hplaced hbears).1
    have hcurrent := hstarted.current fun hbears ↦ (hplaced hbears).2
    rw [Session.expectedMarks, hstarted.completed, hcurrent, hpending]
    exact ⟨rfl, rfl⟩
  · obtain ⟨hwhole, htime⟩ := hplaced (.inl hrecording)
    obtain ⟨file, hfile⟩ := Option.isSome_iff_exists.mp hrecording
    have hheld := hσ.whole file hfile
    have hold := hσ.frames file hfile
    refine ⟨hshape, fun _ _ ↦ Session.wholeFrames_step x hheld hwhole hσ.shape,
      fun file' hfile' ↦ ?_⟩
    obtain rfl : file' = { file with calls := file.calls ++ calls } := by
      rw [hadvances.file, hfile] at hfile'
      exact (Option.some.inj hfile').symm
    refine ⟨?_, ?_⟩
    · show framesEnded (file.calls ++ calls) = (σ.step E x event).expectedFrames
      rw [framesEnded_append, hold.1]
      exact hadvances.frames hwhole hheld
    · show callMarks (file.calls ++ calls) = _
      rw [callMarks_append, hold.2]
      exact hadvances.marks hwhole htime hheld

/-- **Link traffic in a partner's file belongs to its frame**, after every step of a session that
follows another player with sinks that work, through any number of links, as long as the steps meet
the conditions of `Placed`. -/
theorem link_traffic_in_place {s : SuperShuckieCore C} (hlink : s.linkPartner = none)
    {events : List (SessionEvent C)} (hsinks : ∀ event ∈ events, event.SinksWork)
    (hplaced : Session.Along E x (SessionEvent.Placed E) events (Session.attach s)) :
    FramesInPlace ((Session.attach s).run E x events) := by
  have hstart : InPlace E (Session.attach s) :=
    ⟨Session.shape_attach hlink, fun file hfile ↦ (by cases hfile), fun file hfile ↦ (by cases hfile)⟩
  have hend : InPlace E ((Session.attach s).run E x events) :=
    Session.run_along (fun event hmem _ hσ hevent ↦ inPlace_step hσ (hsinks event hmem) hevent)
      hplaced hstart
  exact hend.frames

/-! ## Two runs -/

/-- The partner's turn, once `frame` has arrived, against a console that holds the input `[9]`. -/
def examplePartnerTurn (frame : Option LinkFrame) : SessionEvent SlicedConsole :=
  .partnerTurn frame false true ⟨[], [9], false, []⟩ ⟨0, 0⟩

/-- The cable goes in, and two frames are run with it. -/
def linkedEvents : List (SessionEvent SlicedConsole) :=
  startedEvents ++
    [.beginLink ⟨1, true, 0, [3]⟩, examplePartnerTurn none, .localTurn .fresh,
      examplePartnerTurn none, examplePartnerTurn (some ⟨[.changeInput [4]], 16, none⟩),
      examplePartnerTurn none]

theorem link_traffic_in_place_linked :
    FramesInPlace ((Session.attach (.new .fresh 0)).run SlicedConsole.core .storing
      (linkedEvents ++ [.endLink, .beginRun, snapshotRead []])) := by
  refine link_traffic_in_place rfl ?_ ?_
  · intro event hevent
    simp only [linkedEvents, startedEvents, snapshotRead, examplePartnerTurn, List.cons_append,
      List.nil_append, List.mem_cons, List.not_mem_nil, or_false] at hevent
    rcases hevent with rfl | rfl | rfl | rfl | rfl | rfl | rfl | rfl | rfl | rfl | rfl | rfl | rfl |
      rfl <;> first | exact trivial | exact ⟨rfl, rfl⟩
  · refine ⟨fun _ ↦ ⟨trivial, trivial⟩, fun _ ↦ ⟨trivial, trivial⟩, fun _ ↦ ⟨trivial, trivial⟩,
      fun _ ↦ ⟨trivial, fun _ ↦ by decide +kernel⟩,
      fun _ ↦ ⟨fun _ ↦ by decide +kernel, fun _ ↦ by decide +kernel⟩,
      fun _ ↦ ⟨fun _ ↦ by decide +kernel, trivial⟩,
      fun _ ↦ ⟨trivial, trivial⟩, fun _ ↦ ⟨trivial, trivial⟩, fun _ ↦ ⟨trivial, trivial⟩,
      fun _ ↦ ⟨trivial, trivial⟩, fun _ ↦ ⟨trivial, trivial⟩,
      fun _ ↦ ⟨show _ = _ by decide +kernel, trivial⟩, fun _ ↦ ⟨trivial, trivial⟩,
      fun _ ↦ ⟨trivial, trivial⟩, trivial⟩

/-- The marks of the file that a session writes. -/
def fileMarks {C : Type} (σ : Session C) : Option (List Mark) :=
  σ.core.replayFileRecorder.map fun file ↦ callMarks file.calls

/-- **A frame that ends after the cable was pulled out has no marker**: its input and its link
traffic are played in the frame after it. -/
theorem link_traffic_out_of_place :
    let σ := (Session.attach (.new .fresh 0)).run SlicedConsole.core .storing
      (startedEvents ++ [.beginLink ⟨1, true, 0, [3]⟩, examplePartnerTurn none, .endLink, .beginRun,
        .emulate ⟨0, 0⟩])
    σ.completed = [[.input [3], .serialIn [9]]] ∧
      fileMarks σ = some [.input [3], .serialIn [9]] ∧ ¬ FramesInPlace σ := by
  intro σ
  have hcompleted : σ.completed = [[.input [3], .serialIn [9]]] := by decide +kernel
  have hmarks : fileMarks σ = some [.input [3], .serialIn [9]] := by decide +kernel
  refine ⟨hcompleted, hmarks, fun h ↦ ?_⟩
  obtain ⟨file, hfile, hcalls⟩ := Option.map_eq_some_iff.mp hmarks
  have hexpected : σ.expectedMarks = [.input [3], .serialIn [9], .frame] := by decide +kernel
  have := (h file hfile).2
  rw [hcalls, hexpected] at this
  cases this

end Live
end SuperShuckie
