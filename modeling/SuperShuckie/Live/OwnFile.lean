import SuperShuckie.Recording.Agreement
import SuperShuckie.Live.SessionShape

/-!
# A follower's own file

The file that a follower writes mirrors what it follows: the calls of its recorder succeed, it has a
frame marker for each frame that the console ran, and its counters are the publisher's, less what
they were when the file was started.  This holds after every step of a session whose steps meet the
conditions of `Mirrored`.
-/

set_option autoImplicit false

namespace SuperShuckie
namespace Live

open ByteFormat SuperShuckieCore

variable {C : Type} (E : EmulatorCore C) (x : Externals)

/-- The steps that a file follows. -/
def SessionEvent.Mirrored (event : SessionEvent C) (σ : Session C) : Prop :=
  event.BearsOnFile σ → event.Fits σ ∧ event.Covered E σ ∧ event.Whole E σ

/-! ## What the file holds -/

/-- **The file is a valid mirror**: whatever its recorder was told went well unless a buffer could
not grow, it has a marker for each frame the console ran and for the one that waits to run, and its
counters are the publisher's less their values at its start. -/
def ValidMirror (σ : Session C) : Prop :=
  ∀ file results recorder, σ.core.replayFileRecorder = some file →
    Recorder.run x file.calls file.recorder = some (results, recorder) →
    (∀ result ∈ results, result = .ok () ∨ ∃ e, result = .error e ∧ e.OutOfMemory) ∧
    framesEnded file.calls = σ.completed.length + σ.core.replayFramePending.toNat ∧
    ∀ name, counterValue recorder.counters name = σ.publisherValue name - counterValue σ.start name

/-- The keyframes that a step from `σ` to `σ'` has added to the file have the counters of the
publisher at that point, less their values at its start. -/
def KeyframesMirror (σ σ' : Session C) : Prop :=
  ∀ file file' before keyframe after results recorder,
    σ.core.replayFileRecorder = some file → σ'.core.replayFileRecorder = some file' →
    file'.calls = file.calls ++ before ++ keyframe :: after → keyframe.isKeyframe = true →
    Recorder.run x (file.calls ++ before) file'.recorder = some (results, recorder) →
    ∀ name, counterValue recorder.counters name =
      σ'.publisherValue name - counterValue σ'.start name

/-! ## Times -/

/-- The time after calls, when it was `t` before. -/
def timeAfterAll (t : TimestampMillis) (calls : List Call) : TimestampMillis :=
  calls.foldl (fun t call ↦ call.timeAfter t) t

/-- Calls for one time go forward from any time before it. -/
theorem forward_of_times {t now : TimestampMillis} {more : List Call} (hnow : t ≤ now)
    (hmore : ∀ call ∈ more, call.time? = none ∨ call.time? = some now) :
    Forward t more ∧ timeAfterAll t more ≤ now := by
  induction more generalizing t with
  | nil => exact ⟨trivial, hnow⟩
  | cons call more ih =>
    have htime : t ≤ call.timeAfter t ∧ call.timeAfter t ≤ now := by
      rw [Call.timeAfter]
      rcases hmore call (.head _) with hnone | hsome
      · rw [hnone]
        exact ⟨UInt64.le_refl _, hnow⟩
      · rw [hsome]
        exact ⟨hnow, UInt64.le_refl _⟩
    obtain ⟨hforward, hlast⟩ := ih htime.2 fun c hmem ↦ hmore c (List.mem_cons_of_mem _ hmem)
    exact ⟨⟨htime.1, hforward⟩, hlast⟩

variable {calls : List Call} {σ : Session C} {event : SessionEvent C}

/-- Calls for a time that is not before the last one keep the file going forward. -/
theorem forward_append {t now : TimestampMillis} {more : List Call} (h : Forward t calls)
    (hnow : timeAfterAll t calls ≤ now)
    (hmore : ∀ call ∈ more, call.time? = none ∨ call.time? = some now) :
    Forward t (calls ++ more) ∧ timeAfterAll t (calls ++ more) ≤ now := by
  induction calls generalizing t with
  | nil => exact forward_of_times hnow hmore
  | cons call calls ih =>
    obtain ⟨hforward, hlast⟩ := ih h.2 hnow
    exact ⟨⟨h.1, hforward⟩, hlast⟩

theorem forward_of_append {t : TimestampMillis} {more : List Call} (h : Forward t (calls ++ more)) :
    Forward t calls := by
  induction calls generalizing t with
  | nil => trivial
  | cons call calls ih => exact ⟨h.1, ih h.2⟩

/-! ## The invariant -/

/-- What is kept of the file. -/
structure FileOk (σ : Session C) (file : FileRecorder) : Prop where
  whole : σ.WholeFrames E
  able : Recorder.Able 0 OrdMap.empty file.recorder
  forward : Forward 0 file.calls
  last : timeAfterAll 0 file.calls ≤ σ.core.recordingMillis
  fits : σ.core.recordingMillis.toNat < 2 ^ 63
  frames : framesEnded file.calls = σ.expectedFrames
  counters : ∀ name, σ.publisherValue name = counterValue σ.start name + added name file.calls

variable {E x}

theorem fileOk_started {σ' : Session C} (hx : x.Total) (h : σ.Started E x event σ')
    (hwhole : event.BearsOnFile σ → event.Whole E σ) {file : FileRecorder}
    (hfile : σ'.core.replayFileRecorder = some file) : FileOk E σ' file := by
  obtain ⟨recorder, hrecorder, hable⟩ := h.file
  obtain rfl : file = ⟨recorder, []⟩ := Option.some.inj (hfile.symm.trans hrecorder)
  refine ⟨h.whole, hable hx, trivial, ?_, ?_, ?_, fun name ↦ ?_⟩
  · rw [h.clock]
    exact UInt64.le_refl _
  · rw [h.clock]
    decide
  · rw [Session.expectedFrames, h.completed, h.frames hwhole]
    rfl
  · rw [Session.publisherValue, h.start]
    exact (Int64.add_zero _).symm

theorem fileOk_advances {σ' : Session C} {file : FileRecorder}
    (hfile : σ.core.replayFileRecorder = some file) (hok : FileOk E σ file)
    (h : σ.Advances E event σ' calls) (hwhole' : σ'.WholeFrames E) (hfits : event.Fits σ)
    (hcovered : event.Covered E σ) (hwhole : event.Whole E σ) :
    σ'.core.replayFileRecorder = some { file with calls := file.calls ++ calls } ∧
      FileOk E σ' { file with calls := file.calls ++ calls } := by
  obtain ⟨hlater, hclock⟩ := h.clock hfits hok.fits
  obtain ⟨hforward, hlast⟩ := forward_append hok.forward (UInt64.le_trans hok.last hlater) h.times
  refine ⟨by rw [h.file, hfile]; rfl, hwhole', hok.able, hforward, hlast, hclock, ?_, fun name ↦ ?_⟩
  · show framesEnded (file.calls ++ calls) = _
    rw [framesEnded_append, hok.frames, h.frames hwhole hok.whole]
  · show _ = _ + added name (file.calls ++ calls)
    rw [h.counters hcovered name, hok.counters name, h.start, added_append, Int64.add_assoc]

/-! ## Every step -/

/-- What is kept by the steps of a session that meet the conditions. -/
structure SessionOk (σ : Session C) : Prop where
  shape : σ.Shape
  file : ∀ file, σ.core.replayFileRecorder = some file → FileOk E σ file

theorem sessionOk_step (hx : x.Total) (hσ : SessionOk (E := E) σ) (hsinks : event.SinksWork)
    (hmirrored : event.Mirrored E σ) :
    SessionOk (E := E) (σ.step E x event) := by
  refine ⟨Session.shape_step x hσ.shape hsinks, fun file hfile ↦ ?_⟩
  rcases Session.file_step (E := E) x event hσ.shape hsinks with hnone | hstarted |
    ⟨hrecording, calls, hadvances⟩
  · rw [hnone] at hfile
    cases hfile
  · exact fileOk_started hx hstarted (fun hbears ↦ (hmirrored hbears).2.2) hfile
  · obtain ⟨file₀, hfile₀⟩ := Option.isSome_iff_exists.mp hrecording
    obtain ⟨hfits, hcovered, hwhole⟩ := hmirrored (.inl hrecording)
    have hok := hσ.file file₀ hfile₀
    obtain ⟨hfile', hok'⟩ := fileOk_advances hfile₀ hok hadvances
      (Session.wholeFrames_step x hok.whole hwhole hσ.shape) hfits hcovered hwhole
    cases hfile.symm.trans hfile'
    exact hok'

theorem sessionOk_attach {s : SuperShuckieCore C} (hlink : s.linkPartner = none) :
    SessionOk (E := E) (Session.attach s) :=
  ⟨Session.shape_attach hlink, fun file hfile ↦ (by cases hfile)⟩

theorem sessionOk_run (hx : x.Total) {events : List (SessionEvent C)} (hσ : SessionOk (E := E) σ)
    (hsinks : ∀ event ∈ events, event.SinksWork)
    (hmirrored : Session.Along E x (SessionEvent.Mirrored E) events σ) :
    SessionOk (E := E) (σ.run E x events) :=
  Session.run_along (fun event hmem _ hσ hmirrored ↦
    sessionOk_step hx hσ (hsinks event hmem) hmirrored) hmirrored hσ

/-! ## A valid mirror -/

theorem FileOk.counters_run {file : FileRecorder}
    {results : List (Except ReplayFileWriteError Unit)} {recorder : Recorder} (hx : x.Total)
    (hok : FileOk E σ file) (hforward : Forward 0 calls)
    (hrun : Recorder.run x calls file.recorder = some (results, recorder)) (name : String) :
    counterValue recorder.counters name = added name calls := by
  obtain ⟨-, hcounters⟩ := Recorder.run_reliable hx hforward hok.able hrun
  rw [hcounters, counterValue_foldl]
  exact Int64.zero_add _

theorem FileOk.validMirror (hx : x.Total)
    (hok : ∀ file, σ.core.replayFileRecorder = some file → FileOk E σ file) : ValidMirror x σ := by
  intro file results recorder hfile hrun
  have h := hok file hfile
  refine ⟨(Recorder.run_reliable hx h.forward h.able hrun).1, h.frames, fun name ↦ ?_⟩
  rw [h.counters_run hx h.forward hrun, h.counters name]
  grind

theorem keyframesMirror_step (hx : x.Total) (hσ : SessionOk (E := E) σ) (hsinks : event.SinksWork)
    (hmirrored : event.Mirrored E σ) :
    KeyframesMirror x σ (σ.step E x event) := by
  intro file file' before keyframe after results recorder hfile hfile' hsplit hkeyframe hrun name
  have hok' := (sessionOk_step hx hσ hsinks hmirrored).file file' hfile'
  rcases Session.file_step (E := E) x event hσ.shape hsinks with hnone | hstarted |
    ⟨hrecording, calls, hadvances⟩
  · rw [hnone] at hfile'
    cases hfile'
  · -- a file that has just been started holds no calls
    obtain ⟨fresh, hfresh, -⟩ := hstarted.file
    cases hfile'.symm.trans hfresh
    simp at hsplit
  · have hcalls : file' = { file with calls := file.calls ++ calls } := by
      have := hadvances.file
      rw [hfile', hfile] at this
      exact Option.some.inj this
    subst hcalls
    have hadded : calls = before ++ keyframe :: after := by
      have : file.calls ++ calls = file.calls ++ (before ++ keyframe :: after) := by
        rw [← List.append_assoc]
        exact hsplit
      exact List.append_cancel_left this
    have hforward : Forward 0 (file.calls ++ before) := by
      have := hok'.forward
      rw [show ({ file with calls := file.calls ++ calls } : FileRecorder).calls =
        (file.calls ++ before) ++ keyframe :: after from hsplit] at this
      exact forward_of_append this
    have hlast := hadvances.keyframes name before keyframe after hadded hkeyframe
    have hsame : keyframe.adds name = 0 := by
      cases keyframe <;> first | rfl | cases hkeyframe
    have htotal : added name (file.calls ++ calls) = added name (file.calls ++ before) := by
      rw [hadded, added_append, added_append, added_append, added_cons, hsame, hlast]
      grind
    have hcounters := hok'.counters name
    rw [show ({ file with calls := file.calls ++ calls } : FileRecorder).calls =
      file.calls ++ calls from rfl, htotal] at hcounters
    rw [hok'.counters_run hx hforward hrun, hcounters]
    grind

/-- **A follower's own file is a valid mirror**, after every step of a session that follows another
player with sinks that work, as long as the steps meet the conditions of `Mirrored`; and so are the
keyframes that any of its steps adds. -/
theorem follower_file_mirrors (hx : x.Total) {s : SuperShuckieCore C} (hlink : s.linkPartner = none)
    {events : List (SessionEvent C)} (hsinks : ∀ event ∈ events, event.SinksWork)
    (hmirrored : Session.Along E x (SessionEvent.Mirrored E) events (Session.attach s)) :
    ValidMirror x ((Session.attach s).run E x events) ∧
      ∀ before event after, events = before ++ event :: after →
        KeyframesMirror x ((Session.attach s).run E x before)
          ((Session.attach s).run E x (before ++ [event])) := by
  refine ⟨FileOk.validMirror hx
    (sessionOk_run hx (sessionOk_attach hlink) hsinks hmirrored).file, ?_⟩
  rintro before event after rfl
  obtain ⟨hbefore, hafter⟩ := Session.along_append hmirrored
  have hok := sessionOk_run hx (sessionOk_attach hlink)
    (fun e hmem ↦ hsinks e (List.mem_append_left _ hmem)) hbefore
  rw [Session.run_append]
  exact keyframesMirror_step hx hok (hsinks event (List.mem_append_right _ (.head _))) hafter.1

/-! ## Two runs -/

/-- A snapshot as an item of the live replay. -/
def snapshotRead (counters : List Counter) : SessionEvent SlicedConsole :=
  .read (.item (.packet (.keyframe ⟨[], Speed.default, 0, 0, counters⟩ [7])))

/-- A file asked for. -/
def exampleRecording : PendingFollowerRecording :=
  { metadata := .unnamed .gameBoy
    patchData := []
    settings := Recorder.exampleSettings
    finalFile := Sink.reliable
    tempFile := Sink.reliable
    framesPerKeyframe := 10 }

/-- A file is started once the first snapshot has been read. -/
def startedEvents : List (SessionEvent SlicedConsole) :=
  [.beginRun, snapshotRead [⟨"a", 1⟩], .read .waiting, .emulate ⟨0, 0⟩,
    .startRecording exampleRecording]

/-- A counter changes, a frame is read and run, and a snapshot is read. -/
def countedEvents : List (SessionEvent SlicedConsole) :=
  startedEvents ++
    [.beginRun, .read (.item (.packet (.incrementCounter "a" 2))),
      .read (.item (.packet (.nextFrame 16))), .emulate ⟨0, 0⟩, .beginRun, .emulate ⟨0, 0⟩, .beginRun, snapshotRead [⟨"a", 5⟩]]

theorem follower_file_mirrors_counted :
    ValidMirror .storing
        ((Session.attach (.new .fresh 0)).run SlicedConsole.core .storing countedEvents) ∧
      ∀ before event after, countedEvents = before ++ event :: after →
        KeyframesMirror .storing
          ((Session.attach (.new .fresh 0)).run SlicedConsole.core .storing before)
          ((Session.attach (.new .fresh 0)).run SlicedConsole.core .storing (before ++ [event])) := by
  refine follower_file_mirrors Externals.storing_total rfl ?_ ?_
  · intro event hevent
    simp only [countedEvents, startedEvents, snapshotRead, List.cons_append, List.nil_append,
      List.mem_cons, List.not_mem_nil, or_false] at hevent
    rcases hevent with rfl | rfl | rfl | rfl | rfl | rfl | rfl | rfl | rfl | rfl | rfl | rfl | rfl
      <;> first | exact trivial | exact ⟨rfl, rfl⟩
  · refine ⟨fun _ ↦ ⟨trivial, trivial, trivial⟩,
      fun _ ↦ ⟨trivial, fun _ ↦ covers_of_entries (by decide) (by decide +kernel), trivial⟩,
      fun _ ↦ ⟨trivial, trivial, trivial⟩, fun _ ↦ ⟨trivial, trivial, trivial⟩,
      fun _ ↦ ⟨trivial, trivial, fun _ ↦ by decide +kernel⟩, fun _ ↦ ⟨trivial, trivial, trivial⟩,
      fun _ ↦ ⟨trivial, trivial, trivial⟩,
      fun _ ↦ ⟨show (_ : Nat) + _ < 2 ^ 63 by decide +kernel, trivial, trivial⟩,
      fun _ ↦ ⟨trivial, trivial, trivial⟩, fun _ ↦ ⟨trivial, trivial, trivial⟩,
      fun _ ↦ ⟨trivial, trivial, trivial⟩, fun _ ↦ ⟨trivial, trivial, trivial⟩,
      fun _ ↦ ⟨trivial, fun _ ↦ covers_of_entries (by decide) (by decide +kernel), trivial⟩,
      trivial⟩

/-- **A counter that a snapshot does not name stays in the file**, although the publisher's is zero
from there on. -/
theorem follower_keeps_lost_counter :
    let events := startedEvents ++ [.beginRun, snapshotRead []]
    (∀ event ∈ events, event.SinksWork) ∧
      ¬ ValidMirror .storing
        ((Session.attach (.new .fresh 0)).run SlicedConsole.core .storing events) := by
  intro events
  refine ⟨by simp [events, startedEvents, snapshotRead, SessionEvent.SinksWork]; decide, fun h ↦ ?_⟩
  have hlost : ((Session.attach (.new .fresh 0)).run SlicedConsole.core .storing
      events).core.replayFileRecorder.any (fun file ↦
        (Recorder.run .storing file.calls file.recorder).any fun ran ↦ decide
          (counterValue ran.2.counters "a" ≠ ((Session.attach (.new .fresh 0)).run SlicedConsole.core
            .storing events).publisherValue "a" - counterValue ((Session.attach (.new .fresh 0)).run
              SlicedConsole.core .storing events).start "a")) = true := by decide +kernel
  obtain ⟨file, hfile, hrest⟩ := (Option.any_eq_true _ _).mp hlost
  obtain ⟨⟨results, recorder⟩, hrun, hne⟩ := (Option.any_eq_true _ _).mp hrest
  exact of_decide_eq_true hne ((h file results recorder hfile hrun).2.2 "a")

end Live
end SuperShuckie
