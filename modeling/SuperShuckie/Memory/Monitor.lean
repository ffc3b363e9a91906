import SuperShuckie.Memory.Request

/-!
# The memory monitor

What the tools and the core thread share: the request, the latest sample, the events on their way to
the tools and the edits on their way to the core.
-/

set_option autoImplicit false

namespace SuperShuckie

open ByteFormat

/-- Events on their way to the tools, and how many were dropped. -/
structure EventRing where
  events : List MonitorEvent := []
  dropped : Nat := 0
deriving DecidableEq

/-- State shared between the tools and the core thread. -/
structure MemoryMonitorShared where
  request : MonitorRequest := {}
  requestGeneration : Nat := 1
  sample : MonitorSample := {}
  sampleGeneration : Nat := 0
  ring : EventRing := {}
  eventsGeneration : Nat := 0
  edits : List MemoryEdit := []
  editsGeneration : Nat := 0
deriving DecidableEq

namespace MemoryMonitorShared

/-- Change the request. -/
def updateRequest (s : MemoryMonitorShared) (f : MonitorRequest → MonitorRequest) :
    MemoryMonitorShared :=
  { s with request := f s.request, requestGeneration := s.requestGeneration + 1 }

/-- If a sample newer than `lastSeen` has been published, swap it with `into`; its generation. -/
def takeSample (s : MemoryMonitorShared) (lastSeen : Nat) (into : MonitorSample) :
    Option Nat × MemoryMonitorShared × MonitorSample :=
  if s.sampleGeneration ≤ lastSeen then (none, s, into)
  else if s.sample.generation ≤ lastSeen then (none, s, into)
  else (some s.sample.generation, { s with sample := into }, s.sample)

/-- Every event observed so far, and how many were dropped. -/
def drainEvents (s : MemoryMonitorShared) : List MonitorEvent × Nat × MemoryMonitorShared :=
  if s.eventsGeneration = 0 then ([], 0, s)
  else (s.ring.events, s.ring.dropped, { s with ring := {} })

/-- Queue a one-time write for the next frame boundary. -/
def pushEdit (s : MemoryMonitorShared) (edit : MemoryEdit) : MemoryMonitorShared :=
  { s with edits := s.edits ++ [edit], editsGeneration := s.editsGeneration + 1 }

/-- Drop every queued write no core has taken yet. -/
def discardEdits (s : MemoryMonitorShared) : MemoryMonitorShared := { s with edits := [] }

end MemoryMonitorShared

end SuperShuckie
