import Mathlib

/-!
# Threads with jobs to do

A thread is the list of jobs that it still has to do.  It does the first, which may put others in its
place, and threads take turns job by job.  What is said here is which jobs are pending afterwards.
-/

set_option autoImplicit false

namespace Threads

variable {Thread Job : Type} [DecidableEq Thread]

/-- Some thread still has the job to do. -/
def Pending (threads : Thread → List Job) (job : Job) : Prop := ∃ t, job ∈ threads t

variable {threads : Thread → List Job} {t : Thread} {first job : Job} {rest jobs : List Job}

/-- What is pending after a thread did its first job was put in its place or was pending before. -/
theorem pending_of_done (hthread : threads t = first :: rest)
    (h : Pending (Function.update threads t (jobs ++ rest)) job) :
    job ∈ jobs ∨ Pending threads job := by
  obtain ⟨t', h⟩ := h
  by_cases ht : t' = t
  · rw [ht, Function.update_self, List.mem_append] at h
    exact h.imp_right fun h ↦ ⟨t, hthread ▸ List.mem_cons_of_mem _ h⟩
  · rw [Function.update_of_ne ht] at h
    exact .inr ⟨t', h⟩

/-- What was pending still is, unless it is the job that was done. -/
theorem Pending.done (hthread : threads t = first :: rest) (h : Pending threads job)
    (hne : job ≠ first) : Pending (Function.update threads t (jobs ++ rest)) job := by
  obtain ⟨t', h⟩ := h
  refine ⟨t', ?_⟩
  by_cases ht : t' = t
  · rw [ht, hthread, List.mem_cons] at h
    rw [ht, Function.update_self, List.mem_append]
    exact .inr (h.resolve_left hne)
  · rw [Function.update_of_ne ht]
    exact h

theorem pending_of_mem (h : job ∈ jobs) : Pending (Function.update threads t (jobs ++ rest)) job :=
  ⟨t, by rw [Function.update_self]; exact List.mem_append_left _ h⟩

/-- What is pending after an idle thread was given jobs. -/
theorem pending_started (hthread : threads t = []) :
    Pending (Function.update threads t jobs) job ↔ job ∈ jobs ∨ Pending threads job := by
  constructor
  · rintro ⟨t', h⟩
    by_cases ht : t' = t
    · rw [ht, Function.update_self] at h
      exact .inl h
    · rw [Function.update_of_ne ht] at h
      exact .inr ⟨t', h⟩
  · rintro (h | ⟨t', h⟩)
    · exact ⟨t, by rwa [Function.update_self]⟩
    · refine ⟨t', ?_⟩
      have ht : t' ≠ t := by
        rintro rfl
        rw [hthread] at h
        exact List.not_mem_nil h
      rwa [Function.update_of_ne ht]

end Threads
