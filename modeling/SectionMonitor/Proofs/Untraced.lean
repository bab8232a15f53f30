import SectionMonitor.Proofs.ClockShift

/-!
# Monitors without their timeline

The timeline is written to and never read. Taking it away from a monitor commutes with everything
that can be asked of one: the operation answers the same, writes the same log, takes the same steps
with the other processes, and leaves the same monitor but for the timeline. A change of the clock
drops the timeline too, so this is the change to a clock that is ahead by nothing (`later_zero`).

So a monitor that was built to record a timeline measures what one that was not would have measured
(`run_independent_of_timeline`).
-/

namespace SectionMonitor

namespace Monitor

/-- The monitor without its timeline. -/
def untraced (m : Monitor) : Monitor := { m with trace := none }

end Monitor

/-- The outcome for a monitor without its timeline. -/
def Outcome.untraced {α : Type} (o : Outcome α) : Outcome α :=
  { o with monitor := o.monitor.untraced }

/-! ## A clock that is ahead by nothing -/

theorem Section.map_later_zero (sections : List Section) :
    sections.map (later .zero) = sections := by
  rw [List.map_congr_left fun s _ ↦ s.later_zero, List.map_id']

theorem Monitor.later_zero (m : Monitor) : m.later .zero = m.untraced := by
  rw [later, Section.map_later_zero, Section.later_zero, untraced]

theorem Outcome.later_zero {α : Type} (o : Outcome α) : o.later .zero = o.untraced := by
  rw [later, Monitor.later_zero, untraced]

namespace Monitor

theorem Call.later_zero (c : Call) : c.later .zero = c := by
  cases c <;> rfl

variable (m : Monitor)

theorem Operation.later_zero (op : Operation) : op.Later .zero m op := by
  cases op with
  | call c =>
    have h := Operation.Later.call (d := .zero) (m := m) c
    rwa [Call.later_zero] at h
  | replica thread => exact .replica thread
  | merge replicas =>
    refine .merge ?_
    simp only [SharesLater, Section.map_later_zero]
  | parallel here body =>
    exact .parallel here ⟨fun thread ↦ (Section.map_later_zero _).symm, fun thread ↦ rfl⟩
  | gather now t => exact .gather now t

/-! ## Runs -/

/-- **One operation.** The monitor without its timeline answers the same. -/
theorem untraced_answer (op : Operation) : m.untraced.answer op = m.answer op := by
  rw [← later_zero, answer_later (op.later_zero m)]

theorem untraced_after (op : Operation) : m.untraced.after op = (m.after op).untraced := by
  rw [← later_zero, after_later (op.later_zero m), later_zero]

theorem untraced_gather (now : Duration) (rank size : ℕ) :
    m.untraced.gather now rank size = (m.gather now rank size).bind fun o ↦ .done o.untraced := by
  have h := m.later_gather .zero now rank size
  simpa only [later_zero, Outcome.later_zero, Duration.later_zero] using h

theorem untraced_run (ops : List Operation) (m : Monitor) :
    m.untraced.run ops = (m.run ops).untraced := by
  induction ops generalizing m with
  | nil => rfl
  | cons op rest ih => exact (congrArg (run · rest) (m.untraced_after op)).trans (ih _)

/-- **The timeline has no effect.** Of two monitors, only one of which records a timeline, both are
the same after any operations but for the timeline: the same labels and sections, the same open
intervals, root section, token and flag. The next operation gets the same answer from both, and a
gather takes the same steps with the other processes however these are answered. -/
theorem run_independent_of_timeline (settings : Settings) (adapterEvents : Option (List String))
    (now : Duration) (ops : List Operation) :
    let traced := (build settings adapterEvents true now).run ops
    let silent := (build settings adapterEvents false now).run ops
    silent = { traced with trace := none } ∧
    (∀ op, silent.answer op = traced.answer op) ∧
    ∀ now' rank size, silent.gather now' rank size = (traced.gather now' rank size).bind fun o ↦
      .done { o with monitor := { o.monitor with trace := none } } := by
  have hsilent : (build settings adapterEvents false now).run ops
      = ((build settings adapterEvents true now).run ops).untraced :=
    untraced_run ops (build settings adapterEvents true now)
  rw [hsilent]
  exact ⟨rfl, untraced_answer _, untraced_gather _⟩

end Monitor

end SectionMonitor
