import SectionMonitor.Proofs.Calls
import SectionMonitor.Proofs.Merge

/-!
# What a refusal leaves behind

Calls are refused in the middle of what they do: a start has registered its label by the time it
finds that it may not open an interval, and a region has made replicas by the time one of its
threads breaks down. None of this does any damage (`Reachable.refused_unharmed`). A refused call, a
refused gather and a spoiled region leave the monitor as it was, but for one case: a start that is
refused on account of another exclusive section keeps a label that it was the first to use.

So a gather that came too early can be repeated as if it had not been tried.
-/

namespace SectionMonitor

namespace Monitor

variable {m : Monitor}

/-! ## A label that stays -/

/-- A label becomes known, and nothing else happens: it gets the next handle, and a section that is
idle and empty and has default properties. -/
structure MakesKnown (label : String) (m m' : Monitor) : Prop where
  unknown : m.lookup label = none
  lookup_label : m'.lookup label = some ⟨m.sections.length + 1⟩
  lookup_other : ∀ other, other ≠ label → m'.lookup other = m.lookup other
  labels : m'.registry.labels = m.registry.labels ++ [label]
  sections : m'.sections = m.sections ++
    [{ label := label
       properties := {}
       binding := .implicit
       source := m.newSource
       totals := {}
       phase := .idle }]
  /-- The timeline may have the new handle. -/
  rest : { m' with registry := m.registry, sections := m.sections, trace := m.trace } = m

theorem InStep.lookup_register_of_ne (h : m.InStep) {label other : String} (hne : other ≠ label) :
    (m.register label).lookup other = m.lookup other := by
  cases hlookup : m.lookup label with
  | some i => rw [register_of_known hlookup]
  | none =>
    cases hother : m.lookup other with
    | none =>
      have hmem := h.indexed.lookup_eq_none_iff.mp hother
      refine (h.register label).indexed.lookup_eq_none_iff.mpr ?_
      rw [labels_register_of_new hlookup, List.mem_append, List.mem_singleton]
      exact not_or.mpr ⟨hmem, hne⟩
    | some i =>
      obtain ⟨k, s, rfl, hs, rfl⟩ := h.exists_section_of_lookup hother
      refine (h.register label).lookup_of_section ?_
      rw [sections_register_of_new hlookup]
      rw [List.getElem?_append_left (List.getElem?_eq_some_iff.mp hs).1, hs]

/-- **A registration.** -/
theorem InStep.register_cases (h : m.InStep) (label : String) :
    m.register label = m ∨ MakesKnown label m (m.register label) := by
  cases hlookup : m.lookup label with
  | some i => exact .inl (register_of_known hlookup)
  | none =>
    refine .inr
      { unknown := hlookup
        lookup_label := ?_
        lookup_other := fun other hne ↦ h.lookup_register_of_ne hne
        labels := labels_register_of_new hlookup
        sections := sections_register_of_new hlookup
        rest := ?_ }
    · have hs : (m.register label).sections[m.sections.length]?
          = some { label := label, source := m.newSource } := by
        rw [sections_register_of_new hlookup, List.getElem?_concat_length]
      exact (h.register label).lookup_of_section hs
    · rw [register_of_new hlookup]
      rfl

/-! ## Refused calls -/

/-- A label that is new is open to every binding, so no refused binding has registered one. -/
theorem InStep.monitor_setProperties_of_refused (h : m.InStep) {label : String}
    {requested : Properties} {v : Violation}
    (hrefused : (m.setProperties label requested).result = .error v) :
    (m.setProperties label requested).monitor = m := by
  obtain ⟨-, hm⟩ | ⟨k, bound, -, -, hresult, -⟩ := h.setProperties_cases label requested
  · rw [hm]
    cases hlookup : m.lookup label with
    | some i => exact register_of_known hlookup
    | none =>
      rw [h.result_setProperties, h.sectionOf_of_new hlookup] at hrefused
      simp [Section.bind?, Section.isOpenToBinding, Section.isRunning] at hrefused
  · rw [hresult] at hrefused
    cases hrefused

/-- **A refused call.** -/
theorem InStep.refused_cases (h : m.InStep) {c : Call} {v : Violation}
    (hrefused : (m.perform c).result = .error v) :
    (m.perform c).monitor = m ∨
      ∃ here label, c = .start here label ∧ MakesKnown label m (m.perform c).monitor := by
  cases c with
  | resolve label => cases hrefused
  | setProperties label requested =>
    left
    rw [Monitor.perform, Outcome.result_map] at hrefused
    cases hresult : (m.setProperties label requested).result with
    | error v' => exact h.monitor_setProperties_of_refused hresult
    | ok i => simp [hresult, Except.map] at hrefused
  | start here label =>
    rw [Monitor.perform, Outcome.monitor_map]
    obtain ⟨-, -, hm⟩ | ⟨-, -, -, -, -, hm⟩ | ⟨-, -, hresult, -⟩ := h.start_cases here label
    · rw [hm]
      exact (h.register_cases label).imp_right fun hknown ↦ ⟨here, label, rfl, hknown⟩
    · rw [hm]
      exact (h.register_cases label).imp_right fun hknown ↦ ⟨here, label, rfl, hknown⟩
    · simp [Monitor.perform, hresult, Except.map] at hrefused
  | stop here label work =>
    obtain ⟨-, -, hm⟩ | ⟨-, -, -, -, -, -, hresult, -⟩ := h.stop_cases here label work
    · exact .inl hm
    · simp [Monitor.perform, hresult, Except.map] at hrefused
  | reset label =>
    obtain ⟨-, hresult, -⟩ | ⟨-, hm⟩ | ⟨-, -, -, hresult, -⟩ := h.reset_cases label
    · simp [Monitor.perform, hresult, Except.map] at hrefused
    · exact .inl hm
    · simp [Monitor.perform, hresult, Except.map] at hrefused
  | resetAll now =>
    obtain ⟨-, hm⟩ | ⟨-, hresult, -⟩ := m.resetAll_cases now
    · exact .inl hm
    · simp [Monitor.perform, hresult, Except.map] at hrefused

/-! ## Refused gathers -/

/-- Once it has begun, a gather is not refused any more. -/
theorem handOver_always_ok (m : Monitor) (rank size : ℕ) :
    (m.handOver rank size).Always fun o ↦ ∃ summary, o.result = .ok summary := by
  refine (handOver_always_concludes m rank size).mono ?_
  rintro _ ⟨labels, rootTimes, events, sections, notices, rfl⟩
  rw [conclude]
  split <;> exact ⟨_, rfl⟩

/-- **A refused gather.** It takes no step with the other processes. -/
theorem gather_of_refused {now : Duration} {t : Transport} {v : Violation}
    (hrefused : ((m.gather now t.rank t.size).answeredBy t 0).result = .error v) :
    m.gather now t.rank t.size = .done (.refusal v m []) ∧
      ((m.gathered = true ∧ v = .alreadyGathered) ∨
        m.gathered = false ∧ ∃ s, m.running? = some s ∧ v = .runningDuringGather s.label) := by
  cases hgathered : m.gathered with
  | true =>
    have hgather : m.gather now t.rank t.size = .done (.refusal .alreadyGathered m []) := by
      rw [gather, if_pos hgathered]
    rw [hgather] at hrefused
    obtain rfl : Violation.alreadyGathered = v := Except.error.inj hrefused
    exact ⟨hgather, .inl ⟨rfl, rfl⟩⟩
  | false =>
    cases hrunning : m.running? with
    | some s =>
      have hgather : m.gather now t.rank t.size
          = .done (.refusal (.runningDuringGather s.label) m []) := by
        rw [gather, hgathered, hrunning]
        rfl
      rw [hgather] at hrefused
      obtain rfl : Violation.runningDuringGather s.label = v := Except.error.inj hrefused
      exact ⟨hgather, .inr ⟨rfl, s, rfl, rfl⟩⟩
    | none =>
      rw [gather, hgathered, hrunning] at hrefused
      obtain ⟨summary, hresult⟩ :=
        (handOver_always_ok (m.sealed now) t.rank t.size).answeredBy t 0
      exact absurd (hresult.symm.trans hrefused) (by simp)

theorem gather_always_ok (hopen : m.gathered = false) (hidle : m.running? = none) (now : Duration)
    (rank size : ℕ) :
    (m.gather now rank size).Always fun o ↦ ∃ summary, o.result = .ok summary := by
  rw [gather, hopen, hidle]
  exact handOver_always_ok (m.sealed now) rank size

/-- No call counts as a gather. -/
theorem InStep.gathered_perform (h : m.InStep) (c : Call) :
    (m.perform c).monitor.gathered = m.gathered := by
  generalize hm' : (m.perform c).monitor = m'
  have hstep := h.callStep c
  rw [hm'] at hstep
  cases hstep with
  | nothing => rfl
  | register label => exact gathered_register m label
  | bind hs hbound => exact gathered_register m _
  | openInterval hk hs hidle hresult => exact gathered_register m _
  | closeInterval hk hs hrunning hresult => rfl
  | clear hs hidle => rfl
  | restart hidle => rfl

theorem Reachable.gathered_run (h : m.Reachable) (calls : List Call) :
    (m.run (calls.map .call)).gathered = m.gathered := by
  induction calls using List.reverseRecOn with
  | nil => rfl
  | append_singleton calls c ih =>
    rw [List.map_append, List.map_singleton, run_append]
    exact ((h.run _).inStep.gathered_perform c).trans ih

/-! ## Spoiled regions -/

/-- **A spoiled region.** If some thread does not finish, the region ends as one of those threads
did, and nothing becomes of the replicas. -/
theorem parallel_of_spoiled {here : Surroundings} {body : ℕ → Monitor → Monitor × Ending}
    {thread : ℕ} (hthread : thread < here.team.threads)
    (hspoiled : (body thread (m.replica thread)).2 ≠ .finished) :
    (m.parallel here body).monitor = m ∧
      ∃ t < here.team.threads, (body t (m.replica t)).2 ≠ .finished ∧
        (m.parallel here body).ending = (body t (m.replica t)).2 := by
  rw [parallel, mapIdx_crew]
  obtain ⟨d, hd, hunfinished, hending, hm⟩ | ⟨hall, -, -⟩ :=
    m.join_cases ((List.range here.team.threads).map fun t ↦ body t (m.replica t))
  · obtain ⟨t, ht, rfl⟩ := List.mem_map.mp hd
    exact ⟨hm, t, List.mem_range.mp ht, hunfinished, hending⟩
  · exact absurd (hall _ (List.mem_map_of_mem (List.mem_range.mpr hthread))) hspoiled

/-! ## All of them -/

/-- **Refusals do no damage.** A refused call leaves the monitor as it was, but for a start that may
have made its label known. A refused gather takes no steps and leaves the monitor as it was; if it
was refused because a section ran, the gather that follows once nothing runs is not refused, and is
the one that there would have been without the first. A region of which some thread is refused
something or panics ends as such a thread did, and leaves the monitor as it was. -/
theorem Reachable.refused_unharmed (h : m.Reachable) :
    (∀ c v, (m.perform c).result = .error v →
      (m.perform c).monitor = m ∨
        ∃ here label, c = .start here label ∧ MakesKnown label m (m.perform c).monitor) ∧
    (∀ now t v, ((m.gather now t.rank t.size).answeredBy t 0).result = .error v →
      m.gather now t.rank t.size = .done (.refusal v m []) ∧
      m.after (.gather now t) = m ∧
      ∀ label, v = .runningDuringGather label → ∀ calls : List Call,
        let tried := (m.after (.gather now t)).run (calls.map .call)
        let untried := m.run (calls.map .call)
        tried.running? = none → ∀ now' rank size,
          tried.gather now' rank size = untried.gather now' rank size ∧
          (tried.gather now' rank size).Always fun o ↦ ∃ summary, o.result = .ok summary) ∧
    ∀ here body thread, thread < here.team.threads →
      (body thread (m.replica thread)).2 ≠ .finished →
      (m.parallel here body).monitor = m ∧
        ∃ t < here.team.threads, (body t (m.replica t)).2 ≠ .finished ∧
          (m.parallel here body).ending = (body t (m.replica t)).2 := by
  refine ⟨fun c v ↦ h.inStep.refused_cases, fun now t v hrefused ↦ ?_,
    fun here body thread ↦ parallel_of_spoiled⟩
  obtain ⟨hgather, hwhy⟩ := gather_of_refused hrefused
  have hafter : m.after (.gather now t) = m := by
    rw [Monitor.after, hgather]
    rfl
  refine ⟨hgather, hafter, fun label hv calls ↦ ?_⟩
  rw [hafter]
  intro tried untried hidle now' rank size
  refine ⟨rfl, gather_always_ok ?_ hidle now' rank size⟩
  obtain ⟨-, hgathered⟩ | ⟨hopen, -⟩ := hwhy
  · rw [hv] at hgathered
    cases hgathered
  · rw [h.gathered_run calls, hopen]

/-- A monitor with an exclusive section that runs. -/
def busy : Monitor := (build {} none false .zero).after (.call (.start (.plain .zero) "rows"))

/-- It refuses to start another exclusive section, whose label it keeps, and to gather, which it
does once the section has been stopped; and a region whose only thread panics does nothing to it. -/
theorem busy_unharmed :
    (busy.perform (.start (.plain ⟨5⟩) "columns")).result
      = .error (.exclusiveOverlap "columns" "rows") ∧
    MakesKnown "columns" busy (busy.perform (.start (.plain ⟨5⟩) "columns")).monitor ∧
    ((busy.gather ⟨5⟩ 0 1).answeredBy .alone 0).result = .error (.runningDuringGather "rows") ∧
    (let stopped := (busy.after (.gather ⟨5⟩ .alone)).run [.call (.stop (.plain ⟨7⟩) "rows" {})]
    (stopped.gather ⟨9⟩ 0 1).Always fun o ↦ ∃ summary, o.result = .ok summary) ∧
    (busy.parallel (.plain ⟨5⟩) fun _ r ↦ (r, .panicked "index out of range")).monitor = busy := by
  have hreachable : busy.Reachable := .after _ (.build {} none false .zero)
  have hunharmed := Reachable.refused_unharmed hreachable
  have hstart : (busy.perform (.start (.plain ⟨5⟩) "columns")).result
      = .error (.exclusiveOverlap "columns" "rows") := by decide +kernel
  have hgather : ((busy.gather ⟨5⟩ 0 1).answeredBy .alone 0).result
      = .error (.runningDuringGather "rows") := rfl
  refine ⟨hstart, ?_, hgather, ?_, ?_⟩
  · obtain hm | ⟨here, label, hc, hknown⟩ := hunharmed.1 _ _ hstart
    · have hlabels := congrArg (fun m : Monitor ↦ m.registry.labels) hm
      exact absurd hlabels (by decide +kernel)
    · cases hc
      exact hknown
  · obtain ⟨-, -, hretry⟩ := hunharmed.2.1 ⟨5⟩ .alone _ hgather
    exact (hretry "rows" rfl [.stop (.plain ⟨7⟩) "rows" {}] rfl ⟨9⟩ 0 1).2
  · exact (hunharmed.2.2 (.plain ⟨5⟩) _ 0 (by decide) (by simp)).1

end Monitor

end SectionMonitor
