import SectionMonitor.Proofs.Ledger
import SectionMonitor.Proofs.MergeSums
import SectionMonitor.Proofs.Refusals
import SectionMonitor.Proofs.Untraced

/-!
# Snapshots in pairs

At the start of an interval a monitor asks for the counters of some threads, and at the end for what
these have advanced by. Between the two the team may have changed, and other sections may have been
started and stopped, each with snapshots of its own. Nevertheless a stop asks for exactly the
threads of its own start, with the snapshots that were taken then, and adds up the answers
(`Begins.snapshots_paired`).

An open interval is the trace that a start has left: while a label runs, the last thing done to it
was the start with whose snapshots it runs (`Begins.exists_opening`). This is shown by induction on
the run. An operation either opens the interval, or finds it open and leaves it so
(`InStep.interval_after`); regions and merges, which are no deeds, open and close nothing.
-/

namespace SectionMonitor

/-! ## What a log says of the adapter -/

namespace LogEntry

/-- The thread whose counters are read to begin an interval. -/
def begun? : LogEntry → Option ℕ
  | .adapter (.read thread) => some thread
  | _ => none

/-- The snapshot of which the advance is asked for to end an interval. -/
def ended? : LogEntry → Option Snapshot
  | .adapter (.advance snapshot) => some snapshot
  | _ => none

/-- All threads that are asked for their counters, for whatever reason. -/
def threads (log : List LogEntry) : List ℕ :=
  log.filterMap begun? ++ (log.filterMap ended?).map Snapshot.thread

@[simp] theorem begun?_notices (notices : List Notice) :
    (notices.map LogEntry.notice).filterMap begun? = [] := by
  induction notices with
  | nil => rfl
  | cons n rest ih => exact ih

@[simp] theorem ended?_notices (notices : List Notice) :
    (notices.map LogEntry.notice).filterMap ended? = [] := by
  induction notices with
  | nil => rfl
  | cons n rest ih => exact ih

theorem threads_notices (notices : List Notice) : threads (notices.map .notice) = [] := by
  rw [threads, begun?_notices, ended?_notices]
  rfl

theorem threads_append (log log' : List LogEntry) (hlog : threads log = []) :
    threads (log ++ log') = threads log' := by
  rw [threads, List.append_eq_nil_iff, List.map_eq_nil_iff] at hlog
  rw [threads, threads, List.filterMap_append, List.filterMap_append, hlog.1, hlog.2]
  rfl

end LogEntry

namespace Monitor

open LogEntry (begun? ended?)

variable {m : Monitor} {here : Surroundings} {label : String}

/-! ## The log of a start -/

theorem log_start {i : Index} (hok : (m.start here label).result = .ok i) :
    (m.start here label).log
      = (m.registration label).map .notice
        ++ (m.takeSnapshots here).map (fun s ↦ .adapter (.read s.thread))
        ++ [.notice (.started label)] := by
  have htake := (SetUpAs.register m label).takeSnapshots_eq here
  rw [start] at hok ⊢
  split_ifs at hok ⊢ with hrunning
  · cases hok
  · cases hbar : (m.register label).barrier? ((m.register label).sectionAt (m.indexOf label)) with
    | some active => simp [hbar, Outcome.refusal] at hok
    | none => rw [htake]

theorem begun_start {i : Index} (hok : (m.start here label).result = .ok i) :
    (m.start here label).log.filterMap begun? = (m.takeSnapshots here).map Snapshot.thread := by
  have hreads (snapshots : List Snapshot) : (snapshots.map fun s ↦
      LogEntry.adapter (.read s.thread)).filterMap begun? = snapshots.map Snapshot.thread := by
    rw [List.filterMap_map, ← List.filterMap_eq_map]
    rfl
  rw [log_start hok, List.filterMap_append, List.filterMap_append, hreads,
    LogEntry.begun?_notices]
  exact List.append_nil _

theorem ended_start {i : Index} (hok : (m.start here label).result = .ok i) :
    (m.start here label).log.filterMap ended? = [] := by
  have hreads (snapshots : List Snapshot) : (snapshots.map fun s ↦
      LogEntry.adapter (.read s.thread)).filterMap ended? = [] := by
    rw [List.filterMap_map]
    exact List.filterMap_eq_nil_iff.mpr fun s _ ↦ rfl
  rw [log_start hok, List.filterMap_append, List.filterMap_append, hreads,
    LogEntry.ended?_notices]
  rfl

/-- A thread is read at most once. -/
theorem nodup_measuredThreads (m : Monitor) (here : Surroundings) :
    (m.measuredThreads here).Nodup := by
  have hsingle (n : ℕ) : (singleThread n).Nodup := by
    rw [singleThread]
    split
    · exact List.nodup_singleton n
    · exact List.nodup_nil
  rw [measuredThreads.eq_def]
  cases m.scope with
  | thread n => exact hsingle n
  | process =>
    dsimp only
    split
    · exact hsingle _
    · exact List.nodup_range

theorem threads_takeSnapshots (m : Monitor) (here : Surroundings) :
    (m.takeSnapshots here).map Snapshot.thread
      = if m.countersActive then m.measuredThreads here else [] := by
  rw [takeSnapshots]
  split
  · rw [List.map_map]
    exact List.map_id _
  · rfl

/-- A snapshot is what was read. -/
theorem takeSnapshots_eq_map (m : Monitor) (here : Surroundings) :
    m.takeSnapshots here
      = ((m.takeSnapshots here).map Snapshot.thread).map fun t ↦ ⟨t, here.read t⟩ := by
  rw [threads_takeSnapshots, takeSnapshots]
  split <;> rfl

/-! ## The log of a stop -/

theorem InStep.log_stop (h : m.InStep) {since : Duration} {snapshots : List Snapshot}
    (hrunning : (m.sectionOf label).phase = .running since snapshots) (here : Surroundings)
    (work : Work) :
    ∃ notice, (m.stop here label work).log
      = m.endCalls snapshots
        ++ m.deriveCalls (m.sectionOf label).source (m.countSince here snapshots)
        ++ [.notice notice] := by
  obtain ⟨hidle, -, -⟩ | ⟨k, since', snapshots', hk, hs, hphase, -, -⟩ :=
    h.stop_cases here label work
  · rw [hidle] at hrunning
    cases hrunning
  · rw [hrunning] at hphase
    cases hphase
    rw [stop, hk]
    simp only [sectionAt_of_section hs, hrunning]
    exact ⟨_, rfl⟩

theorem filterMap_deriveCalls {α : Type} {f : LogEntry → Option α}
    (hf : ∀ mode r, f (.adapter (.derive mode r)) = none) (m : Monitor) (source : VolumeSource)
    (r : Reading) : (m.deriveCalls source r).filterMap f = [] := by
  rw [deriveCalls.eq_def]
  cases source with
  | adapterDerived mode =>
    dsimp only
    split
    · simp [hf]
    · rfl
  | userSupplied => rfl
  | timeOnly => rfl

/-- The stop asks for the advance of every snapshot. -/
theorem InStep.ended_stop (h : m.InStep) {work : Work} {since : Duration}
    {snapshots : List Snapshot}
    (hrunning : (m.sectionOf label).phase = .running since snapshots) :
    (m.stop here label work).log.filterMap ended?
      = if m.countersActive then snapshots else [] := by
  obtain ⟨notice, hlog⟩ := h.log_stop hrunning here work
  have hadvances : (snapshots.map fun s ↦ LogEntry.adapter (.advance s)).filterMap ended?
      = snapshots := by
    rw [List.filterMap_map]
    exact List.filterMap_some
  rw [hlog, List.filterMap_append, List.filterMap_append,
    filterMap_deriveCalls fun _ _ ↦ rfl, endCalls]
  split
  · rw [hadvances]
    simp [ended?]
  · rfl

theorem InStep.begun_stop (h : m.InStep) {work : Work} {since : Duration}
    {snapshots : List Snapshot}
    (hrunning : (m.sectionOf label).phase = .running since snapshots) :
    (m.stop here label work).log.filterMap begun? = [] := by
  obtain ⟨notice, hlog⟩ := h.log_stop hrunning here work
  have hadvances : (snapshots.map fun s ↦ LogEntry.adapter (.advance s)).filterMap begun? = [] := by
    rw [List.filterMap_map]
    exact List.filterMap_eq_nil_iff.mpr fun s _ ↦ rfl
  rw [hlog, List.filterMap_append, List.filterMap_append,
    filterMap_deriveCalls fun _ _ ↦ rfl, endCalls]
  split
  · rw [hadvances]
    rfl
  · rfl

/-! ## Where an open interval comes from -/

/-- A merge neither opens nor closes an interval. -/
theorem InStep.phase_sectionOf_merge (h : m.InStep) (replicas : List Monitor) (label : String) :
    ((m.merge replicas).monitor.sectionOf label).phase = (m.sectionOf label).phase := by
  have hdeclared (shares : List Section) :
      ((m.declareAll shares).sectionOf label).phase = (m.sectionOf label).phase := by
    rw [h.sectionOf_declareAll_eq]
  obtain ⟨v, -, hleft⟩ | ⟨hok, -, -⟩ := h.merge_cases replicas
  · generalize (m.merge replicas).monitor = m' at hleft
    cases hleft with
    | running hs => rfl
    | conflict hidle hshares hexplicit hrefused hkeeps =>
      rw [sectionOf_register (h.declareAll _), hdeclared]
  · rw [h.sectionOf_merge hok, Section.phase_absorb, hdeclared]

theorem InStep.phase_sectionOf_parallel (h : m.InStep) (here : Surroundings)
    (body : ℕ → Monitor → Monitor × Ending) (label : String) :
    ((m.parallel here body).monitor.sectionOf label).phase = (m.sectionOf label).phase := by
  rw [parallel]
  obtain ⟨d, -, -, -, hm⟩ | ⟨-, -, hm⟩ :=
    m.join_cases ((m.crew here).mapIdx fun thread r ↦ body thread r.1)
  · rw [hm]
  · rw [hm, h.phase_sectionOf_merge]

theorem start_of_deed? {op : Operation} (hd : m.deed? op = some (.started here label)) :
    op = .call (.start here label) ∧ ∃ i, (m.start here label).result = .ok i := by
  cases op with
  | call c =>
    obtain ⟨a, hresult, hc⟩ := Option.bind_eq_some_iff.mp hd
    have hcall : c = .start here label := by
      cases c <;> simp [Call.deed?] at hc
      rw [hc.1, hc.2]
    subst hcall
    rw [perform, Outcome.result_map] at hresult
    cases hstart : (m.start here label).result with
    | ok i => exact ⟨rfl, i, rfl⟩
    | error v => simp [hstart, Except.map, Except.toOption] at hresult
  | replica thread => cases hd
  | merge replicas => cases hd
  | parallel here body => cases hd
  | gather now t => cases hd

/-- **What an operation does to an open interval.** It opens it, or finds it open and does not start,
stop or empty its label. -/
theorem InStep.interval_after (h : m.InStep) (hsource : m.OneSource) {op : Operation}
    {since : Duration} {snapshots : List Snapshot}
    (hrunning : ((m.after op).sectionOf label).phase = .running since snapshots) :
    (∃ here, op = .call (.start here label) ∧ (∃ i, (m.start here label).result = .ok i) ∧
        since = here.now ∧ snapshots = m.takeSnapshots here) ∨
      ((m.sectionOf label).phase = .running since snapshots ∧
        ∀ d ∈ m.deed? op, d.concerns label = false ∧ d.empties label = false) := by
  by_cases hsolo : op.Solo
  · have heffect := h.effect_after hsource hsolo
    have hphase : ((m.after op).figures label).phase = .running since snapshots := hrunning
    cases hd : m.deed? op with
    | none =>
      rw [hd] at heffect
      rw [show (m.after op).figures = m.figures from heffect] at hphase
      exact .inr ⟨hphase, by simp⟩
    | some d =>
      rw [hd] at heffect
      cases d with
      | started here other =>
        obtain ⟨-, hfigures⟩ := heffect
        rw [hfigures] at hphase
        by_cases hlabel : label = other
        · subst hlabel
          obtain ⟨rfl, hok⟩ := start_of_deed? hd
          rw [Function.update_self] at hphase
          cases hphase
          exact .inl ⟨here, rfl, hok, rfl, rfl⟩
        · rw [Function.update_of_ne hlabel] at hphase
          exact .inr ⟨hphase, by simpa [Deed.concerns, Deed.empties] using Ne.symm hlabel⟩
      | stopped here other work =>
        obtain ⟨since', snapshots', -, hfigures⟩ := heffect
        rw [hfigures] at hphase
        by_cases hlabel : label = other
        · rw [hlabel, Function.update_self] at hphase
          cases hphase
        · rw [Function.update_of_ne hlabel] at hphase
          exact .inr ⟨hphase, by simpa [Deed.concerns, Deed.empties] using Ne.symm hlabel⟩
      | emptied other =>
        obtain ⟨-, hfigures⟩ := heffect
        rw [hfigures] at hphase
        by_cases hlabel : label = other
        · rw [hlabel, Function.update_self] at hphase
          cases hphase
        · rw [Function.update_of_ne hlabel] at hphase
          exact .inr ⟨hphase, by simpa [Deed.concerns, Deed.empties] using Ne.symm hlabel⟩
      | emptiedAll =>
        rw [heffect.2] at hphase
        cases hphase
  · right
    cases op with
    | merge replicas =>
      rw [after, h.phase_sectionOf_merge] at hrunning
      exact ⟨hrunning, by simp [deed?]⟩
    | parallel here body =>
      rw [after, h.phase_sectionOf_parallel] at hrunning
      exact ⟨hrunning, by simp [deed?]⟩
    | call c => exact absurd trivial hsolo
    | replica thread => exact absurd trivial hsolo
    | gather now t => exact absurd trivial hsolo

/-- The start that opened the interval in which a label is after some operations, and what was
asked of the monitor before and after it. -/
structure OpenedBy (m : Monitor) (ops : List Operation) (label : String)
    (before : List Operation) (here : Surroundings) (between : List Operation) : Prop where
  ops_eq : ops = before ++ .call (.start here label) :: between
  opened : ∃ i, ((m.run before).start here label).result = .ok i
  /-- The label was not started, stopped or emptied since. -/
  undisturbed : ∀ d ∈ ((m.run before).after (.call (.start here label))).deeds between,
    d.concerns label = false ∧ d.empties label = false

/-- **Where an open interval comes from.** It was opened by a start, whose snapshots it has. -/
theorem Begins.exists_opening (h : m.Begins) {ops : List Operation} {since : Duration}
    {snapshots : List Snapshot}
    (hrunning : ((m.run ops).sectionOf label).phase = .running since snapshots) :
    ∃ before here between, m.OpenedBy ops label before here between ∧ since = here.now ∧
      snapshots = (m.run before).takeSnapshots here := by
  induction ops using List.reverseRecOn with
  | nil =>
    have hblank : (m.figures label).phase = .running since snapshots := hrunning
    rw [h.figures_eq] at hblank
    cases hblank
  | append_singleton ops op ih =>
    have hreach := h.reachable.run ops
    rw [run_append] at hrunning
    obtain ⟨here, rfl, hok, hsince, hsnapshots⟩ | ⟨hbefore, hquiet⟩ :=
      hreach.inStep.interval_after hreach.oneSource hrunning
    · exact ⟨ops, here, [], ⟨rfl, hok, fun d hd ↦ absurd hd List.not_mem_nil⟩, hsince, hsnapshots⟩
    · obtain ⟨before, here, between, hopened, hsince, hsnapshots⟩ := ih hbefore
      refine ⟨before, here, between ++ [op], ⟨?_, hopened.opened, fun d hd ↦ ?_⟩, hsince,
        hsnapshots⟩
      · rw [hopened.ops_eq, List.append_assoc, List.cons_append]
      · rw [deeds_append, List.mem_append, Option.mem_toList, ← run_append_cons,
          ← hopened.ops_eq] at hd
        rcases hd with hd | hd
        · exact hopened.undisturbed d hd
        · exact hquiet d hd

/-! ## What a stop adds -/

theorem InStep.counters_stop (h : m.InStep) {work : Work} {since : Duration}
    {snapshots : List Snapshot}
    (hrunning : (m.sectionOf label).phase = .running since snapshots) :
    ((m.stop here label work).monitor.sectionOf label).totals.counters
      = (m.sectionOf label).totals.counters.accumulate (m.countSince here snapshots) := by
  obtain ⟨hidle, -, -⟩ | ⟨k, since', snapshots', -, hs, hphase, -, hm⟩ :=
    h.stop_cases here label work
  · rw [hidle] at hrunning
    cases hrunning
  · rw [hrunning] at hphase
    cases hphase
    rw [hm, h.sectionOf_modify (sections_closeInterval ..) rfl ⟨rfl, rfl, rfl⟩ hs rfl,
      label_sectionOf, if_pos rfl]
    rfl

/-- The snapshots of a stop are those of the start that opened its interval. -/
structure Paired (first : Monitor) (here : Surroundings) (last : Monitor) (here' : Surroundings)
    (label : String) (work : Work) : Prop where
  /-- The start reads the threads that are measured at that time. -/
  begun_eq : (first.start here label).log.filterMap begun?
    = if first.countersActive then first.measuredThreads here else []
  nodup : ((first.start here label).log.filterMap begun?).Nodup
  ended_start : (first.start here label).log.filterMap ended? = []
  /-- The stop asks for the same threads in the same order, with what was read then. -/
  ended_eq : (last.stop here' label work).log.filterMap ended?
    = ((first.start here label).log.filterMap begun?).map fun t ↦ ⟨t, here.read t⟩
  begun_stop : (last.stop here' label work).log.filterMap begun? = []
  /-- What it is told is added to the counters of the section. -/
  grows : Reading.GrowsBy (last.sectionOf label).totals.counters
    (((last.stop here' label work).log.filterMap ended?).map fun s ↦
      here'.advance s.thread s.reading)
    ((last.stop here' label work).monitor.sectionOf label).totals.counters

theorem InStep.paired (h : m.InStep) {first : Monitor} (hsetup : m.SetUpAs first)
    (hopened : ∃ i, (first.start here label).result = .ok i) {since : Duration}
    (hrunning : (m.sectionOf label).phase = .running since (first.takeSnapshots here))
    (here' : Surroundings) (work : Work) : first.Paired here m here' label work := by
  obtain ⟨i, hok⟩ := hopened
  have hended : (m.stop here' label work).log.filterMap ended? = first.takeSnapshots here := by
    rw [h.ended_stop hrunning, hsetup.countersActive_eq, takeSnapshots]
    split <;> rfl
  refine
    { begun_eq := by rw [begun_start hok, threads_takeSnapshots]
      nodup := ?_
      ended_start := ended_start hok
      ended_eq := by rw [hended, begun_start hok, ← takeSnapshots_eq_map]
      begun_stop := h.begun_stop hrunning
      grows := ?_ }
  · rw [begun_start hok, threads_takeSnapshots]
    split
    · exact nodup_measuredThreads first here
    · exact List.nodup_nil
  · have hcount : m.countSince here' (first.takeSnapshots here)
        = .total ((first.takeSnapshots here).map fun s ↦ here'.advance s.thread s.reading) := by
      rw [countSince, hsetup.countersActive_eq, takeSnapshots]
      split <;> rfl
    rw [hended, h.counters_stop hrunning, hcount]
    exact Reading.growsBy_total _ _

/-! ## Operations that do not ask for counters -/

/-- What an operation wrote to the log of its monitor. -/
def Answer.log : Answer → List LogEntry
  | .call _ log => log
  | .replica _ notices => notices.map .notice
  | .merge _ log => log
  | .parallel _ log => log
  | .gather _ log => log

theorem log_start_of_refused {v : Violation} (hv : (m.start here label).result = .error v) :
    (m.start here label).log = (m.registration label).map .notice := by
  rw [start] at hv ⊢
  split_ifs at hv ⊢
  · rfl
  · cases hbar : (m.register label).barrier? ((m.register label).sectionAt (m.indexOf label)) with
    | some active => rfl
    | none => simp [hbar] at hv

theorem InStep.log_stop_of_idle (h : m.InStep) (hidle : (m.sectionOf label).phase = .idle)
    (here : Surroundings) (work : Work) : (m.stop here label work).log = [] := by
  rw [stop]
  cases hlookup : m.lookup label with
  | none => rfl
  | some i =>
    obtain ⟨k, s, rfl, hs, rfl⟩ := h.exists_section_of_lookup hlookup
    rw [h.sectionOf_section hs] at hidle
    simp only [sectionAt_of_section hs, hidle]
    rfl

theorem threads_reconcile (m : Monitor) (shares : List Section) :
    LogEntry.threads (m.reconcile shares).log = [] := by
  induction shares generalizing m with
  | nil => rfl
  | cons s rest ih =>
    rw [reconcile]
    cases (if s.binding = .explicit then (m.register s.label).bind (m.indexOf s.label) s.properties
      else .ok (m.register s.label)) with
    | error v => exact LogEntry.threads_notices _
    | ok m₂ => exact (LogEntry.threads_append _ _ (LogEntry.threads_notices _)).trans (ih m₂)

theorem threads_merge (m : Monitor) (replicas : List Monitor) :
    LogEntry.threads (m.merge replicas).log = [] := by
  rw [merge]
  cases replicas.findSome? running? with
  | some s => rfl
  | none =>
    dsimp only
    have hlog := m.threads_reconcile (replicas.flatMap sections)
    split
    · exact hlog
    · exact LogEntry.threads_append _ _ hlog

theorem threads_parallel (m : Monitor) (here : Surroundings)
    (body : ℕ → Monitor → Monitor × Ending) :
    LogEntry.threads (m.parallel here body).log = [] := by
  refine (LogEntry.threads_append _ _ (LogEntry.threads_notices _)).trans ?_
  rw [join]
  split
  · rfl
  · split
    · rfl
    · exact m.threads_merge _

theorem threads_gather (m : Monitor) (now : Duration) (t : Transport) :
    LogEntry.threads ((m.gather now t.rank t.size).answeredBy t 0).log = [] := by
  rw [gather]
  split
  · rfl
  · cases m.running? with
    | some s => rfl
    | none =>
      obtain ⟨labels, rootTimes, events, sections, notices, houtcome⟩ :=
        (handOver_always_concludes ({ m with gathered := true }.stopRoot now) t.rank
          t.size).answeredBy t 0
      rw [houtcome, conclude]
      split <;> exact LogEntry.threads_notices _

/-! ## One thread only -/

theorem measuredThreads_of_scope {t : ℕ} (hscope : m.scope = .thread t) (here : Surroundings) :
    m.measuredThreads here = singleThread t := by
  rw [measuredThreads.eq_def, hscope]

theorem eq_of_mem_singleThread {thread t : ℕ} (h : thread ∈ singleThread t) : thread = t := by
  rw [singleThread] at h
  split at h
  · exact List.mem_singleton.mp h
  · exact absurd h List.not_mem_nil

/-- **What a monitor of one thread asks for.** Whatever is asked of it, no other thread is read. -/
theorem Begins.threads_answer (h : m.Begins) {t : ℕ} (hscope : m.scope = .thread t)
    (ops : List Operation) (op : Operation) :
    ∀ thread ∈ LogEntry.threads ((m.run ops).answer op).log, thread = t := by
  have hquiet {log : List LogEntry} (hlog : LogEntry.threads log = []) :
      ∀ thread ∈ LogEntry.threads log, thread = t := by simp [hlog]
  have hown (before : List Operation) (here : Surroundings) :
      ∀ s ∈ (m.run before).takeSnapshots here, s.thread = t := by
    intro s hs
    rw [(run_edits h.reachable.inStep before).setUpAs.takeSnapshots_eq] at hs
    have hthread := List.mem_map_of_mem (f := Snapshot.thread) hs
    rw [threads_takeSnapshots, measuredThreads_of_scope hscope] at hthread
    split at hthread
    · exact eq_of_mem_singleThread hthread
    · exact absurd hthread List.not_mem_nil
  cases op with
  | call c =>
    cases c with
    | resolve label => exact hquiet (LogEntry.threads_notices _)
    | setProperties label requested =>
      refine hquiet ?_
      change LogEntry.threads ((m.run ops).setProperties label requested).log = []
      rw [setProperties]
      split <;> exact LogEntry.threads_notices _
    | start here label =>
      cases hresult : ((m.run ops).start here label).result with
      | error v => exact hquiet (by
          change LogEntry.threads ((m.run ops).start here label).log = []
          rw [log_start_of_refused hresult]
          exact LogEntry.threads_notices _)
      | ok i =>
        intro thread hthread
        change thread ∈ LogEntry.threads ((m.run ops).start here label).log at hthread
        rw [LogEntry.threads, begun_start hresult, ended_start hresult, List.map_nil,
          List.append_nil] at hthread
        obtain ⟨s, hs, rfl⟩ := List.mem_map.mp hthread
        exact hown ops here s hs
    | stop here label work =>
      cases hphase : ((m.run ops).sectionOf label).phase with
      | idle => exact hquiet (by
          change LogEntry.threads ((m.run ops).stop here label work).log = []
          rw [(h.reachable.run ops).inStep.log_stop_of_idle hphase]
          rfl)
      | running since snapshots =>
        obtain ⟨before, here₀, between, -, rfl, rfl⟩ := h.exists_opening hphase
        intro thread hthread
        change thread ∈ LogEntry.threads ((m.run ops).stop here label work).log at hthread
        rw [LogEntry.threads, (h.reachable.run ops).inStep.begun_stop hphase,
          (h.reachable.run ops).inStep.ended_stop hphase, List.nil_append] at hthread
        split_ifs at hthread
        · obtain ⟨s, hs, rfl⟩ := List.mem_map.mp hthread
          exact hown before here₀ s hs
        · cases hthread
    | reset label =>
      refine hquiet ?_
      change LogEntry.threads ((m.run ops).reset label).log = []
      rw [reset]
      split
      · rfl
      · split
        · rfl
        · rfl
    | resetAll now =>
      refine hquiet ?_
      change LogEntry.threads ((m.run ops).resetAll now).log = []
      rw [resetAll]
      split <;> rfl
  | replica thread => exact hquiet (LogEntry.threads_notices _)
  | merge replicas => exact hquiet (threads_merge _ replicas)
  | parallel here body => exact hquiet (threads_parallel _ here body)
  | gather now t => exact hquiet (threads_gather _ now t)

/-! ## All of it -/

/-- **Snapshots are paired exactly.** A run may be disturbed in any way: sections overlap, the team
is another one at every call, replicas are folded back. Each stop that is not refused has a start of
the same label in the run, since when the label was not started, stopped or emptied. It asks for the
advance of the threads that this start has read and of no others, each of them once and in the same
order, with the snapshots that were taken then. The counters of the section grow by what it is told.

A replica never asks for another thread than its own. -/
theorem Begins.snapshots_paired (h : m.Begins) (ops : List Operation) :
    (∀ here' label work, ((m.run ops).stop here' label work).result = .ok () →
      ∃ before here between, m.OpenedBy ops label before here between ∧
        (m.run before).Paired here (m.run ops) here' label work) ∧
    ∀ (parent : Monitor) (t : ℕ), parent.Reachable → t < Count.limit → m = parent.replica t →
      (∀ op, ∀ thread ∈ LogEntry.threads ((m.run ops).answer op).log, thread = t) ∧
      ∀ here label i, ((m.run ops).start here label).result = .ok i →
        ((m.run ops).start here label).log.filterMap begun?
          = if (m.run ops).countersActive then [t] else [] := by
  have hsetup (before : List Operation) : (m.run before).SetUpAs m :=
    (run_edits h.reachable.inStep before).setUpAs
  refine ⟨fun here' label work hok ↦ ?_, fun parent t hparent ht hm ↦ ?_⟩
  · have hin : (m.run ops).InStep := (h.reachable.run ops).inStep
    obtain ⟨-, hrefused, -⟩ | ⟨-, since, snapshots, -, -, hrunning, -, -⟩ :=
      hin.stop_cases here' label work
    · exact absurd (hok.symm.trans hrefused) (by simp)
    · obtain ⟨before, here, between, hopened, -, rfl⟩ := h.exists_opening hrunning
      have hfirst : (m.run ops).SetUpAs (m.run before) :=
        ⟨(hsetup ops).settings_eq.trans (hsetup before).settings_eq.symm,
          (hsetup ops).events_eq.trans (hsetup before).events_eq.symm,
          (hsetup ops).scope_eq.trans (hsetup before).scope_eq.symm⟩
      exact ⟨before, here, between, hopened,
        hin.paired hfirst hopened.opened hrunning here' work⟩
  · have hscope : m.scope = .thread t := by
      rw [hm, hparent.inStep.replica_eq]
      rfl
    refine ⟨h.threads_answer hscope ops, fun here label i hok ↦ ?_⟩
    rw [begun_start hok, threads_takeSnapshots,
      measuredThreads_of_scope ((hsetup ops).scope_eq.trans hscope), singleThread, if_pos ht]

/-- Surroundings in which a team of some size is seen from outside or, by its thread one, from
inside of a region; the counters show the thread and the time, and advance by the time. -/
def observed (now : ℕ) (size : ℕ) (inside : Bool) : Surroundings where
  now := ⟨now⟩
  team := ⟨size, 1, inside⟩
  read thread := [.ofNat thread, .ofNat now]
  advance thread reading := [.ofNat thread, .ofNat now - reading.count 1]
  derive _ _ := 0

/-- Two sections overlap, and the team of three threads that the outer one was started with is gone
when it is stopped. -/
def overlap : List Operation :=
  [.call (.setProperties "outer" ⟨.computation, false⟩), .call (.start (observed 5 3 false) "outer"),
    .call (.start (observed 7 4 true) "inner"), .call (.stop (observed 8 2 false) "inner" {})]

/-- The stop asks for all three threads, with the counters of that time. A replica that is made
meanwhile for thread two reads only this. -/
theorem overlap_paired :
    let m := build {} (some ["loads", "misses"]) false .zero
    m.Begins ∧ ((m.run overlap).stop (observed 11 1 false) "outer" {}).result = .ok () ∧
      (∃ before here between, m.OpenedBy overlap "outer" before here between ∧
        (m.run before).Paired here (m.run overlap) (observed 11 1 false) "outer" {}) ∧
      ((m.run overlap).stop (observed 11 1 false) "outer" {}).log.filterMap ended?
        = [⟨0, [0, 5]⟩, ⟨1, [1, 5]⟩, ⟨2, [2, 5]⟩] ∧
      ((m.run overlap).replica 2).Begins ∧
      (((m.run overlap).replica 2).start (observed 9 3 false) "tile").log.filterMap begun? = [2] := by
  intro m
  have hbegins : m.Begins := .build ..
  have hok : ((m.run overlap).stop (observed 11 1 false) "outer" {}).result = .ok () := by
    decide +kernel
  have hreplica : ((m.run overlap).replica 2).Begins := .replica 2 (hbegins.reachable.run overlap)
  have htile : (((m.run overlap).replica 2).start (observed 9 3 false) "tile").result = .ok ⟨3⟩ := by
    decide +kernel
  have hactive : ((m.run overlap).replica 2).countersActive = true := by decide +kernel
  have hreads := ((Begins.snapshots_paired hreplica []).2 (m.run overlap) 2
    (hbegins.reachable.run overlap) (by decide) rfl).2 _ _ _ htile
  rw [run_nil, hactive, if_pos rfl] at hreads
  exact ⟨hbegins, hok, (Begins.snapshots_paired hbegins overlap).1 _ _ _ hok, by decide +kernel,
    hreplica, hreads⟩

end Monitor

end SectionMonitor
