import SectionMonitor.Proofs.Replica

/-!
# Clocks with another origin

Only differences of times are measured, so it does not matter what a clock counts from. If all open
intervals have begun later by the same time, and every operation is carried out later by that time,
nothing else changes: the operation answers the same (`answer_later`), takes the same steps with
the other processes, and leaves the same monitor on the later clock (`after_later`).

A timeline is the exception. It holds times and not differences, and as it is never read it is
dropped by the change of the clock.
-/

namespace SectionMonitor

open Exchange (collectReal collectCount)

/-! ## Later times -/

/-- The time that a clock shows which is ahead by `d`. -/
def Duration.later (t d : Duration) : Duration := ⟨t.nanos + d.nanos⟩

namespace Duration

@[simp] theorem later_zero (t : Duration) : t.later .zero = t := rfl

@[simp] theorem zero_later (d : Duration) : zero.later d = d :=
  congrArg Duration.mk (Nat.zero_add d.nanos)

@[simp] theorem saturatingSub_later (t since d : Duration) :
    (t.later d).saturatingSub (since.later d) = t.saturatingSub since :=
  congrArg Duration.mk (Nat.add_sub_add_right t.nanos d.nanos since.nanos)

end Duration

/-- The interval on a clock that is ahead by `d`. -/
def Phase.later (d : Duration) : Phase → Phase
  | .idle => .idle
  | .running since snapshots => .running (since.later d) snapshots

/-- The section on a clock that is ahead by `d`. -/
def Section.later (d : Duration) (s : Section) : Section := { s with phase := s.phase.later d }

/-- The surroundings with a clock that shows other times. -/
def Surroundings.reclock (f : Duration → Duration) (here : Surroundings) : Surroundings :=
  { here with now := f here.now }

/-- The surroundings with a clock that is ahead by `d`. -/
def Surroundings.later (d : Duration) (here : Surroundings) : Surroundings :=
  here.reclock fun t ↦ t.later d

/-- The monitor on a clock that is ahead by `d`, without its timeline. -/
def Monitor.later (d : Duration) (m : Monitor) : Monitor :=
  { m with
    rootSection := m.rootSection.later d
    sections := m.sections.map (Section.later d)
    trace := none }

/-- The outcome on a clock that is ahead by `d`. -/
def Outcome.later {α : Type} (d : Duration) (o : Outcome α) : Outcome α :=
  { o with monitor := o.monitor.later d }

/-- The region on a clock that is ahead by `d`. -/
def Region.later (d : Duration) (region : Region) : Region :=
  { region with monitor := region.monitor.later d }

/-! ## Sections -/

namespace Section

variable (d : Duration) (s : Section)

@[simp] theorem label_later : (s.later d).label = s.label := rfl

@[simp] theorem properties_later : (s.later d).properties = s.properties := rfl

@[simp] theorem binding_later : (s.later d).binding = s.binding := rfl

@[simp] theorem totals_later : (s.later d).totals = s.totals := rfl

@[simp] theorem phase_later : (s.later d).phase = s.phase.later d := rfl

@[simp] theorem isRunning_later : (s.later d).isRunning = s.isRunning := by
  rw [isRunning, isRunning, phase_later]
  cases s.phase <;> rfl

theorem later_bind? (requested : Properties) :
    (s.later d).bind? requested = (s.bind? requested).map (later d) := by
  rw [bind?, bind?, isOpenToBinding, isOpenToBinding, isRunning_later, properties_later,
    binding_later, totals_later]
  split <;> rfl

theorem later_absorb (shares : List Totals) :
    (s.later d).absorb shares = (s.absorb shares).later d := by
  rw [absorb, absorb]
  split <;> rfl

@[simp] theorem later_zero : s.later .zero = s := by
  have hphase : s.phase.later .zero = s.phase := by cases s.phase <;> rfl
  rw [later, hphase]

end Section

namespace Monitor

/-! ## What is looked at -/

section Looking

variable (d : Duration) (m : Monitor)

@[simp] theorem lookup_later (label : String) : (m.later d).lookup label = m.lookup label := rfl

@[simp] theorem indexOf_later (label : String) : (m.later d).indexOf label = m.indexOf label := rfl

@[simp] theorem gathered_later : (m.later d).gathered = m.gathered := rfl

@[simp] theorem sections_later : (m.later d).sections = m.sections.map (Section.later d) := rfl

@[simp] theorem rootSection_later : (m.later d).rootSection = m.rootSection.later d := rfl

@[simp] theorem registration_later (label : String) :
    (m.later d).registration label = m.registration label := rfl

@[simp] theorem barrier?_later (s : Section) :
    (m.later d).barrier? (s.later d) = m.barrier? s := rfl

@[simp] theorem takeSnapshots_later (here : Surroundings) :
    (m.later d).takeSnapshots (here.later d) = m.takeSnapshots here := rfl

@[simp] theorem sectionAt_later (i : Index) :
    (m.later d).sectionAt i = (m.sectionAt i).later d := by
  obtain ⟨_ | i⟩ := i
  · rfl
  · simp only [sectionAt, sectionAt?, sections_later, rootSection_later, List.getElem?_map,
      Option.getD_map]

@[simp] theorem running?_later :
    (m.later d).running? = m.running?.map (Section.later d) := by
  rw [running?, running?, sections_later, List.find?_map]
  exact congrArg (Option.map _ <| List.find? · m.sections)
    (funext fun s ↦ s.isRunning_later d)

end Looking

/-! ## Calls -/

/-- The call with a clock that shows other times. -/
def Call.reclock (f : Duration → Duration) : Call → Call
  | .start here label => .start (here.reclock f) label
  | .stop here label work => .stop (here.reclock f) label work
  | .resetAll now => .resetAll (f now)
  | c => c

/-- The call on a clock that is ahead by `d`. -/
def Call.later (d : Duration) (c : Call) : Call := c.reclock fun t ↦ t.later d

section Calls

variable (d : Duration) (m : Monitor)

/-- A change that is the same on both clocks. -/
theorem later_modifySection (i : Index) {f g : Section → Section}
    (hfg : ∀ s, g (s.later d) = (f s).later d) :
    (m.later d).modifySection i g = (m.modifySection i f).later d := by
  obtain ⟨_ | i⟩ := i
  · simp only [modifySection, later, hfg]
  · have hsections : (m.sections.map (Section.later d)).modify i g
        = (m.sections.modify i f).map (Section.later d) := by
      refine List.ext_getElem? fun k ↦ ?_
      simp only [List.getElem?_map, List.getElem?_modify]
      cases m.sections[k]? with
      | none => rfl
      | some s =>
        by_cases hk : i = k
        · simp [hk, hfg]
        · simp [hk]
    simp only [modifySection, later, hsections]

theorem later_register (label : String) :
    (m.later d).register label = (m.register label).later d := by
  rw [register, register, lookup_later]
  cases m.lookup label with
  | some i => rfl
  | none => simp only [later, record, List.map_append]; rfl

theorem later_openInterval (here : Surroundings) (i : Index) :
    (m.later d).openInterval (here.later d) i = (m.openInterval here i).later d := by
  have hopened := m.later_modifySection d i
    (f := fun s ↦ { s with phase := .running here.now (m.takeSnapshots here) })
    (g := fun s ↦ { s with phase := .running (here.later d).now (m.takeSnapshots here) })
    fun s ↦ rfl
  rw [openInterval, openInterval, takeSnapshots_later, hopened, sectionAt_later]
  rfl

theorem later_closeInterval (here : Surroundings) (i : Index) (elapsed : Duration)
    (volume : Float) (counted : Reading) :
    (m.later d).closeInterval (here.later d) i elapsed volume counted
      = (m.closeInterval here i elapsed volume counted).later d := by
  have hclosed := m.later_modifySection d i (f := fun s ↦ s.finish elapsed volume counted)
    (g := fun s ↦ s.finish elapsed volume counted) fun s ↦ rfl
  rw [closeInterval, closeInterval, hclosed]
  rfl

/-- Binding fails for the same reason, or leaves the same monitor. -/
theorem later_bind (i : Index) (requested : Properties) :
    (m.later d).bind i requested = (m.bind i requested).map (later d) := by
  rw [bind, bind, sectionAt_later, Section.later_bind?]
  cases (m.sectionAt i).bind? requested with
  | none => rfl
  | some bound => exact congrArg Except.ok (m.later_modifySection d i fun s ↦ rfl)

theorem later_setProperties (label : String) (requested : Properties) :
    (m.later d).setProperties label requested = (m.setProperties label requested).later d := by
  simp only [setProperties, indexOf_later, registration_later, later_register, later_bind]
  cases (m.register label).bind (m.indexOf label) requested <;> rfl

theorem later_start (here : Surroundings) (label : String) :
    (m.later d).start (here.later d) label = (m.start here label).later d := by
  simp only [start, indexOf_later, registration_later, later_register, sectionAt_later,
    Section.isRunning_later, barrier?_later, takeSnapshots_later, later_openInterval]
  split
  · rfl
  · cases (m.register label).barrier? ((m.register label).sectionAt (m.indexOf label)) <;> rfl

theorem later_stop (here : Surroundings) (label : String) (work : Work) :
    (m.later d).stop (here.later d) label work = (m.stop here label work).later d := by
  rw [stop, stop, lookup_later]
  cases m.lookup label with
  | none => rfl
  | some i =>
    simp only [sectionAt_later, Section.phase_later]
    cases (m.sectionAt i).phase with
    | idle => rfl
    | running since snapshots =>
      have helapsed : (here.later d).now.saturatingSub (since.later d)
          = here.now.saturatingSub since := Duration.saturatingSub_later ..
      simp only [Phase.later, helapsed, later_closeInterval]
      rfl

theorem later_reset (label : String) : (m.later d).reset label = (m.reset label).later d := by
  rw [reset, reset, lookup_later]
  cases m.lookup label with
  | none => rfl
  | some i =>
    simp only [sectionAt_later, Section.isRunning_later,
      m.later_modifySection d i (f := Section.clear) (g := Section.clear) fun s ↦ rfl]
    split <;> rfl

theorem later_restartRoot (root : Section) (now : Duration) :
    restartRoot (root.later d) (now.later d) = (restartRoot root now).later d := by
  simp only [restartRoot, Section.isRunning_later]
  split <;> rfl

theorem later_resetAll (now : Duration) :
    (m.later d).resetAll (now.later d) = (m.resetAll now).later d := by
  rw [resetAll, resetAll, running?_later]
  cases m.running? with
  | some s => rfl
  | none =>
    simp only [Option.map_none, rootSection_later, later_restartRoot]
    rfl

/-- **One call.** It does the same to a monitor on a later clock. -/
theorem later_perform (c : Call) : (m.later d).perform (c.later d) = (m.perform c).later d := by
  cases c with
  | resolve label =>
    have hresolve : (m.later d).resolve label = (m.resolve label).later d := by
      rw [resolve, later_register]
      rfl
    exact congrArg (Outcome.map some) hresolve
  | setProperties label requested =>
    exact congrArg (Outcome.map some) (m.later_setProperties d label requested)
  | start here label => exact congrArg (Outcome.map some) (m.later_start d here label)
  | stop here label work =>
    exact congrArg (Outcome.map fun _ ↦ none) (m.later_stop d here label work)
  | reset label => exact congrArg (Outcome.map fun _ ↦ none) (m.later_reset d label)
  | resetAll now => exact congrArg (Outcome.map fun _ ↦ none) (m.later_resetAll d now)

end Calls

/-! ## Replicas and regions -/

section Replicas

variable (d : Duration) (m : Monitor)

theorem later_adopt (parent : Section) : (m.later d).adopt parent = (m.adopt parent).later d := by
  rw [adopt, adopt, later_register, indexOf_later]
  exact (m.register parent.label).later_modifySection d _ fun s ↦ rfl

theorem later_adoptAll (parents : List Section) (m : Monitor) :
    (m.later d).adoptAll parents
      = ((m.adoptAll parents).1.later d, (m.adoptAll parents).2) := by
  induction parents generalizing m with
  | nil => rfl
  | cons parent rest ih => simp only [adoptAll, later_adopt, ih, registration_later]

/-- It makes no difference when the intervals of the parent began. -/
theorem adoptAll_map_later (parents : List Section) (m : Monitor) :
    m.adoptAll (parents.map (Section.later d)) = m.adoptAll parents := by
  induction parents generalizing m with
  | nil => rfl
  | cons parent rest ih =>
    simp only [List.map_cons, adoptAll, Section.label_later, ← ih]
    rfl

/-- A replica does not depend on the clock of its parent. -/
theorem replicate_later (thread : ℕ) : (m.later d).replicate thread = m.replicate thread := by
  rw [replicate, replicate, sections_later]
  exact congrArg
    (fun made : Monitor × List Notice ↦ ({ made.1 with token := m.token }, made.2))
    (adoptAll_map_later d m.sections (blank m.settings m.events (.thread thread) .idle))

theorem replica_later (thread : ℕ) : (m.later d).replica thread = m.replica thread :=
  congrArg Prod.fst (m.replicate_later d thread)

/-- Nothing runs in a replica, so it begins in the same way on every clock. -/
theorem later_replica (thread : ℕ) : (m.replica thread).later d = m.replica thread := by
  have hblank := later_adoptAll d m.sections (blank m.settings m.events (.thread thread) .idle)
  exact congrArg (fun made : Monitor × List Notice ↦ { made.1 with token := m.token })
    hblank.symm

theorem later_reconcile (shares : List Section) (m : Monitor) :
    (m.later d).reconcile (shares.map (Section.later d)) = (m.reconcile shares).later d := by
  induction shares generalizing m with
  | nil => rfl
  | cons s rest ih =>
    have hbound : (if s.binding = .explicit then
          ((m.register s.label).later d).bind (m.indexOf s.label) s.properties
        else .ok ((m.register s.label).later d))
        = (if s.binding = .explicit then (m.register s.label).bind (m.indexOf s.label) s.properties
          else .ok (m.register s.label)).map (later d) := by
      rw [later_bind]
      split <;> rfl
    simp only [List.map_cons, reconcile, Section.label_later, Section.binding_later,
      Section.properties_later, indexOf_later, registration_later, later_register, hbound]
    cases (if s.binding = .explicit then (m.register s.label).bind (m.indexOf s.label) s.properties
      else .ok (m.register s.label)) with
    | error v => rfl
    | ok m₂ =>
      simp only [Except.map, ih]
      rfl

theorem later_absorb (shares : List Section) :
    (m.later d).absorb (shares.map (Section.later d)) = (m.absorb shares).later d := by
  have hshares (label : String) :
      sharesOf (shares.map (Section.later d)) label = sharesOf shares label := by
    rw [sharesOf, sharesOf, List.filter_map, List.map_map]
    rfl
  have hsections : (m.sections.map (Section.later d)).map (fun s ↦
        s.absorb (sharesOf (shares.map (Section.later d)) s.label))
      = (m.sections.map fun s ↦ s.absorb (sharesOf shares s.label)).map (Section.later d) := by
    rw [List.map_map, List.map_map]
    refine List.map_congr_left fun s _ ↦ ?_
    rw [Function.comp_apply, Function.comp_apply, hshares, Section.label_later,
      Section.later_absorb]
  simp only [absorb, later, hsections]

/-- The replicas hold what the others hold, on a clock that is ahead by `d`. -/
def SharesLater (d : Duration) (replicas replicas' : List Monitor) : Prop :=
  replicas'.map sections = replicas.map fun r ↦ r.sections.map (Section.later d)

theorem sharesLater_map (replicas : List Monitor) :
    SharesLater d replicas (replicas.map (later d)) := by
  rw [SharesLater, List.map_map]
  rfl

/-- **A merge.** Only the sections of the replicas matter to it. -/
theorem later_merge {replicas replicas' : List Monitor} (h : SharesLater d replicas replicas') :
    (m.later d).merge replicas' = (m.merge replicas).later d := by
  have hlength : replicas'.length = replicas.length := by
    simpa using congrArg List.length h
  have hshares : replicas'.flatMap sections
      = (replicas.flatMap sections).map (Section.later d) := by
    rw [List.map_flatMap, List.flatMap_def, List.flatMap_def]
    exact congrArg List.flatten h
  have hsections (rs : List Monitor) :
      rs.findSome? running? = (rs.map sections).findSome? (List.find? Section.isRunning) := by
    rw [List.findSome?_map]
    rfl
  have hrunning : replicas'.findSome? running?
      = (replicas.findSome? running?).map (Section.later d) := by
    rw [hsections, h, List.findSome?_map, List.map_findSome?]
    exact congrArg (List.findSome? · replicas) (funext fun r ↦ r.running?_later d)
  simp only [merge, hrunning, hshares, later_reconcile, hlength]
  cases replicas.findSome? running? with
  | some s => rfl
  | none =>
    simp only [Option.map_none, Outcome.later]
    cases (m.reconcile (replicas.flatMap sections)).result with
    | error v => rfl
    | ok _ =>
      simp only [later_absorb]

/-- The threads of a region end their work in the same way, and hand back the same on a clock that
is ahead by `d`. -/
structure BodyLater (d : Duration) (m : Monitor) (body body' : ℕ → Monitor → Monitor × Ending) :
    Prop where
  shares_eq : ∀ thread, (body' thread (m.replica thread)).1.sections
    = (body thread (m.replica thread)).1.sections.map (Section.later d)
  ending_eq : ∀ thread,
    (body' thread (m.replica thread)).2 = (body thread (m.replica thread)).2

theorem later_join {done done' : List (Monitor × Ending)}
    (hshares : SharesLater d (done.map Prod.fst) (done'.map Prod.fst))
    (hendings : done'.map Prod.snd = done.map Prod.snd) :
    (m.later d).join done' = (m.join done).later d := by
  have hfirst {α : Type} (told : Ending → Option α) :
      done'.findSome? (fun d ↦ told d.2) = done.findSome? fun d ↦ told d.2 := by
    have hsame := congrArg (List.findSome? told) hendings
    rwa [List.findSome?_map, List.findSome?_map] at hsame
  simp only [join, hfirst, later_merge d m hshares]
  split
  · rfl
  · split <;> rfl

/-- **A region.** Its threads begin with the same replicas. -/
theorem later_parallel (here : Surroundings) {body body' : ℕ → Monitor → Monitor × Ending}
    (h : m.BodyLater d body body') :
    (m.later d).parallel (here.later d) body' = (m.parallel here body).later d := by
  have hcrew : (m.later d).crew (here.later d) = m.crew here :=
    List.map_congr_left fun thread _ ↦ m.replicate_later d thread
  have hjoin : (m.later d).join ((m.crew here).mapIdx fun thread r ↦ body' thread r.1)
      = (m.join ((m.crew here).mapIdx fun thread r ↦ body thread r.1)).later d := by
    rw [mapIdx_crew, mapIdx_crew]
    apply later_join
    · simp only [SharesLater, List.map_map]
      exact List.map_congr_left fun thread _ ↦ h.shares_eq thread
    · simp only [List.map_map]
      exact List.map_congr_left fun thread _ ↦ h.ending_eq thread
  rw [parallel, parallel, hcrew]
  simp only [hjoin]
  rfl

end Replicas

/-! ## Gathering -/

section Gathering

variable (d : Duration) (m : Monitor)

theorem later_registerAll (labels : List String) (m : Monitor) :
    (m.later d).registerAll labels
      = ((m.registerAll labels).1.later d, (m.registerAll labels).2) := by
  induction labels generalizing m with
  | nil => rfl
  | cons label rest ih => simp only [registerAll, later_register, ih, registration_later]

theorem later_stopRoot (now : Duration) :
    (m.later d).stopRoot (now.later d) = (m.stopRoot now).later d := by
  rw [stopRoot, stopRoot, rootSection_later, Section.phase_later]
  cases m.rootSection.phase with
  | idle => rfl
  | running since snapshots =>
    simp only [Phase.later, Duration.saturatingSub_later]
    rfl

theorem later_conclude (rank : ℕ) (rootTimes : List Float) (events : List String)
    (sections : List SectionSummary) (notices : List Notice) :
    (m.later d).conclude rank rootTimes events sections notices
      = (m.conclude rank rootTimes events sections notices).later d := by
  rw [conclude, conclude]
  split <;> rfl

/-- **The exchange.** The steps with the other processes are the same ones, and so is what becomes
of the answers. -/
theorem later_handOver (rank size : ℕ) :
    (m.later d).handOver rank size = (m.handOver rank size).bind fun o ↦ .done (o.later d) := by
  have hlabels : (m.later d).agreeLabels = m.agreeLabels := rfl
  have hsections (labels : List String) (m : Monitor) (distributed : Bool) (events : ℕ) :
      Exchange.sequence (fun label ↦ collectSection distributed events
        ((m.later d).sectionAt ((m.later d).indexOf label))) labels
      = Exchange.sequence (fun label ↦ collectSection distributed events
        (m.sectionAt (m.indexOf label))) labels := by
    simp only [sectionAt_later, indexOf_later]
    rfl
  have hevents (m : Monitor) : (m.later d).agreeEvents = m.agreeEvents := rfl
  have hnotices (m : Monitor) (agreed : List String) :
      (m.later d).eventNotices rank agreed = m.eventNotices rank agreed := rfl
  have hroot (m : Monitor) : (m.later d).rootSection.totals = m.rootSection.totals := rfl
  rw [handOver, handOver]
  by_cases hsize : 1 < size
  · simp only [decide_eq_true hsize, if_true, Exchange.bind_eq, Exchange.pure_eq, hlabels,
      later_registerAll, hevents, hroot, hnotices, hsections, later_conclude,
      Exchange.bind_assoc, Exchange.bind]
  · simp only [decide_eq_false hsize, Bool.false_eq_true, if_false, Exchange.bind_eq,
      Exchange.pure_eq, Exchange.bind, hroot, hsections, later_conclude, Exchange.bind_assoc]
    rfl

theorem later_gather (now : Duration) (rank size : ℕ) :
    (m.later d).gather (now.later d) rank size
      = (m.gather now rank size).bind fun o ↦ .done (o.later d) := by
  have hstopped : ({ m.later d with gathered := true } : Monitor).stopRoot (now.later d)
      = (({ m with gathered := true } : Monitor).stopRoot now).later d :=
    later_stopRoot d { m with gathered := true } now
  simp only [gather, running?_later, gathered_later, hstopped, later_handOver]
  split
  · rfl
  · cases m.running? <;> rfl

theorem later_gather_answeredBy (now : Duration) (t : Transport) :
    ((m.later d).gather (now.later d) t.rank t.size).answeredBy t 0
      = ((m.gather now t.rank t.size).answeredBy t 0).later d := by
  rw [later_gather, Exchange.answeredBy_bind_done]

end Gathering

/-! ## Operations -/

/-- The operation of one monitor is that of another on a clock that is ahead by `d`: with later
times, and with replicas and threads that have measured on that clock as well. -/
inductive Operation.Later (d : Duration) (m : Monitor) : Operation → Operation → Prop
  | call (c : Call) : Later d m (.call c) (.call (c.later d))
  | replica (thread : ℕ) : Later d m (.replica thread) (.replica thread)
  | merge {replicas replicas' : List Monitor} (h : SharesLater d replicas replicas') :
      Later d m (.merge replicas) (.merge replicas')
  | parallel (here : Surroundings) {body body' : ℕ → Monitor → Monitor × Ending}
      (h : m.BodyLater d body body') :
      Later d m (.parallel here body) (.parallel (here.later d) body')
  | gather (now : Duration) (t : Transport) : Later d m (.gather now t) (.gather (now.later d) t)

section Operations

variable {d : Duration} {m : Monitor} {op op' : Operation}

/-- **One operation.** The monitor on a later clock answers the same. -/
theorem answer_later (h : op.Later d m op') : (m.later d).answer op' = m.answer op := by
  cases h with
  | call c => rw [answer, answer, later_perform]; rfl
  | replica thread => rw [answer, answer, replicate_later]
  | merge h => rw [answer, answer, later_merge d m h]; rfl
  | parallel here h => rw [answer, answer, later_parallel d m here h]; rfl
  | gather now t => rw [answer, answer, later_gather_answeredBy]; rfl

theorem after_later (h : op.Later d m op') : (m.later d).after op' = (m.after op).later d := by
  cases h with
  | call c => rw [after, after, later_perform]; rfl
  | replica thread => rfl
  | merge h => rw [after, after, later_merge d m h]; rfl
  | parallel here h => rw [after, after, later_parallel d m here h]; rfl
  | gather now t => rw [after, after, later_gather_answeredBy]; rfl

end Operations

end Monitor

end SectionMonitor
