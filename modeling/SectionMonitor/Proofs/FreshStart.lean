import SectionMonitor.Proofs.Deeds
import SectionMonitor.Proofs.Program
import SectionMonitor.Proofs.Untraced
import SectionMonitor.Proofs.WallTime

/-!
# Starting over is starting

Forgetting everything leaves a monitor that no program can tell from one that was just built. Two
things do differ: the times at which intervals began, which a program never gets to see, and the
timeline, which goes on. So the two are compared by what a program is told and shown on the way
(`Program.observations`), while the clock of the new monitor shows other times by a constant.

The proof compares both with one monitor that was built at time zero. By the change of the clock
(`SectionMonitor.Proofs.ClockShift`) a program does with it on an early clock what it does on a
later one (`Program.Discreet.runsLater`), and a timeline is dropped in the same way.
-/

namespace SectionMonitor

open Monitor (Operation)

/-! ## What a program can see -/

/-- The interval without the time at which it began. -/
def Phase.shown : Phase → Phase
  | .idle => .idle
  | .running _ snapshots => .running .zero snapshots

/-- The section without the time at which its open interval began. -/
def Section.shown (s : Section) : Section := { s with phase := s.phase.shown }

/-- The monitor without the times at which its open intervals began, and without its timeline. No
program is shown more of it. -/
def Monitor.shown (m : Monitor) : Monitor :=
  { m with
    rootSection := m.rootSection.shown
    sections := m.sections.map Section.shown
    trace := none }

theorem Section.shown_later (d : Duration) (s : Section) : (s.later d).shown = s.shown := by
  have hphase : (s.phase.later d).shown = s.phase.shown := by cases s.phase <;> rfl
  rw [shown, phase_later, hphase, shown, later]

namespace Monitor

theorem shown_later (d : Duration) (m : Monitor) : (m.later d).shown = m.shown := by
  have hsections : (m.sections.map (Section.later d)).map Section.shown
      = m.sections.map Section.shown := by
    rw [List.map_map]
    exact List.map_congr_left fun s _ ↦ s.shown_later d
  simp only [shown, sections_later, rootSection_later, Section.shown_later, hsections]
  rfl

theorem map_shown_later (d : Duration) (ms : List Monitor) :
    (ms.map (later d)).map shown = ms.map shown := by
  rw [List.map_map]
  exact List.map_congr_left fun m _ ↦ m.shown_later d

theorem Call.reclock_reclock (f g : Duration → Duration) (c : Call) :
    (c.reclock g).reclock f = c.reclock (f ∘ g) := by
  cases c <;> rfl

theorem Call.reclock_eq (c : Call) {start : Duration} {f : Duration → Duration}
    (h : start.nanos ≤ (c.clock start).nanos)
    (hf : ∀ t : Duration, start.nanos ≤ t.nanos → f t = t) : c.reclock f = c := by
  have hhere {here : Surroundings} (hnow : start.nanos ≤ here.now.nanos) :
      here.reclock f = here := by
    rw [Surroundings.reclock, hf here.now hnow]
  cases c with
  | start here label => exact congrArg (Call.start · label) (hhere h)
  | stop here label work => exact congrArg (Call.stop · label work) (hhere h)
  | resetAll now => exact congrArg Call.resetAll (hf now h)
  | resolve label => rfl
  | setProperties label requested => rfl
  | reset label => rfl

end Monitor

/-- What a program learns from a deed: the answer, and what is to be seen of its monitors then. -/
structure Observation where
  answer : Monitor.Answer
  monitors : List Monitor

namespace Program

/-- All that a program is told and shown in a run, the threads of its regions included. -/
def observations : Program → List Monitor → List Observation
  | done _, _ => []
  | look next, ms => (next ms).observations ms
  | call who c next, ms => ms[who]?.elim [] fun m ↦
      let left := ms.set who (m.after (.call c))
      ⟨m.answer (.call c), left.map .shown⟩ :: (next (m.perform c).result).observations left
  | replica who thread next, ms => ms[who]?.elim [] fun m ↦
      let left := ms ++ [m.replica thread]
      ⟨m.answer (.replica thread), left.map .shown⟩ :: next.observations left
  | merge who replicas next, ms => ms[who]?.elim [] fun m ↦
      let merged := replicas.filterMap fun r ↦ ms[r]?
      let left := ms.set who (m.after (.merge merged))
      ⟨m.answer (.merge merged), left.map .shown⟩ ::
        (next (m.merge merged).result).observations left
  | parallel who here body next, ms => ms[who]?.elim [] fun m ↦
      let work := fun thread r ↦ handBack r ((body thread).run [r])
      let left := ms.set who (m.after (.parallel here work))
      ((List.range here.team.threads).flatMap fun thread ↦
          (body thread).observations [m.replica thread]) ++
        ⟨m.answer (.parallel here work), left.map .shown⟩ ::
          (next (m.parallel here work).ending).observations left
  | gather who now t next, ms => ms[who]?.elim [] fun m ↦
      let left := ms.set who (m.after (.gather now t))
      ⟨m.answer (.gather now t), left.map .shown⟩ ::
        (next ((m.gather now t.rank t.size).answeredBy t 0).result).observations left

/-- The program goes by what it is shown, wherever it looks at its monitors. -/
def Discreet : Program → Prop
  | done _ => True
  | look next => (∀ ms ms', ms.map Monitor.shown = ms'.map Monitor.shown → next ms = next ms') ∧
      ∀ ms, (next ms).Discreet
  | call _ _ next => ∀ result, (next result).Discreet
  | replica _ _ next => next.Discreet
  | merge _ _ next => ∀ result, (next result).Discreet
  | parallel _ _ body next => (∀ thread, (body thread).Discreet) ∧ ∀ ending, (next ending).Discreet
  | gather _ _ _ next => ∀ result, (next result).Discreet

/-! ## Other clocks -/

/-- The program with the clock showing other times. -/
def reclock (f : Duration → Duration) : Program → Program
  | done ending => done ending
  | look next => look fun ms ↦ (next ms).reclock f
  | call who c next => call who (c.reclock f) fun result ↦ (next result).reclock f
  | replica who thread next => replica who thread (next.reclock f)
  | merge who replicas next => merge who replicas fun result ↦ (next result).reclock f
  | parallel who here body next =>
    parallel who (here.reclock f) (fun thread ↦ (body thread).reclock f)
      fun ending ↦ (next ending).reclock f
  | gather who now t next => gather who (f now) t fun result ↦ (next result).reclock f

/-- The clock shows no time before `start` while the program runs. -/
def NotBefore (start : Duration) : Program → Prop
  | done _ => True
  | look next => ∀ ms, (next ms).NotBefore start
  | call _ c next => start.nanos ≤ (c.clock start).nanos ∧ ∀ result, (next result).NotBefore start
  | replica _ _ next => next.NotBefore start
  | merge _ _ next => ∀ result, (next result).NotBefore start
  | parallel _ here body next => start.nanos ≤ here.now.nanos ∧
      (∀ thread, (body thread).NotBefore start) ∧ ∀ ending, (next ending).NotBefore start
  | gather _ now _ next => start.nanos ≤ now.nanos ∧ ∀ result, (next result).NotBefore start

/-- The program on a clock that is ahead by `d`. -/
def later (d : Duration) (p : Program) : Program := p.reclock fun t ↦ t.later d

theorem reclock_reclock (f g : Duration → Duration) (p : Program) :
    (p.reclock g).reclock f = p.reclock (f ∘ g) := by
  induction p with
  | done ending => rfl
  | look next ih => simp only [reclock, ih]
  | call who c next ih => simp only [reclock, ih, c.reclock_reclock]
  | replica who thread next ih => simp only [reclock, ih]
  | merge who replicas next ih => simp only [reclock, ih]
  | parallel who here body next ihBody ih =>
    simp only [reclock, ih, ihBody]
    rfl
  | gather who now t next ih => simp only [reclock, ih, Function.comp_apply]

/-- Only the times that the clock really shows matter. -/
theorem NotBefore.reclock_eq {start : Duration} {p : Program} (h : p.NotBefore start)
    {f : Duration → Duration} (hf : ∀ t : Duration, start.nanos ≤ t.nanos → f t = t) :
    p.reclock f = p := by
  induction p with
  | done ending => rfl
  | look next ih =>
    simp only [reclock, ih _ (h _)]
  | call who c next ih => simp only [reclock, ih _ (h.2 _), c.reclock_eq h.1 hf]
  | replica who thread next ih => simp only [reclock, ih h]
  | merge who replicas next ih => simp only [reclock, ih _ (h _)]
  | parallel who here body next ihBody ih =>
    simp only [reclock, ih _ (h.2.2 _), ihBody _ (h.2.1 _), Surroundings.reclock, hf _ h.1]
  | gather who now t next ih => simp only [reclock, ih _ (h.2 _), hf _ h.1]

theorem notBefore_zero (p : Program) : p.NotBefore .zero := by
  induction p with
  | done ending => trivial
  | look next ih => exact ih
  | call who c next ih => exact ⟨Nat.zero_le _, ih⟩
  | replica who thread next ih => exact ih
  | merge who replicas next ih => exact ih
  | parallel who here body next ihBody ih => exact ⟨Nat.zero_le _, ihBody, ih⟩
  | gather who now t next ih => exact ⟨Nat.zero_le _, ih⟩

theorem later_zero (p : Program) : p.later .zero = p :=
  p.notBefore_zero.reclock_eq fun _ _ ↦ rfl

theorem Discreet.reclock {p : Program} (h : p.Discreet) (f : Duration → Duration) :
    (p.reclock f).Discreet := by
  induction p with
  | done ending => trivial
  | look next ih =>
    refine ⟨fun ms ms' hshown ↦ ?_, fun ms ↦ ih ms (h.2 ms)⟩
    simp only [h.1 ms ms' hshown]
  | call who c next ih => exact fun result ↦ ih result (h result)
  | replica who thread next ih => exact ih h
  | merge who replicas next ih => exact fun result ↦ ih result (h result)
  | parallel who here body next ihBody ih =>
    exact ⟨fun thread ↦ ihBody thread (h.1 thread), fun ending ↦ ih ending (h.2 ending)⟩
  | gather who now t next ih => exact fun result ↦ ih result (h result)

/-! ## The same run on a later clock -/

/-- On a clock that is ahead by `d` the program ends in the same way with the same monitors, and is
told and shown the same on the way. -/
structure RunsLater (d : Duration) (p : Program) (ms : List Monitor) : Prop where
  run_eq : (p.later d).run (ms.map (Monitor.later d))
    = ((p.run ms).1, (p.run ms).2.map (Monitor.later d))
  observations_eq : (p.later d).observations (ms.map (Monitor.later d)) = p.observations ms

section Later

variable {d : Duration} {ms : List Monitor} {m : Monitor}

theorem turnTo_later {f f' : Monitor → Ending × List Monitor}
    (h : ∀ m, f' (Monitor.later d m) = ((f m).1, (f m).2.map (Monitor.later d))) (who : ℕ) :
    turnTo (ms.map (Monitor.later d)) who f'
      = ((turnTo ms who f).1, (turnTo ms who f).2.map (Monitor.later d)) := by
  rw [turnTo, turnTo, List.getElem?_map]
  cases ms[who]? with
  | none => rfl
  | some m => exact h m

theorem elim_later {g g' : Monitor → List Observation} (h : ∀ m, g' (Monitor.later d m) = g m)
    (who : ℕ) : (ms.map (Monitor.later d))[who]?.elim [] g' = ms[who]?.elim [] g := by
  rw [List.getElem?_map]
  cases ms[who]? with
  | none => rfl
  | some m => exact h m

theorem set_later {op op' : Operation} (hop : op.Later d m op') (ms : List Monitor) (who : ℕ) :
    (ms.map (Monitor.later d)).set who ((m.later d).after op')
      = (ms.set who (m.after op)).map (Monitor.later d) := by
  rw [List.map_set, Monitor.after_later hop]

/-- The monitors of some numbers, which are to be folded into another one. -/
theorem sharesLater_filterMap (numbers : List ℕ) (ms : List Monitor) :
    Monitor.SharesLater d (numbers.filterMap fun r ↦ ms[r]?)
      (numbers.filterMap fun r ↦ (ms.map (Monitor.later d))[r]?) := by
  have hmap : (numbers.filterMap fun r ↦ (ms.map (Monitor.later d))[r]?)
      = (numbers.filterMap fun r ↦ ms[r]?).map (Monitor.later d) := by
    simp only [List.getElem?_map, List.map_filterMap]
  rw [hmap]
  exact Monitor.sharesLater_map d _

/-- A deed of one monitor, which leaves others and is followed by the rest of the program. -/
theorem deed_later {op op' : Operation} {left left' : List Monitor} {p p' : Program}
    (hop : op.Later d m op') (hleft : left' = left.map (Monitor.later d)) (hp : p' = p)
    (h : p.RunsLater d left) :
    (p'.later d).run left' = ((p.run left).1, (p.run left).2.map (Monitor.later d)) ∧
      (⟨(m.later d).answer op', left'.map .shown⟩ :: (p'.later d).observations left' :
          List Observation)
        = ⟨m.answer op, left.map .shown⟩ :: p.observations left := by
  rw [hleft, hp, Monitor.answer_later hop, Monitor.map_shown_later, h.observations_eq]
  exact ⟨h.run_eq, rfl⟩

/-- A thread that has only its replica hands back the same on a later clock. -/
theorem bodyLater {body : ℕ → Program}
    (h : ∀ thread, (body thread).RunsLater d [m.replica thread]) :
    m.BodyLater d (fun thread r ↦ handBack r ((body thread).run [r]))
      fun thread r ↦ handBack r (((body thread).later d).run [r]) := by
  have hrun (thread : ℕ) : ((body thread).later d).run [m.replica thread]
      = (((body thread).run [m.replica thread]).1,
          ((body thread).run [m.replica thread]).2.map (Monitor.later d)) := by
    have hown := (h thread).run_eq
    rwa [List.map_singleton, m.later_replica] at hown
  constructor
  · intro thread
    rw [hrun, handBack, handBack]
    cases ((body thread).run [m.replica thread]).2 with
    | nil => exact congrArg Monitor.sections (m.later_replica d thread).symm
    | cons first rest => rfl
  · intro thread
    rw [hrun, handBack, handBack]

/-- **A run on a later clock.** -/
theorem Discreet.runsLater {p : Program} (h : p.Discreet) (d : Duration) (ms : List Monitor) :
    p.RunsLater d ms := by
  induction p generalizing ms with
  | done ending => exact ⟨rfl, rfl⟩
  | look next ih =>
    have hrest := ih ms (h.2 ms) ms
    have hnext : next (ms.map (Monitor.later d)) = next ms :=
      h.1 _ _ (Monitor.map_shown_later d ms)
    constructor
    · change ((next (ms.map (Monitor.later d))).later d).run _ = _
      rw [hnext, hrest.run_eq]
      rfl
    · change ((next (ms.map (Monitor.later d))).later d).observations _ = _
      rw [hnext, hrest.observations_eq]
      rfl
  | call who c next ih =>
    have hop (m : Monitor) : (Operation.call c).Later d m (.call (c.later d)) := .call c
    have hresult (m : Monitor) := congrArg Outcome.result (m.later_perform d c)
    have hdeed (m : Monitor) := deed_later (hop m) (set_later (hop m) ms who)
      (congrArg next (hresult m)) (ih _ (h _) _)
    constructor
    · exact turnTo_later (fun m ↦ (hdeed m).1) who
    · exact elim_later (fun m ↦ (hdeed m).2) who
  | replica who thread next ih =>
    have hop (m : Monitor) : (Operation.replica thread).Later d m (.replica thread) :=
      .replica thread
    have hleft (m : Monitor) : ms.map (Monitor.later d) ++ [(m.later d).replica thread]
        = (ms ++ [m.replica thread]).map (Monitor.later d) := by
      rw [m.replica_later, List.map_append, List.map_singleton, m.later_replica]
    have hdeed (m : Monitor) := deed_later (hop m) (hleft m) rfl (ih h _)
    constructor
    · exact turnTo_later (fun m ↦ (hdeed m).1) who
    · exact elim_later (fun m ↦ (hdeed m).2) who
  | merge who replicas next ih =>
    have hshares := sharesLater_filterMap (d := d) replicas ms
    have hop (m : Monitor) : (Operation.merge _).Later d m (.merge _) := .merge hshares
    have hresult (m : Monitor) := congrArg Outcome.result (m.later_merge d hshares)
    have hdeed (m : Monitor) := deed_later (hop m) (set_later (hop m) ms who)
      (congrArg next (hresult m)) (ih _ (h _) _)
    constructor
    · exact turnTo_later (fun m ↦ (hdeed m).1) who
    · exact elim_later (fun m ↦ (hdeed m).2) who
  | parallel who here body next ihBody ih =>
    have hthread (m : Monitor) (thread : ℕ) : (body thread).RunsLater d [m.replica thread] :=
      ihBody thread (h.1 thread) _
    have hop (m : Monitor) : (Operation.parallel here _).Later d m (.parallel (here.later d) _) :=
      .parallel here (bodyLater (hthread m))
    have hresult (m : Monitor) :=
      congrArg Region.ending (m.later_parallel d here (bodyLater (hthread m)))
    have hdeed (m : Monitor) := deed_later (hop m) (set_later (hop m) ms who)
      (congrArg next (hresult m)) (ih _ (h.2 _) _)
    constructor
    · exact turnTo_later (fun m ↦ (hdeed m).1) who
    · refine elim_later (fun m ↦ congrArg₂ (· ++ ·) ?_ (hdeed m).2) who
      refine List.flatMap_congr fun thread _ ↦ ?_
      have hown := (hthread m thread).observations_eq
      rw [List.map_singleton, m.later_replica] at hown
      rw [m.replica_later]
      exact hown
  | gather who now t next ih =>
    have hop (m : Monitor) : (Operation.gather now t).Later d m (.gather (now.later d) t) :=
      .gather now t
    have hresult (m : Monitor) := congrArg Outcome.result (m.later_gather_answeredBy d now t)
    have hdeed (m : Monitor) := deed_later (hop m) (set_later (hop m) ms who)
      (congrArg next (hresult m)) (ih _ (h _) _)
    constructor
    · exact turnTo_later (fun m ↦ (hdeed m).1) who
    · exact elim_later (fun m ↦ (hdeed m).2) who

end Later

/-! ## Runs that cannot be told apart -/

/-- Two programs, each with its own monitors, are told and shown the same, end in the same way, and
leave monitors that show no difference. -/
structure Indistinct (p : Program) (ms : List Monitor) (q : Program) (ms' : List Monitor) :
    Prop where
  observations_eq : p.observations ms = q.observations ms'
  ending_eq : (p.run ms).1 = (q.run ms').1
  shown_eq : (p.run ms).2.map Monitor.shown = (q.run ms').2.map Monitor.shown

namespace Indistinct

variable {p q r : Program} {ms ms' ms'' : List Monitor}

theorem symm (h : p.Indistinct ms q ms') : q.Indistinct ms' p ms :=
  ⟨h.observations_eq.symm, h.ending_eq.symm, h.shown_eq.symm⟩

theorem trans (h : p.Indistinct ms q ms') (h' : q.Indistinct ms' r ms'') :
    p.Indistinct ms r ms'' :=
  ⟨h.observations_eq.trans h'.observations_eq, h.ending_eq.trans h'.ending_eq,
    h.shown_eq.trans h'.shown_eq⟩

end Indistinct

theorem RunsLater.indistinct {d : Duration} {p : Program} {ms : List Monitor}
    (h : p.RunsLater d ms) : (p.later d).Indistinct (ms.map (Monitor.later d)) p ms where
  observations_eq := h.observations_eq
  ending_eq := by rw [h.run_eq]
  shown_eq := by rw [h.run_eq, Monitor.map_shown_later]

/-- A monitor that differs only in its timeline from another one on a later clock. -/
theorem Discreet.indistinct {p : Program} (h : p.Discreet) {d : Duration} {m m₀ : Monitor}
    (hm : m.untraced = m₀.later d) : (p.later d).Indistinct [m] p [m₀] := by
  have hdiscreet : (p.later d).Discreet := h.reclock _
  have hsilent : (p.later d).Indistinct [m.untraced] (p.later d) [m] := by
    have hsame := (hdiscreet.runsLater .zero [m]).indistinct
    rwa [later_zero, List.map_singleton, Monitor.later_zero] at hsame
  have hlater : (p.later d).Indistinct [m₀.later d] p [m₀] := (h.runsLater d [m₀]).indistinct
  rw [hm] at hsilent
  exact hsilent.symm.trans hlater

end Program

namespace Monitor

/-! ## A monitor that starts over -/

/-- The root section of a process runs, with nothing in it, until statistics are gathered. -/
def Rooted (m : Monitor) : Prop :=
  m.gathered = false → ∃ since, m.rootSection = .root (.running since [])

variable {m m' : Monitor}

theorem Edit.rooted (e : Edit m m') (h : m.Rooted) : m'.Rooted := by
  cases e with
  | register hnew =>
    intro hopen
    rw [gathered_register] at hopen
    rw [register_of_new hnew]
    exact h hopen
  | bind hs hbound => exact h
  | openInterval here hs hidle hfree => exact h
  | closeInterval here work hs hrunning => exact h
  | clear hs hidle => exact h
  | restart now hidle =>
    intro hopen
    obtain ⟨since, hroot⟩ := h hopen
    refine ⟨now, ?_⟩
    rw [restarted, hroot]
    rfl
  | absorb shares => exact h
  | sealRoot now hopen hidle =>
    intro hlater
    rw [gathered_sealed] at hlater
    cases hlater
  | finalize hsealed => exact h

theorem rooted_build (settings : Settings) (adapterEvents : Option (List String)) (traced : Bool)
    (now : Duration) : (build settings adapterEvents traced now).Rooted := by
  intro _
  refine ⟨now, ?_⟩
  rw [build]
  split <;> rfl

/-- **What starting over leaves.** But for the timeline it is a new monitor. -/
theorem untraced_restarted_run (settings : Settings) (adapterEvents : Option (List String))
    (traced : Bool) (built now : Duration) (ops : List Operation)
    (hopen : ((build settings adapterEvents traced built).run ops).gathered = false) :
    (((build settings adapterEvents traced built).run ops).restarted now).untraced
      = build settings adapterEvents false now := by
  have hedits := run_edits (inStep_build settings adapterEvents traced built) ops
  have hrooted := hedits.keep (fun _ _ step ↦ step.rooted)
    (rooted_build settings adapterEvents traced built)
  have hbuilt : (build settings adapterEvents traced built).SetUpAs
      (build settings adapterEvents false now) := by
    rw [build]
    split <;> exact ⟨rfl, rfl, rfl⟩
  have hsetup := hedits.setUpAs.trans hbuilt
  obtain ⟨since, hroot⟩ := hrooted hopen
  simp only [untraced, restarted, hroot, hopen, hsetup.settings_eq, hsetup.events_eq,
    hsetup.scope_eq]
  rfl

theorem untraced_build (settings : Settings) (adapterEvents : Option (List String))
    (traced : Bool) (now : Duration) :
    (build settings adapterEvents traced now).untraced
      = (build settings adapterEvents false .zero).later now := by
  have hlater : (build settings adapterEvents false .zero).later now
      = build settings adapterEvents false (Duration.zero.later now) := rfl
  rw [hlater, Duration.zero_later, build, build]
  split <;> rfl

theorem resetAll_of_idle (hidle : m.running? = none) (now : Duration) :
    m.resetAll now = .success () (m.restarted now) [.allCleared] := by
  rw [resetAll, hidle]
  rfl

theorem shown_of_untraced {d : Duration} {m₀ : Monitor} (h : m.untraced = m₀.later d) :
    m.shown = m₀.shown := by
  rw [← shown_later d m₀, ← h]
  rfl

/-- **Starting over is starting.** Whatever has been done with the monitor of a process, if nothing
runs and no statistics have been gathered, it can start over, and after that no program can tell it
from a monitor that is built then, with the same settings and adapter and with or without a
timeline: all operations on both, on replicas taken from them and in parallel regions have the same
results, violations, handles, summaries and logs, and leave monitors that show the same. The clock
must not go back behind the time of starting over, and the clock of the new monitor shows the same
times, shifted by what it takes to make both begin together. -/
theorem resetAll_is_a_fresh_start (settings : Settings) (adapterEvents : Option (List String))
    (traced traced' : Bool) (built now created : Duration) (ops : List Operation) (p : Program)
    (hopen : ((build settings adapterEvents traced built).run ops).gathered = false)
    (hidle : ((build settings adapterEvents traced built).run ops).running? = none)
    (hdiscreet : p.Discreet) (hclock : p.NotBefore now) :
    let cleared := ((build settings adapterEvents traced built).run ops).resetAll now
    let shifted := p.reclock fun t ↦ (t.saturatingSub now).later created
    cleared.result = .ok () ∧
      cleared.monitor.shown = (build settings adapterEvents traced' created).shown ∧
      p.Indistinct [cleared.monitor] shifted [build settings adapterEvents traced' created] := by
  intro cleared shifted
  -- The program as it would run on a clock that shows zero when everything is forgotten.
  let early := p.reclock fun t ↦ t.saturatingSub now
  have hearly : early.Discreet := hdiscreet.reclock _
  have hp : early.later now = p := by
    refine (Program.reclock_reclock _ _ p).trans (hclock.reclock_eq fun t ht ↦ ?_)
    exact congrArg Duration.mk (Nat.sub_add_cancel ht)
  have hshifted : early.later created = shifted := Program.reclock_reclock _ _ p
  have hcleared : cleared.monitor.untraced
      = (build settings adapterEvents false .zero).later now := by
    have hsilent := untraced_build settings adapterEvents false now
    have hrestarted := untraced_restarted_run settings adapterEvents traced built now ops hopen
    rw [← hsilent]
    simp only [cleared, resetAll_of_idle hidle]
    exact hrestarted
  have hbuilt := untraced_build settings adapterEvents traced' created
  refine ⟨?_, ?_, ?_⟩
  · simp only [cleared, resetAll_of_idle hidle]
    rfl
  · rw [shown_of_untraced hcleared, shown_of_untraced hbuilt]
  · have hfirst := hearly.indistinct hcleared
    have hsecond := hearly.indistinct hbuilt
    rw [hp] at hfirst
    rw [hshifted] at hsecond
    exact hfirst.trans hsecond.symm

/-- The end of a job in which two sections have to be measured. -/
def curtain (ms : List Monitor) : Program :=
  if ((ms.map shown).flatMap sections).length = 2 then
    .gather 0 ⟨130⟩ .alone fun _ ↦ .done .finished
  else .done (.panicked "a section is missing")

/-- A section, then another one in a region of two threads. -/
def rehearsal : Program :=
  .call 0 (.start (.plain ⟨112⟩) "solve") fun _ ↦
  .call 0 (.stop (.plain ⟨120⟩) "solve" {}) fun _ ↦
  .parallel 0 { Surroundings.plain ⟨121⟩ with team := .fixed 2 }
    (fun _ ↦ .call 0 (.start (.plain ⟨122⟩) "rows") fun _ ↦
      .call 0 (.stop (.plain ⟨125⟩) "rows" {}) fun _ ↦ .done .finished) fun _ ↦
  .look curtain

theorem discreet_rehearsal : rehearsal.Discreet := by
  intro started stopped
  refine ⟨fun thread started stopped ↦ trivial, fun ending ↦ ⟨?_, ?_⟩⟩
  · intro ms ms' hshown
    rw [curtain, curtain, hshown]
  · intro ms
    rw [curtain]
    split
    · exact fun gathered ↦ trivial
    · trivial

theorem notBefore_rehearsal : rehearsal.NotBefore ⟨100⟩ := by
  refine ⟨by decide, fun started ↦ ⟨by decide, fun stopped ↦ ⟨by decide, ?_, ?_⟩⟩⟩
  · exact fun thread ↦ ⟨by decide, fun started ↦ ⟨by decide, fun stopped ↦ trivial⟩⟩
  · intro ending ms
    rw [curtain]
    split
    · exact ⟨by decide, fun gathered ↦ trivial⟩
    · trivial

/-- It does what it would do on a new monitor: it is told and shown something eight times. -/
theorem rehearsal_starts_afresh :
    let m := (build {} (some ["loads"]) true ⟨3⟩).run (inTurn.map .call)
    let cleared := m.resetAll ⟨100⟩
    let shifted := rehearsal.reclock fun t ↦ (t.saturatingSub ⟨100⟩).later ⟨7⟩
    let fresh := build {} (some ["loads"]) false ⟨7⟩
    m.gathered = false ∧ m.running? = none ∧ m.sections.length = 3 ∧ rehearsal.Discreet ∧
      rehearsal.NotBefore ⟨100⟩ ∧ cleared.result = .ok () ∧
      (shifted.observations [fresh]).length = 8 ∧
      rehearsal.Indistinct [cleared.monitor] shifted [fresh] := by
  intro m cleared shifted fresh
  have hopen : m.gathered = false := by decide +kernel
  have hidle : m.running? = none := by decide +kernel
  obtain ⟨hok, -, hsame⟩ := resetAll_is_a_fresh_start {} (some ["loads"]) true false ⟨3⟩ ⟨100⟩ ⟨7⟩
    (inTurn.map .call) rehearsal hopen hidle discreet_rehearsal notBefore_rehearsal
  exact ⟨hopen, hidle, by decide +kernel, discreet_rehearsal, notBefore_rehearsal, hok,
    by decide +kernel, hsame⟩

end Monitor

end SectionMonitor
