import SectionMonitor.Proofs.Replica

/-!
# Programs

A program has monitors and makes more of them: it takes replicas, folds them back, and lets threads
work in parallel regions. It sees the answer to everything that it does and can look at all that its
monitors hold, and goes on as it likes. `Program.run` is what becomes of the monitors, and
`Program.stops` are the intervals that are stopped on the way. What every single deed of a program
keeps true of the monitors, a run keeps true of them (`Kept.run`), even if a deed keeps it only under
a condition on the stop that it makes.

The monitors that a program can come to have if it begins with some of one configuration are the
`Family` of that configuration. A program that differs only in what has no effect on any monitor of
the family runs in the same way (`Program.run_map`).
-/

namespace SectionMonitor

/-- The call with other surroundings and another work. -/
def Monitor.Call.map (f : Surroundings → Surroundings) (g : Work → Work) : Call → Call
  | .start here label => .start (f here) label
  | .stop here label work => .stop (f here) label (g work)
  | c => c

/-- What a program does with its monitors, which are numbered. -/
inductive Program where
  | done (ending : Ending)
  /-- Looks at all that the monitors hold. -/
  | look (next : List Monitor → Program)
  | call (who : ℕ) (c : Monitor.Call) (next : Except Violation (Option Index) → Program)
  /-- Takes a replica, which gets the next number. -/
  | replica (who thread : ℕ) (next : Program)
  | merge (who : ℕ) (replicas : List ℕ) (next : Except Violation Unit → Program)
  /-- The body of a region is a program of the thread, which begins with its replica. -/
  | parallel (who : ℕ) (here : Surroundings) (body : ℕ → Program) (next : Ending → Program)
  | gather (who : ℕ) (now : Duration) (t : Transport)
      (next : Except Violation (Option Summary) → Program)

namespace Program

/-- The replica that a thread hands back, and how its work ended. -/
def handBack (r : Monitor) (left : Ending × List Monitor) : Monitor × Ending :=
  (left.2.headD r, left.1)

/-- Goes on with the monitor of a number. A program that turns to a monitor that it does not have
ends there. -/
def turnTo (ms : List Monitor) (who : ℕ) (next : Monitor → Ending × List Monitor) :
    Ending × List Monitor :=
  match ms[who]? with
  | none => (.finished, ms)
  | some m => next m

/-- How a program ends, and its monitors at the end. -/
def run : Program → List Monitor → Ending × List Monitor
  | done ending, ms => (ending, ms)
  | look next, ms => (next ms).run ms
  | call who c next, ms => turnTo ms who fun m ↦
      (next (m.perform c).result).run (ms.set who (m.perform c).monitor)
  | replica who thread next, ms => turnTo ms who fun m ↦ next.run (ms ++ [m.replica thread])
  | merge who replicas next, ms => turnTo ms who fun m ↦
      let merged := m.merge (replicas.filterMap fun r ↦ ms[r]?)
      (next merged.result).run (ms.set who merged.monitor)
  | parallel who here body next, ms => turnTo ms who fun m ↦
      let region := m.parallel here fun thread r ↦ handBack r ((body thread).run [r])
      (next region.ending).run (ms.set who region.monitor)
  | gather who now t next, ms => turnTo ms who fun m ↦
      let gathered := (m.gather now t.rank t.size).answeredBy t 0
      (next gathered.result).run (ms.set who gathered.monitor)

/-- A stop in a run: the monitor as it was, and what was asked of it. -/
structure Stop where
  monitor : Monitor
  here : Surroundings
  label : String
  work : Monitor.Work

/-- The stop that a call may be. -/
def stopsOf (m : Monitor) : Monitor.Call → List Stop
  | .stop here label work => [⟨m, here, label, work⟩]
  | _ => []

/-- All stops of a run, those of the threads of a region included. -/
def stops : Program → List Monitor → List Stop
  | done _, _ => []
  | look next, ms => (next ms).stops ms
  | call who c next, ms => ms[who]?.elim [] fun m ↦
      stopsOf m c ++ (next (m.perform c).result).stops (ms.set who (m.perform c).monitor)
  | replica who thread next, ms => ms[who]?.elim [] fun m ↦ next.stops (ms ++ [m.replica thread])
  | merge who replicas next, ms => ms[who]?.elim [] fun m ↦
      let merged := m.merge (replicas.filterMap fun r ↦ ms[r]?)
      (next merged.result).stops (ms.set who merged.monitor)
  | parallel who here body next, ms => ms[who]?.elim [] fun m ↦
      let region := m.parallel here fun thread r ↦ handBack r ((body thread).run [r])
      ((List.range here.team.threads).flatMap fun thread ↦
          (body thread).stops [m.replica thread]) ++
        (next region.ending).stops (ms.set who region.monitor)
  | gather who now t next, ms => ms[who]?.elim [] fun m ↦
      let gathered := (m.gather now t.rank t.size).answeredBy t 0
      (next gathered.result).stops (ms.set who gathered.monitor)

/-- The program with other surroundings and other works. -/
def map (f : Surroundings → Surroundings) (g : Monitor.Work → Monitor.Work) : Program → Program
  | done ending => done ending
  | look next => look fun ms ↦ (next ms).map f g
  | call who c next => call who (c.map f g) fun result ↦ (next result).map f g
  | replica who thread next => replica who thread (next.map f g)
  | merge who replicas next => merge who replicas fun result ↦ (next result).map f g
  | parallel who here body next =>
    parallel who (f here) (fun thread ↦ (body thread).map f g) fun ending ↦ (next ending).map f g
  | gather who now t next => gather who now t fun result ↦ (next result).map f g

end Program

/-! ## Monitors of one configuration -/

namespace Monitor

variable {settings : Settings} {adapterEvents : Option (List String)} {m : Monitor}

/-- The monitors of a configuration: those that are built with it, their replicas, and what becomes
of them if they are folded into each other only. -/
inductive Family (settings : Settings) (adapterEvents : Option (List String)) : Monitor → Prop
  | build (traced : Bool) (now : Duration) :
      Family settings adapterEvents (build settings adapterEvents traced now)
  | replica {m : Monitor} (thread : ℕ) (hm : Family settings adapterEvents m) :
      Family settings adapterEvents (m.replica thread)
  | call {m : Monitor} (c : Call) (hm : Family settings adapterEvents m) :
      Family settings adapterEvents (m.perform c).monitor
  | merge {m : Monitor} {replicas : List Monitor} (hm : Family settings adapterEvents m)
      (hreplicas : ∀ r ∈ replicas, Family settings adapterEvents r) :
      Family settings adapterEvents (m.merge replicas).monitor
  | gather {m : Monitor} (now : Duration) (t : Transport) (hm : Family settings adapterEvents m) :
      Family settings adapterEvents (m.after (.gather now t))

namespace Family

theorem reachable (h : Family settings adapterEvents m) : m.Reachable := by
  induction h with
  | build traced now => exact .build settings adapterEvents traced now
  | replica thread hm ih => exact ih.replica thread
  | call c hm ih => exact ih.after (.call c)
  | merge hm hreplicas ih _ => exact ih.after (.merge _)
  | gather now t hm ih => exact ih.after (.gather now t)

end Family

/-- A region folds back what its threads have made of replicas. What folding back keeps true of the
monitors, a region keeps true of them. -/
theorem parallel_keeps {Q : Monitor → Prop} (hm : Q m)
    (hmerge : ∀ {replicas : List Monitor}, (∀ r ∈ replicas, Q r) → Q (m.merge replicas).monitor)
    (here : Surroundings) {body : ℕ → Monitor → Monitor × Ending}
    (hbody : ∀ thread < here.team.threads, Q (body thread (m.replica thread)).1) :
    Q (m.parallel here body).monitor := by
  rw [Monitor.parallel, mapIdx_crew]
  generalize hdone : ((List.range here.team.threads).map fun thread ↦
    body thread (m.replica thread)) = done
  have hreplicas : ∀ r ∈ done.map Prod.fst, Q r := by
    subst hdone
    simpa using fun thread hthread ↦ hbody thread hthread
  rw [join]
  split
  · exact hm
  · split
    · exact hm
    · exact hmerge hreplicas

end Monitor

namespace Program

open Monitor (Family)

variable {settings : Settings} {adapterEvents : Option (List String)} {ms : List Monitor}

/-! ## What a run keeps true -/

section Kept
variable {good : Stop → Prop} {Q : Monitor → Prop}

/-- Every deed of a program keeps `Q` true of its monitors, if the stop that it may be is good. -/
structure Kept (good : Stop → Prop) (Q : Monitor → Prop) : Prop where
  call {m : Monitor} (c : Monitor.Call) (hm : Q m) (hgood : ∀ e ∈ stopsOf m c, good e) :
    Q (m.perform c).monitor
  replica {m : Monitor} (thread : ℕ) (hm : Q m) : Q (m.replica thread)
  merge {m : Monitor} {replicas : List Monitor} (hm : Q m) (hreplicas : ∀ r ∈ replicas, Q r) :
    Q (m.merge replicas).monitor
  gather {m : Monitor} (now : Duration) (t : Transport) (hm : Q m) :
    Q (m.after (.gather now t))

/-- One monitor is replaced. -/
theorem forall_mem_set {m : Monitor} (h : ∀ m ∈ ms, Q m) (who : ℕ) (hm : Q m) :
    ∀ r ∈ ms.set who m, Q r := by
  intro r hr
  rcases List.mem_or_eq_of_mem_set hr with hr | rfl
  · exact h r hr
  · exact hm

theorem forall_mem_concat {m : Monitor} (h : ∀ m ∈ ms, Q m) (hm : Q m) : ∀ r ∈ ms ++ [m], Q r := by
  intro r hr
  rcases List.mem_append.mp hr with hr | hr
  · exact h r hr
  · rw [List.mem_singleton.mp hr]
    exact hm

theorem forall_mem_filterMap (h : ∀ m ∈ ms, Q m) (numbers : List ℕ) :
    ∀ r ∈ numbers.filterMap fun k ↦ ms[k]?, Q r := by
  intro r hr
  obtain ⟨k, -, hk⟩ := List.mem_filterMap.mp hr
  exact h r (List.mem_of_getElem? hk)

theorem handBack_keeps {r : Monitor} {left : Ending × List Monitor} (hr : Q r)
    (hleft : ∀ m ∈ left.2, Q m) : Q (handBack r left).1 := by
  rw [handBack]
  cases hms : left.2 with
  | nil => exact hr
  | cons first rest => exact hleft first (by simp [hms])

/-- A deed of one monitor and what comes after it. -/
theorem turnTo_keeps {next : Monitor → Ending × List Monitor} {after : Monitor → List Stop}
    (h : ∀ m ∈ ms, Q m) (who : ℕ) (hgood : ∀ e ∈ ms[who]?.elim [] after, good e)
    (hnext : ∀ m, Q m → (∀ e ∈ after m, good e) →
      (∀ e ∈ after m, Q e.monitor) ∧ ∀ r ∈ (next m).2, Q r) :
    (∀ e ∈ ms[who]?.elim [] after, Q e.monitor) ∧ ∀ r ∈ (turnTo ms who next).2, Q r := by
  rw [turnTo]
  cases hm : ms[who]? with
  | none => exact ⟨fun e he ↦ absurd he List.not_mem_nil, h⟩
  | some m =>
    rw [hm] at hgood
    exact hnext m (h m (List.mem_of_getElem? hm)) hgood

/-- **A run.** What every deed keeps true holds of all monitors at the end, and of the monitors of
all stops on the way. -/
theorem Kept.run (hQ : Kept good Q) (p : Program) (h : ∀ m ∈ ms, Q m)
    (hgood : ∀ e ∈ p.stops ms, good e) :
    (∀ e ∈ p.stops ms, Q e.monitor) ∧ ∀ m ∈ (p.run ms).2, Q m := by
  induction p generalizing ms with
  | done ending => exact ⟨fun e he ↦ absurd he List.not_mem_nil, h⟩
  | look next ih => exact ih ms h hgood
  | call who c next ih =>
    refine turnTo_keeps h who hgood fun m hm hgood ↦ ?_
    obtain ⟨hnow, hlater⟩ := List.forall_mem_append.mp hgood
    have hrest := ih _ (forall_mem_set h who (hQ.call c hm hnow)) hlater
    refine ⟨List.forall_mem_append.mpr ⟨fun e he ↦ ?_, hrest.1⟩, hrest.2⟩
    cases c with
    | stop here label work =>
      rw [List.mem_singleton.mp he]
      exact hm
    | start _ _ => cases he
    | resolve _ => cases he
    | setProperties _ _ => cases he
    | reset _ => cases he
    | resetAll _ => cases he
  | replica who thread next ih =>
    exact turnTo_keeps h who hgood fun m hm hgood ↦
      ih (forall_mem_concat h (hQ.replica thread hm)) hgood
  | merge who replicas next ih =>
    exact turnTo_keeps h who hgood fun m hm hgood ↦
      ih _ (forall_mem_set h who (hQ.merge hm (forall_mem_filterMap h replicas))) hgood
  | parallel who here body next ihBody ih =>
    refine turnTo_keeps h who hgood fun m hm hgood ↦ ?_
    obtain ⟨hthreads, hlater⟩ := List.forall_mem_append.mp hgood
    have hbody (thread : ℕ) (hthread : thread < here.team.threads) :
        (∀ e ∈ (body thread).stops [m.replica thread], Q e.monitor) ∧
          ∀ r ∈ ((body thread).run [m.replica thread]).2, Q r :=
      ihBody thread (by simpa using hQ.replica thread hm) fun e he ↦
        hthreads e (List.mem_flatMap.mpr ⟨thread, List.mem_range.mpr hthread, he⟩)
    have hregion :
        Q (m.parallel here fun thread r ↦ handBack r ((body thread).run [r])).monitor :=
      Monitor.parallel_keeps hm (hQ.merge hm) here fun thread hthread ↦
        handBack_keeps (hQ.replica thread hm) (hbody thread hthread).2
    have hrest := ih _ (forall_mem_set h who hregion) hlater
    refine ⟨List.forall_mem_append.mpr ⟨fun e he ↦ ?_, hrest.1⟩, hrest.2⟩
    obtain ⟨thread, hthread, he⟩ := List.mem_flatMap.mp he
    exact (hbody thread (List.mem_range.mp hthread)).1 e he
  | gather who now t next ih =>
    exact turnTo_keeps h who hgood fun m hm hgood ↦
      ih _ (forall_mem_set h who (hQ.gather now t hm)) hgood

end Kept

theorem kept_family : Kept (fun _ ↦ True) (Family settings adapterEvents) where
  call c hm _ := .call c hm
  replica thread hm := .replica thread hm
  merge hm hreplicas := .merge hm hreplicas
  gather now t hm := .gather now t hm

/-- A program that begins with monitors of a family has no others at its end. -/
theorem run_family (p : Program) (h : ∀ m ∈ ms, Family settings adapterEvents m) :
    ∀ m ∈ (p.run ms).2, Family settings adapterEvents m :=
  (kept_family.run p h fun _ _ ↦ trivial).2

/-! ## Two runs -/

theorem turnTo_congr {f g : Monitor → Ending × List Monitor} (h : ∀ m ∈ ms, f m = g m) (who : ℕ) :
    turnTo ms who f = turnTo ms who g := by
  rw [turnTo, turnTo]
  cases hm : ms[who]? with
  | none => rfl
  | some m => exact h m (List.mem_of_getElem? hm)

/-- **Two runs.** If surroundings and works are changed in a way that no call to a monitor of the
family notices, and no team, a program runs as before. -/
theorem run_map {f : Surroundings → Surroundings} {g : Monitor.Work → Monitor.Work}
    (hteam : ∀ here, (f here).team = here.team)
    (hcall : ∀ m, Family settings adapterEvents m → ∀ c, m.perform (c.map f g) = m.perform c)
    (p : Program) (h : ∀ m ∈ ms, Family settings adapterEvents m) :
    (p.map f g).run ms = p.run ms := by
  induction p generalizing ms with
  | done ending => rfl
  | look next ih => exact ih ms h
  | call who c next ih =>
    refine turnTo_congr (fun m hm ↦ ?_) who
    rw [hcall m (h m hm)]
    exact ih _ (forall_mem_set h who (.call c (h m hm)))
  | replica who thread next ih =>
    exact turnTo_congr (fun m hm ↦ ih (forall_mem_concat h (.replica thread (h m hm)))) who
  | merge who replicas next ih =>
    exact turnTo_congr (fun m hm ↦
      ih _ (forall_mem_set h who (.merge (h m hm) (forall_mem_filterMap h replicas)))) who
  | parallel who here body next ihBody ih =>
    refine turnTo_congr (fun m hm ↦ ?_) who
    have hreplica (thread : ℕ) : ∀ r ∈ [m.replica thread], Family settings adapterEvents r := by
      simpa using (h m hm).replica thread
    have hregion : m.parallel (f here) (fun thread r ↦
          handBack r (((body thread).map f g).run [r]))
        = m.parallel here fun thread r ↦ handBack r ((body thread).run [r]) :=
      m.parallel_congr (hteam here) fun thread ↦
        congrArg (handBack _) (ihBody thread (hreplica thread))
    rw [hregion]
    refine ih _ (forall_mem_set h who ?_)
    exact Monitor.parallel_keeps (h m hm) (.merge (h m hm)) here fun thread _ ↦
      handBack_keeps ((h m hm).replica thread) ((body thread).run_family (hreplica thread))
  | gather who now t next ih =>
    exact turnTo_congr (fun m hm ↦ ih _ (forall_mem_set h who (.gather now t (h m hm)))) who

end Program

end SectionMonitor
