import Mathlib.Algebra.BigOperators.Group.Finset.Basic
import Mathlib.Algebra.Order.BigOperators.Group.Finset
import Mathlib.Order.Lattice.Nat
import SectionMonitor.Proofs.WallTime

/-!
# Measured time of a parallel region

Every thread of a parallel region has a token of its own, so on one thread exclusive sections do not
overlap and their times fit into the time of that thread. A merge adds to a section the longest
share that a thread has in it. For a single section this is never more than the region took, but
for several sections the longest shares may come from different threads, which ran side by side:
the sum can exceed the time on the clock (`exclusive_times_exceed_region`).

What holds is a bound thread by thread. The sections that have their longest share on one thread
fit into the time of this thread, and all of them together into the time of all threads
(`longest_shares_fit`).
-/

namespace SectionMonitor

/-! ## The longest share -/

/-- No share of a region is longer than a bound of all shares. -/
theorem elapsed_foldl_besides_le {shares : List Totals} {t : Totals} {b : ℕ}
    (ht : t.elapsed.nanos ≤ b) (hshares : ∀ u ∈ shares, u.elapsed.nanos ≤ b) :
    (shares.foldl Totals.besides t).elapsed.nanos ≤ b := by
  induction shares generalizing t with
  | nil => exact ht
  | cons u rest ih =>
    refine ih ?_ fun v hv ↦ hshares v (List.mem_cons_of_mem u hv)
    exact Nat.max_le.mpr ⟨ht, hshares u List.mem_cons_self⟩

theorem elapsed_absorb_le (s : Section) {shares : List Totals} {b : ℕ}
    (hshares : ∀ u ∈ shares, u.elapsed.nanos ≤ b) :
    (s.absorb shares).totals.elapsed.nanos ≤ s.totals.elapsed.nanos + b := by
  rw [Section.absorb]
  split_ifs
  · exact Nat.le_add_right _ _
  · have hlongest := elapsed_foldl_besides_le (t := {}) (Nat.zero_le b) hshares
    exact Nat.le_trans (Nat.min_le_left _ _) (Nat.add_le_add_left hlongest _)

namespace Monitor

variable {m r : Monitor} {replicas : List Monitor} {start now finish : Duration}

/-- The time that was measured under a label, in nanoseconds. -/
def timeOf (m : Monitor) (label : String) : ℕ := (m.sectionOf label).totals.elapsed.nanos

/-- The time that a section has more than its label had in an earlier monitor. -/
def gain (m : Monitor) (s : Section) : ℕ := s.totals.elapsed.nanos - m.timeOf s.label

theorem InStep.timeOf_section (h : m.InStep) {s : Section} (hs : s ∈ m.sections) :
    m.timeOf s.label = s.totals.elapsed.nanos := by
  obtain ⟨k, hk⟩ := List.getElem?_of_mem hs
  rw [timeOf, h.sectionOf_section hk]

/-- Time was measured under a label only if there is a section. -/
theorem exists_section_of_timeOf {label : String} (h : m.timeOf label ≠ 0) :
    ∃ s ∈ m.sections, s.label = label := by
  obtain hnew | hmem := m.sectionOf_cases label
  · refine absurd ?_ h
    rw [timeOf, hnew, Duration.nanos_zero]
  · exact ⟨_, hmem, label_sectionOf m label⟩

/-! ## What a merge adds -/

/-- A merged section is a declared one to which shares were added. -/
theorem InStep.exists_declared (h : m.InStep) (hok : (m.merge replicas).result = .ok ())
    {s : Section} (hs : s ∈ (m.merge replicas).monitor.sections) :
    ∃ t ∈ (m.declareAll (replicas.flatMap sections)).sections,
      s = t.absorb (sharesOf (replicas.flatMap sections) t.label) ∧
        t.totals = (m.sectionOf t.label).totals := by
  obtain ⟨hkeeps, hm⟩ := h.monitor_merge hok
  rw [hm, sections_absorb, List.mem_map] at hs
  obtain ⟨t, ht, rfl⟩ := hs
  exact ⟨t, ht, rfl, hkeeps.totals_eq h (h.declareAll _) ht⟩

/-- **The gain of a section** is at most its longest share. -/
theorem InStep.gain_le (h : m.InStep) (hok : (m.merge replicas).result = .ok ())
    (hreplicas : ∀ r ∈ replicas, r.InStep) {s : Section}
    (hs : s ∈ (m.merge replicas).monitor.sections) {b : ℕ}
    (hb : ∀ r ∈ replicas, r.timeOf s.label ≤ b) : m.gain s ≤ b := by
  obtain ⟨t, -, rfl, htotals⟩ := h.exists_declared hok hs
  have hshares : ∀ u ∈ sharesOf (replicas.flatMap sections) t.label, u.elapsed.nanos ≤ b := by
    intro u hu
    obtain ⟨share, hshare, rfl⟩ := List.mem_map.mp hu
    obtain ⟨hmem, hlabel⟩ := List.mem_filter.mp hshare
    obtain ⟨r, hr, hsection⟩ := List.mem_flatMap.mp hmem
    have hbound := hb r hr
    rw [Section.label_absorb, ← of_decide_eq_true hlabel, (hreplicas r hr).timeOf_section hsection]
      at hbound
    exact hbound
  have hle := elapsed_absorb_le t hshares
  rw [gain, Section.label_absorb, timeOf, ← htotals]
  omega

/-- A merged section is exclusive only if it was exclusive wherever it was measured. -/
theorem InStep.exclusive_of_merge (h : m.InStep) (hok : (m.merge replicas).result = .ok ())
    (hdefault : ∀ r ∈ replicas, r.Defaulted) {s : Section}
    (hs : s ∈ (m.merge replicas).monitor.sections) (hex : s.exclusive = true)
    (hr : r ∈ replicas) {share : Section} (hshare : share ∈ r.sections)
    (hlabel : share.label = s.label) : share.exclusive = true := by
  rcases hbinding : share.binding with _ | _
  · rw [Section.exclusive, hdefault r hr share hshare hbinding]
  · obtain ⟨t, ht, rfl, -⟩ := h.exists_declared hok hs
    obtain ⟨j, hj⟩ := List.getElem?_of_mem ht
    obtain ⟨k, bound, hk, hbound, -, hproperties⟩ :=
      h.boundAs_declareAll (result_reconcile_of_merge hok)
        (List.mem_flatMap.mpr ⟨r, hr, hshare⟩) hbinding
    rw [Section.label_absorb] at hlabel
    obtain rfl : k = j := (h.declareAll _).place_unique hk hj (hbound.trans hlabel)
    obtain rfl : bound = t := Option.some.inj (hk.symm.trans hj)
    rw [Section.exclusive, Section.properties_absorb, hproperties] at hex
    exact hex

/-- The shares of one monitor in some sections are no more than the time of its exclusive sections,
if they are exclusive there. -/
theorem InStep.sum_timeOf_le (h : r.InStep) {sections : List Section}
    (hnodup : (sections.map Section.label).Nodup)
    (hex : ∀ s ∈ sections, ∀ share ∈ r.sections, share.label = s.label →
      share.exclusive = true) :
    (sections.map fun s ↦ r.timeOf s.label).sum ≤ r.exclusiveElapsed := by
  -- Neither side has a label twice, so both can be compared as sums over sets of labels.
  have hown : ((r.sections.filter Section.exclusive).map Section.label).Nodup := by
    have hall := h.nodup
    rw [h.labels_eq] at hall
    exact hall.sublist (List.filter_sublist.map Section.label)
  have hleft : (sections.map fun s ↦ r.timeOf s.label).sum
      = ∑ label ∈ (sections.map Section.label).toFinset, r.timeOf label := by
    rw [List.sum_toFinset _ hnodup, List.map_map]
    rfl
  have hright : r.exclusiveElapsed
      = ∑ label ∈ ((r.sections.filter Section.exclusive).map Section.label).toFinset,
          r.timeOf label := by
    rw [List.sum_toFinset _ hown, List.map_map, exclusiveElapsed]
    refine congrArg List.sum (List.map_congr_left fun s hs ↦ ?_)
    exact (h.timeOf_section (List.mem_of_mem_filter hs)).symm
  rw [hleft, hright]
  refine Finset.sum_le_sum_of_ne_zero fun label hlabel htime ↦ ?_
  rw [List.mem_toFinset, List.mem_map] at hlabel
  obtain ⟨s, hs, rfl⟩ := hlabel
  obtain ⟨share, hshare, heq⟩ := exists_section_of_timeOf htime
  rw [List.mem_toFinset, List.mem_map]
  exact ⟨share, List.mem_filter.mpr ⟨hshare, hex s hs share hshare heq⟩, heq⟩

/-! ## The threads of a region -/

/-- The replicas of a region as the threads leave them. -/
def returned (m : Monitor) (here : Surroundings) (body : ℕ → Monitor → Monitor × Ending) :
    List Monitor :=
  (List.range here.team.threads).map fun t ↦ (body t (m.replica t)).1

theorem map_fst_mapIdx_crew (m : Monitor) (here : Surroundings)
    (body : ℕ → Monitor → Monitor × Ending) :
    (((m.crew here).mapIdx fun thread r ↦ body thread r.1).map Prod.fst)
      = m.returned here body := by
  rw [mapIdx_crew, List.map_map]
  rfl

theorem parallel_of_finished {here : Surroundings} {body : ℕ → Monitor → Monitor × Ending}
    (hfinished : (m.parallel here body).ending = .finished) :
    (m.merge (m.returned here body)).result = .ok () ∧
      (m.parallel here body).monitor = (m.merge (m.returned here body)).monitor := by
  obtain ⟨d, -, hd, hend, -⟩ | ⟨-, hend, hm⟩ :=
    m.join_cases ((m.crew here).mapIdx fun thread r ↦ body thread r.1)
  · exact absurd (hend.symm.trans hfinished) hd
  · rw [map_fst_mapIdx_crew] at hend hm
    refine ⟨?_, hm⟩
    have hok : Ending.ofResult (m.merge (m.returned here body)).result = .finished :=
      hend.symm.trans hfinished
    rcases hresult : (m.merge (m.returned here body)).result with v | _
    · simp [hresult, Ending.ofResult] at hok
    · rfl

/-- **The time of a thread.** Whatever a thread measures between two times fits into them. -/
theorem Fits.run (h : m.Fits start now) (hm : m.Reachable) {calls : List Call}
    (hclock : Clocked now calls finish) : (m.run (calls.map .call)).Fits start finish := by
  induction calls generalizing m now with
  | nil => exact h.mono hclock
  | cons c calls ih => exact ih (h.perform hm c hclock.1) (hm.after (.call c)) hclock.2

theorem Reachable.fits_replica (hm : m.Reachable) (thread : ℕ) (now : Duration) :
    (m.replica thread).Fits now now := by
  refine .of_fresh (fun s hs ↦ ?_) (Nat.le_refl _)
  rw [hm.inStep.replica_eq] at hs
  obtain ⟨parent, -, rfl⟩ := List.mem_map.mp hs
  exact ⟨rfl, rfl⟩

theorem Fits.timeOf_le (h : m.Fits start now) (label : String) :
    m.timeOf label ≤ now.nanos - start.nanos := by
  obtain hnew | hmem := m.sectionOf_cases label
  · rw [timeOf, hnew]
    exact Nat.zero_le _
  · have hsingle := h.single _ hmem
    have hsettled := h.settled_le _ hmem
    rw [timeOf]
    omega

/-! ## Bounds for a region -/

/-- How long a region takes on the clock: until the last of its threads is done. -/
def wallTime (start : Duration) (threads : ℕ) (finish : ℕ → Duration) : ℕ :=
  ((Finset.range threads).sup fun t ↦ (finish t).nanos) - start.nanos

theorem sub_le_wallTime (start : Duration) {threads t : ℕ} (finish : ℕ → Duration)
    (ht : t < threads) : (finish t).nanos - start.nanos ≤ wallTime start threads finish :=
  Nat.sub_le_sub_right (Finset.le_sup (f := fun t ↦ (finish t).nanos) (Finset.mem_range.mpr ht)) _

/-- Every thread makes some calls on its replica, while its clock goes on from that of the caller
until the thread is done. -/
def Paced (m : Monitor) (here : Surroundings) (body : ℕ → Monitor → Monitor × Ending)
    (finish : ℕ → Duration) : Prop :=
  ∀ t < here.team.threads, ∃ calls, Clocked here.now calls (finish t) ∧
    (body t (m.replica t)).1 = (m.replica t).run (calls.map .call)

/-- What a thread measures under a label. -/
def share (m : Monitor) (body : ℕ → Monitor → Monitor × Ending) (t : ℕ) (label : String) : ℕ :=
  (body t (m.replica t)).1.timeOf label

namespace Paced

variable {here : Surroundings} {body : ℕ → Monitor → Monitor × Ending} {finishes : ℕ → Duration}
  {t : ℕ} {s : Section}

theorem reachable (h : m.Paced here body finishes) (hm : m.Reachable)
    (ht : t < here.team.threads) : (body t (m.replica t)).1.Reachable := by
  obtain ⟨calls, -, heq⟩ := h t ht
  rw [heq]
  exact (hm.replica t).run _

theorem fits (h : m.Paced here body finishes) (hm : m.Reachable) (ht : t < here.team.threads) :
    (body t (m.replica t)).1.Fits here.now (finishes t) := by
  obtain ⟨calls, hclock, heq⟩ := h t ht
  rw [heq]
  exact (hm.fits_replica t here.now).run (hm.replica t) hclock

theorem share_le (h : m.Paced here body finishes) (hm : m.Reachable) (ht : t < here.team.threads)
    (label : String) : m.share body t label ≤ (finishes t).nanos - here.now.nanos :=
  (h.fits hm ht).timeOf_le label

/-- What holds of the replicas of all threads holds of those that are returned. -/
theorem forall_returned {P : Monitor → Prop}
    (hP : ∀ t < here.team.threads, P (body t (m.replica t)).1) :
    ∀ r ∈ m.returned here body, P r := by
  intro r hr
  obtain ⟨t, ht, rfl⟩ := List.mem_map.mp hr
  exact hP t (List.mem_range.mp ht)

/-- A section gains no more than its longest share. -/
theorem gain_le (h : m.Paced here body finishes) (hm : m.Reachable)
    (hfinished : (m.parallel here body).ending = .finished)
    (hs : s ∈ (m.parallel here body).monitor.sections) {b : ℕ}
    (hb : ∀ t < here.team.threads, m.share body t s.label ≤ b) : m.gain s ≤ b := by
  obtain ⟨hok, hmerged⟩ := parallel_of_finished hfinished
  rw [hmerged] at hs
  exact hm.inStep.gain_le hok (forall_returned fun t ht ↦ (h.reachable hm ht).inStep) hs
    (forall_returned hb)

/-- The shares of one thread in exclusive sections fit into the time of the thread. -/
theorem sum_share_le (h : m.Paced here body finishes) (hm : m.Reachable)
    (hfinished : (m.parallel here body).ending = .finished) {sections : List Section}
    (hsub : sections.Sublist
      ((m.parallel here body).monitor.sections.filter Section.exclusive))
    (ht : t < here.team.threads) :
    (sections.map fun s ↦ m.share body t s.label).sum
      ≤ (finishes t).nanos - here.now.nanos := by
  obtain ⟨hok, hmerged⟩ := parallel_of_finished hfinished
  have hnodup : ((m.parallel here body).monitor.sections.map Section.label).Nodup := by
    have hin : (m.parallel here body).monitor.InStep := (hm.after (.parallel here body)).inStep
    exact hin.labels_eq ▸ hin.nodup
  have hex : ∀ s ∈ sections, ∀ x ∈ (body t (m.replica t)).1.sections, x.label = s.label →
      x.exclusive = true := by
    intro s hs x hx hlabel
    obtain ⟨hs, hexclusive⟩ := List.mem_filter.mp (hsub.subset hs)
    rw [hmerged] at hs
    exact hm.inStep.exclusive_of_merge hok
      (forall_returned fun u hu ↦ (h.reachable hm hu).defaulted) hs hexclusive
      (List.mem_map.mpr ⟨t, List.mem_range.mpr ht, rfl⟩) hx hlabel
  have hown := (h.reachable hm ht).inStep.sum_timeOf_le
    (hnodup.sublist ((hsub.trans List.filter_sublist).map Section.label)) hex
  have htogether := (h.fits hm ht).together
  exact Nat.le_trans hown (by omega)

end Paced

/-- **Longest shares fit into the time of their thread.** Let every thread of a region make some
calls on its replica while its clock goes on from that of the caller. If the region ends well, then
the exclusive sections that have their longest share on one thread have gained no more time
together than this thread took, and so no more than the region took on the clock. No single section
has gained more than that, and all exclusive sections together have gained no more than all threads
took. -/
theorem longest_shares_fit (hm : m.Reachable) {here : Surroundings}
    {body : ℕ → Monitor → Monitor × Ending} {finishes : ℕ → Duration}
    (hpaced : m.Paced here body finishes)
    (hfinished : (m.parallel here body).ending = .finished) :
    let merged := (m.parallel here body).monitor.sections
    let wall := wallTime here.now here.team.threads finishes
    (∀ t < here.team.threads, ∀ labels : List String,
      (∀ label ∈ labels, ∀ u < here.team.threads,
        m.share body u label ≤ m.share body t label) →
      (((merged.filter Section.exclusive).filter fun s ↦ s.label ∈ labels).map m.gain).sum
        ≤ (finishes t).nanos - here.now.nanos ∧ (finishes t).nanos - here.now.nanos ≤ wall) ∧
      (∀ s ∈ merged, m.gain s ≤ wall) ∧
      ((merged.filter Section.exclusive).map m.gain).sum
        ≤ ∑ t ∈ Finset.range here.team.threads, ((finishes t).nanos - here.now.nanos) := by
  intro merged wall
  refine ⟨fun t ht labels hlongest ↦ ⟨?_, sub_le_wallTime _ _ ht⟩, fun s hs ↦ ?_, ?_⟩
  · refine Nat.le_trans (List.sum_le_sum fun s hs ↦ ?_)
      (hpaced.sum_share_le hm hfinished List.filter_sublist ht)
    obtain ⟨hs, hlabel⟩ := List.mem_filter.mp hs
    exact hpaced.gain_le hm hfinished (List.mem_of_mem_filter hs)
      (hlongest s.label (of_decide_eq_true hlabel))
  · exact hpaced.gain_le hm hfinished hs fun t ht ↦
      Nat.le_trans (hpaced.share_le hm ht s.label) (sub_le_wallTime _ _ ht)
  · -- The longest share is at most the sum of all shares, and these are added thread by thread.
    calc ((merged.filter Section.exclusive).map m.gain).sum
        ≤ ((merged.filter Section.exclusive).map fun s ↦
            ∑ t ∈ Finset.range here.team.threads, m.share body t s.label).sum := by
          refine List.sum_le_sum fun s hs ↦ ?_
          refine hpaced.gain_le hm hfinished (List.mem_of_mem_filter hs) fun t ht ↦ ?_
          exact Finset.single_le_sum (f := fun t ↦ m.share body t s.label)
            (fun _ _ ↦ Nat.zero_le _) (Finset.mem_range.mpr ht)
      _ = ∑ t ∈ Finset.range here.team.threads,
            ((merged.filter Section.exclusive).map fun s ↦ m.share body t s.label).sum := by
          exact Multiset.sum_map_sum (m := ((merged.filter Section.exclusive : List Section) :
            Multiset Section))
      _ ≤ ∑ t ∈ Finset.range here.team.threads, ((finishes t).nanos - here.now.nanos) :=
          Finset.sum_le_sum fun t ht ↦
            hpaced.sum_share_le hm hfinished (List.Sublist.refl _) (Finset.mem_range.mp ht)

/-! ## Two threads side by side -/

/-- One section, from the beginning of the region to its end. -/
def oneInterval (label : String) : List Call :=
  [.start (.plain .zero) label, .stop (.plain ⟨10⟩) label {}]

/-- Two threads that each spend the whole region in a section of their own. -/
def sideBySide (t : ℕ) (r : Monitor) : Monitor × Ending :=
  (r.run ((oneInterval (if t = 0 then "rows" else "columns")).map .call), .finished)

/-- The surroundings of a region of two threads. -/
def pairOfThreads : Surroundings := { Surroundings.plain .zero with team := .fixed 2 }

/-- Two exclusive sections that ran side by side have gained twice the time of the region, although
the threads did nothing but start and stop them. -/
theorem exclusive_times_exceed_region :
    ¬∀ (m : Monitor) (here : Surroundings) (body : ℕ → Monitor → Monitor × Ending)
      (calls : ℕ → List Call) (finishes : ℕ → Duration), m.Reachable → m.running? = none →
      (∀ t < here.team.threads, Clocked here.now (calls t) (finishes t) ∧
        (∀ c ∈ calls t, (∃ here label, c = .start here label) ∨
          ∃ here label work, c = .stop here label work) ∧
        (body t (m.replica t)).1 = (m.replica t).run ((calls t).map .call)) →
      (m.parallel here body).ending = .finished →
      (((m.parallel here body).monitor.sections.filter Section.exclusive).map m.gain).sum
        ≤ wallTime here.now here.team.threads finishes := by
  intro hall
  have hle := hall (build {} none false .zero) pairOfThreads sideBySide
    (fun t ↦ oneInterval (if t = 0 then "rows" else "columns")) (fun _ ↦ ⟨10⟩) (.build ..) rfl
    (fun t _ ↦ ⟨by decide +revert, by simp [oneInterval], rfl⟩) (by decide +kernel)
  exact absurd hle (by decide +kernel)

/-- Thread by thread they fit: each thread has the longest share of its own section. -/
theorem side_by_side_fits :
    let m := build {} none false .zero
    m.Reachable ∧ m.Paced pairOfThreads sideBySide (fun _ ↦ ⟨10⟩) ∧
      (m.parallel pairOfThreads sideBySide).ending = .finished ∧
      (∀ u < 2, m.share sideBySide u "rows" ≤ m.share sideBySide 0 "rows") ∧
      ((((m.parallel pairOfThreads sideBySide).monitor.sections.filter
        Section.exclusive).filter fun s ↦ s.label ∈ ["rows"]).map m.gain).sum ≤ 10 := by
  intro m
  have hpaced : m.Paced pairOfThreads sideBySide (fun _ ↦ ⟨10⟩) := by
    intro t _
    exact ⟨oneInterval (if t = 0 then "rows" else "columns"), by decide +revert, rfl⟩
  have hfinished : (m.parallel pairOfThreads sideBySide).ending = .finished := by decide +kernel
  have hlongest : ∀ u < 2, m.share sideBySide u "rows" ≤ m.share sideBySide 0 "rows" := by
    decide +kernel
  have hfit := (longest_shares_fit (.build ..) hpaced hfinished).1 0 (by decide) ["rows"]
    fun label hlabel ↦ by
      rw [List.mem_singleton.mp hlabel]
      exact hlongest
  exact ⟨.build .., hpaced, hfinished, hlongest, hfit.1⟩

end Monitor

end SectionMonitor
