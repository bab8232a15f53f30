import Mathlib.Data.List.DropRight
import SectionMonitor.Proofs.Deeds

/-!
# The ledger of a label

A ledger is kept apart from any monitor: it is the list of what was done, in order. The entries of a
label since it was last emptied are its starts and stops; they alternate, so they are the two ends
of some intervals, and of one that may still be open (`transcript`).

`Accounted` is the invariant: the figures of every label are those that its intervals amount to. One
operation preserves it (`Accounted.step`), and so the totals of every section are exact sums over
its own intervals, whatever else has been asked of the monitor meanwhile.
-/

namespace SectionMonitor

namespace Monitor

variable {m m' m'' : Monitor} {label : String} {ledger : List Deed}

/-! ## The entries of a label -/

namespace Deed

/-- The deed starts or stops the section with the label. -/
def concerns (label : String) : Deed → Bool
  | .started _ other => other = label
  | .stopped _ other _ => other = label
  | _ => false

/-- The deed stops the section with the label. -/
def stops (label : String) : Deed → Bool
  | .stopped _ other _ => other = label
  | _ => false

/-- The deed makes the section with the label forget what was measured. -/
def empties (label : String) : Deed → Bool
  | .emptied other => other = label
  | .emptiedAll => true
  | _ => false

end Deed

/-- The starts and stops of a label since it was last emptied. -/
def recent (label : String) (ledger : List Deed) : List Deed :=
  (ledger.rtakeWhile fun d ↦ !d.empties label).filter (Deed.concerns label)

theorem recent_concat (label : String) (ledger : List Deed) (d : Deed) :
    recent label (ledger ++ [d])
      = if d.empties label then []
        else if d.concerns label then recent label ledger ++ [d] else recent label ledger := by
  rw [recent, List.rtakeWhile_concat]
  cases hempties : d.empties label with
  | true => simp
  | false => cases hconcerns : d.concerns label <;> simp [hconcerns, recent]

/-- A deed on another label is no entry. -/
theorem recent_concat_of_other {d : Deed} (hempties : d.empties label = false)
    (hconcerns : d.concerns label = false) :
    recent label (ledger ++ [d]) = recent label ledger := by
  rw [recent_concat, hempties, hconcerns]
  simp

theorem recent_concat_of_concerns {d : Deed} (hempties : d.empties label = false)
    (hconcerns : d.concerns label = true) :
    recent label (ledger ++ [d]) = recent label ledger ++ [d] := by
  rw [recent_concat, hempties, hconcerns]
  simp

theorem recent_concat_of_empties {d : Deed} (hempties : d.empties label = true) :
    recent label (ledger ++ [d]) = [] := by
  rw [recent_concat, hempties, if_pos rfl]

theorem mem_of_mem_recent {d : Deed} (h : d ∈ recent label ledger) : d ∈ ledger :=
  (List.rtakeWhile_suffix _ ledger).subset (List.mem_of_mem_filter h)

/-- The label was started, and has not been stopped since. -/
def Underway (label : String) (ledger : List Deed) : Prop :=
  ∃ before here after, ledger = before ++ .started here label :: after ∧
    ∀ d ∈ after, d.stops label = false

theorem not_underway_nil (label : String) : ¬Underway label [] := by
  rintro ⟨before, here, after, h, -⟩
  exact List.append_ne_nil_of_right_ne_nil before (List.cons_ne_nil _ after) h.symm

theorem underway_concat_started (ledger : List Deed) (here : Surroundings) (label : String) :
    Underway label (ledger ++ [.started here label]) :=
  ⟨ledger, here, [], rfl, fun _ hd ↦ absurd hd List.not_mem_nil⟩

/-- Whether a label is under way after a deed that does not start it. -/
theorem underway_concat {d : Deed} (hd : ∀ here, d ≠ .started here label) :
    Underway label (ledger ++ [d]) ↔ d.stops label = false ∧ Underway label ledger := by
  constructor
  · rintro ⟨before, here, after, h, hafter⟩
    obtain rfl | ⟨after', e, rfl⟩ := List.eq_nil_or_concat' after
    · obtain ⟨-, heq⟩ := List.append_inj' h rfl
      exact absurd (List.singleton_inj.mp heq) (hd here)
    · rw [← List.cons_append, ← List.append_assoc] at h
      obtain ⟨hledger, heq⟩ := List.append_inj' h rfl
      obtain rfl := List.singleton_inj.mp heq
      exact ⟨hafter d (by simp), before, here, after', hledger,
        fun e he ↦ hafter e (List.mem_append_left _ he)⟩
  · rintro ⟨hstops, before, here, after, rfl, hafter⟩
    refine ⟨before, here, after ++ [d], by rw [List.append_assoc, List.cons_append], fun e he ↦ ?_⟩
    rcases List.mem_append.mp he with he | he
    · exact hafter e he
    · rwa [List.mem_singleton.mp he]

/-! ## Intervals -/

/-- What is known at both ends of an interval, and the work that was stated for it. -/
structure Interval where
  opened : Surroundings
  closed : Surroundings
  work : Work

namespace Interval

/-- The time between both ends, or none if the clock ran backwards. -/
def elapsed (iv : Interval) : Duration := iv.closed.now.saturatingSub iv.opened.now

/-- The two entries that an interval makes. -/
def entries (label : String) (iv : Interval) : List Deed :=
  [.started iv.opened label, .stopped iv.closed label iv.work]

end Interval

/-- The entries that intervals make, of which the last one may still be open. -/
def transcript (label : String) (intervals : List Interval) (pending : Option Surroundings) :
    List Deed :=
  intervals.flatMap (Interval.entries label) ++ pending.toList.map fun here ↦ .started here label

theorem transcript_open (label : String) (intervals : List Interval) (here : Surroundings) :
    transcript label intervals none ++ [.started here label]
      = transcript label intervals (some here) := by
  simp [transcript]

theorem transcript_close (label : String) (intervals : List Interval)
    (opened closed : Surroundings) (work : Work) :
    transcript label intervals (some opened) ++ [.stopped closed label work]
      = transcript label (intervals ++ [⟨opened, closed, work⟩]) none := by
  simp [transcript, Interval.entries]

theorem stopped_mem_transcript {intervals : List Interval} {iv : Interval} (hiv : iv ∈ intervals)
    (label : String) (pending : Option Surroundings) :
    .stopped iv.closed label iv.work ∈ transcript label intervals pending := by
  refine List.mem_append_left _ (List.mem_flatMap.mpr ⟨iv, hiv, ?_⟩)
  simp [Interval.entries]

/-- There are as many intervals as stops. -/
theorem countP_stops_transcript (label : String) (intervals : List Interval)
    (pending : Option Surroundings) :
    (transcript label intervals pending).countP (Deed.stops label) = intervals.length := by
  have hpending : (pending.toList.map fun here ↦ Deed.started here label).countP
      (Deed.stops label) = 0 := by
    rw [List.countP_map, List.countP_eq_zero]
    simp [Deed.stops]
  have hentries (iv : Interval) : (iv.entries label).countP (Deed.stops label) = 1 := by
    simp [Interval.entries, Deed.stops]
  rw [transcript, List.countP_append, hpending, List.countP_flatMap]
  simp [Function.comp_def, hentries]

/-! ## What intervals amount to -/

/-- What all measured threads counted in an interval. -/
def counted (m : Monitor) (iv : Interval) : Reading :=
  m.countSince iv.closed (m.takeSnapshots iv.opened)

/-- The volume of an interval. -/
def volumeOf (m : Monitor) (iv : Interval) : Float :=
  m.intervalVolume iv.closed m.newSource (m.counted iv) iv.work

/-- Adds an interval to the totals. -/
def enter (m : Monitor) (t : Totals) (iv : Interval) : Totals :=
  t.record iv.elapsed (m.volumeOf iv) (m.counted iv)

/-- The totals of some intervals. -/
def totalsOf (m : Monitor) (intervals : List Interval) : Totals := intervals.foldl m.enter {}

/-- The figures of a label after some intervals, of which the last one may still be open. -/
def figuresOf (m : Monitor) (intervals : List Interval) (pending : Option Surroundings) :
    Figures where
  totals := m.totalsOf intervals
  phase := pending.elim .idle fun here ↦ .running here.now (m.takeSnapshots here)

theorem totalsOf_concat (m : Monitor) (intervals : List Interval) (iv : Interval) :
    m.totalsOf (intervals ++ [iv]) = m.enter (m.totalsOf intervals) iv := by
  rw [totalsOf, List.foldl_append, List.foldl_cons, List.foldl_nil, totalsOf]

theorem calls_totalsOf (m : Monitor) (intervals : List Interval) :
    (m.totalsOf intervals).calls.toNat = min intervals.length Count.limit := by
  induction intervals using List.reverseRecOn with
  | nil => rfl
  | append_singleton intervals iv ih =>
    rw [totalsOf_concat, enter, Totals.record, Count.toNat_saturatingAdd, ih, List.length_append]
    change min (min intervals.length Count.limit + 1) Count.limit
      = min (intervals.length + 1) Count.limit
    omega

theorem elapsed_totalsOf (m : Monitor) (intervals : List Interval) :
    (m.totalsOf intervals).elapsed.nanos
      = min ((intervals.map fun iv ↦ iv.elapsed.nanos).foldl (· + ·) 0) Duration.limit := by
  induction intervals using List.reverseRecOn with
  | nil => rfl
  | append_singleton intervals iv ih =>
    rw [totalsOf_concat, enter, Totals.record, Duration.nanos_saturatingAdd, ih, List.map_append,
      List.foldl_append, List.map_singleton, List.foldl_cons, List.foldl_nil]
    omega

theorem volume_totalsOf (m : Monitor) (intervals : List Interval) :
    (m.totalsOf intervals).volume = (intervals.map m.volumeOf).foldl (· + ·) 0 := by
  induction intervals using List.reverseRecOn with
  | nil => rfl
  | append_singleton intervals iv ih =>
    rw [totalsOf_concat, enter, Totals.record, ih, List.map_append, List.foldl_append]
    rfl

theorem counters_totalsOf (m : Monitor) (intervals : List Interval) :
    (m.totalsOf intervals).counters = Reading.total (intervals.map m.counted) := by
  induction intervals using List.reverseRecOn with
  | nil => rfl
  | append_singleton intervals iv ih =>
    rw [totalsOf_concat, enter, Totals.record, ih, Reading.total, Reading.total, List.map_append,
      List.foldl_append]
    rfl

/-! ## The invariant -/

/-- Everything that the monitor knows of a label is in the ledger, which was begun with another
monitor. -/
structure Accounted (m : Monitor) (ledger : List Deed) (m' : Monitor) : Prop where
  figures_eq : ∀ label, ∃ intervals pending,
    recent label ledger = transcript label intervals pending ∧
      m'.figures label = m.figuresOf intervals pending
  running_iff : ∀ label, (m'.figures label).phase ≠ .idle ↔ Underway label ledger

theorem pending_eq_none {intervals : List Interval} {pending : Option Surroundings}
    (h : (m.figuresOf intervals pending).phase = .idle) : pending = none := by
  cases pending with
  | none => rfl
  | some here => cases h

/-- A deed leaves the entries and the figures of other labels alone. -/
theorem Accounted.figures_of_other (h : m.Accounted ledger m') {d : Deed}
    (hempties : d.empties label = false) (hconcerns : d.concerns label = false)
    (hfigures : m''.figures label = m'.figures label) :
    ∃ intervals pending, recent label (ledger ++ [d]) = transcript label intervals pending ∧
      m''.figures label = m.figuresOf intervals pending := by
  rw [recent_concat_of_other hempties hconcerns, hfigures]
  exact h.figures_eq label

theorem Accounted.started (h : m.Accounted ledger m') (hsetup : m'.SetUpAs m)
    {here : Surroundings} (e : m'.Effect m'' (some (.started here label))) :
    m.Accounted (ledger ++ [.started here label]) m'' := by
  obtain ⟨hidle, hfigures⟩ := e
  refine ⟨fun other ↦ ?_, fun other ↦ ?_⟩
  · by_cases heq : label = other
    · subst heq
      obtain ⟨intervals, pending, hrecent, hbefore⟩ := h.figures_eq label
      obtain rfl := pending_eq_none (hbefore ▸ hidle)
      refine ⟨intervals, some here, ?_, ?_⟩
      · rw [recent_concat_of_concerns rfl (by simp [Deed.concerns]), hrecent, transcript_open]
      · rw [hfigures, Function.update_self, hbefore, hsetup.takeSnapshots_eq]
        rfl
    · refine h.figures_of_other rfl (by simpa [Deed.concerns] using heq) ?_
      rw [hfigures, Function.update_of_ne (Ne.symm heq)]
  · by_cases heq : label = other
    · subst heq
      rw [hfigures, Function.update_self]
      simp [underway_concat_started]
    · rw [hfigures, Function.update_of_ne (Ne.symm heq), underway_concat (by simp [heq]),
        h.running_iff]
      simp [Deed.stops]

theorem Accounted.stopped (h : m.Accounted ledger m') (hsetup : m'.SetUpAs m)
    {here : Surroundings} {work : Work} (e : m'.Effect m'' (some (.stopped here label work))) :
    m.Accounted (ledger ++ [.stopped here label work]) m'' := by
  obtain ⟨since, snapshots, hrunning, hfigures⟩ := e
  refine ⟨fun other ↦ ?_, fun other ↦ ?_⟩
  · by_cases heq : label = other
    · subst heq
      obtain ⟨intervals, pending, hrecent, hbefore⟩ := h.figures_eq label
      rw [hbefore] at hrunning hfigures
      cases pending with
      | none => cases hrunning
      | some opened =>
        cases hrunning
        refine ⟨intervals ++ [⟨opened, here, work⟩], none, ?_, ?_⟩
        · rw [recent_concat_of_concerns rfl (by simp [Deed.concerns]), hrecent, transcript_close]
        · rw [hfigures, Function.update_self, hsetup.intervalVolume_eq, hsetup.newSource_eq,
            hsetup.countSince_eq, figuresOf, figuresOf, totalsOf_concat]
          rfl
    · refine h.figures_of_other rfl (by simpa [Deed.concerns] using heq) ?_
      rw [hfigures, Function.update_of_ne (Ne.symm heq)]
  · rw [underway_concat (by simp), ← h.running_iff, hfigures]
    by_cases heq : label = other
    · subst heq
      simp [Deed.stops]
    · rw [Function.update_of_ne (Ne.symm heq)]
      simp [Deed.stops, heq]

theorem Accounted.emptied (h : m.Accounted ledger m')
    (e : m'.Effect m'' (some (.emptied label))) : m.Accounted (ledger ++ [.emptied label]) m'' := by
  obtain ⟨hidle, hfigures⟩ := e
  refine ⟨fun other ↦ ?_, fun other ↦ ?_⟩
  · by_cases heq : label = other
    · subst heq
      refine ⟨[], none, recent_concat_of_empties (by simp [Deed.empties]), ?_⟩
      rw [hfigures, Function.update_self]
      rfl
    · refine h.figures_of_other (by simpa [Deed.empties] using heq) rfl ?_
      rw [hfigures, Function.update_of_ne (Ne.symm heq)]
  · rw [underway_concat (by simp), ← h.running_iff, hfigures]
    by_cases heq : label = other
    · subst heq
      simp [Deed.stops, hidle]
    · rw [Function.update_of_ne (Ne.symm heq)]
      simp [Deed.stops]

theorem Accounted.emptiedAll (h : m.Accounted ledger m') (e : m'.Effect m'' (some .emptiedAll)) :
    m.Accounted (ledger ++ [.emptiedAll]) m'' := by
  obtain ⟨hidle, hfigures⟩ := e
  refine ⟨fun label ↦ ⟨[], none, recent_concat_of_empties rfl, by rw [hfigures]; rfl⟩,
    fun label ↦ ?_⟩
  rw [underway_concat (by simp), ← h.running_iff, hfigures]
  simp [Deed.stops, hidle]

/-- **One operation.** What it does is entered, and the figures change accordingly. -/
theorem Accounted.step (h : m.Accounted ledger m') (hsetup : m'.SetUpAs m) {d? : Option Deed}
    (e : m'.Effect m'' d?) : m.Accounted (ledger ++ d?.toList) m'' := by
  cases d? with
  | none =>
    have hfigures : m''.figures = m'.figures := e
    rw [Option.toList_none, List.append_nil]
    exact ⟨by rw [hfigures]; exact h.figures_eq, by rw [hfigures]; exact h.running_iff⟩
  | some d =>
    cases d with
    | started here label => exact h.started hsetup e
    | stopped here label work => exact h.stopped hsetup e
    | emptied label => exact h.emptied e
    | emptiedAll => exact h.emptiedAll e

/-! ## Runs -/

/-- The monitors that a run can begin with: one that was just built, or a new replica. -/
inductive Begins : Monitor → Prop
  | build (settings : Settings) (adapterEvents : Option (List String)) (traced : Bool)
      (now : Duration) : Begins (build settings adapterEvents traced now)
  | replica {m : Monitor} (thread : ℕ) (hm : m.Reachable) : Begins (m.replica thread)

theorem Begins.reachable (h : m.Begins) : m.Reachable := by
  cases h with
  | build settings adapterEvents traced now => exact .build settings adapterEvents traced now
  | replica thread hm => exact .replica thread hm

/-- Nothing is measured yet and nothing runs. -/
theorem Begins.figures_eq (h : m.Begins) (label : String) : m.figures label = {} := by
  have hblank : ∀ s ∈ m.sections, s.totals = {} ∧ s.phase = .idle := by
    cases h with
    | build settings adapterEvents traced now =>
      simp [sections_build]
    | replica thread hm =>
      intro s hs
      rw [hm.inStep.replica_eq] at hs
      obtain ⟨t, -, rfl⟩ := List.mem_map.mp hs
      exact ⟨rfl, rfl⟩
  rw [figures]
  obtain hnew | hmem := m.sectionOf_cases label
  · rw [hnew]
  · obtain ⟨htotals, hphase⟩ := hblank _ hmem
    rw [htotals, hphase]

theorem Begins.accounted_nil (h : m.Begins) : m.Accounted [] m where
  figures_eq label := ⟨[], none, rfl, h.figures_eq label⟩
  running_iff label := by
    rw [h.figures_eq]
    simp [not_underway_nil]

/-- **A run.** After any operations on one monitor its figures are those of the ledger. -/
theorem Begins.accounted_run (h : m.Begins) {ops : List Operation} (hsolo : ∀ op ∈ ops, op.Solo) :
    m.Accounted (m.deeds ops) (m.run ops) := by
  induction ops using List.reverseRecOn with
  | nil => exact h.accounted_nil
  | append_singleton ops op ih =>
    have hreach : (m.run ops).Reachable := h.reachable.run ops
    have hsetup : (m.run ops).SetUpAs m := (run_edits h.reachable.inStep ops).setUpAs
    have hbefore := ih fun op hop ↦ hsolo op (List.mem_append_left _ hop)
    rw [run_append, deeds_append]
    exact hbefore.step hsetup
      (hreach.inStep.effect_after hreach.oneSource (hsolo op (by simp)))

/-- The totals of a section are those of its own intervals. -/
theorem Begins.exists_totals_eq (h : m.Begins) {ops : List Operation}
    (hsolo : ∀ op ∈ ops, op.Solo) {s : Section} (hs : s ∈ (m.run ops).sections) :
    (∃ intervals pending, recent s.label (m.deeds ops) = transcript s.label intervals pending ∧
        s.totals = m.totalsOf intervals) ∧
      (s.isRunning = true ↔ Underway s.label (m.deeds ops)) := by
  obtain ⟨k, hk⟩ := List.getElem?_of_mem hs
  have hfigures : (m.run ops).figures s.label = ⟨s.totals, s.phase⟩ := by
    rw [figures, (h.reachable.run ops).inStep.sectionOf_section hk]
  have haccounted := h.accounted_run hsolo
  obtain ⟨intervals, pending, hrecent, heq⟩ := haccounted.figures_eq s.label
  refine ⟨⟨intervals, pending, hrecent, congrArg Figures.totals (hfigures ▸ heq)⟩, ?_⟩
  rw [← haccounted.running_iff, hfigures, Ne, ← isRunning_eq_false_iff, Bool.not_eq_false]

/-! ## What the totals of a section are -/

/-- The totals of a section in terms of a ledger that was begun with the monitor. -/
structure Accounts (m : Monitor) (ledger : List Deed) (s : Section) (intervals : List Interval)
    (pending : Option Surroundings) : Prop where
  /-- The starts and stops since the section was last emptied alternate: they are the ends of these
  intervals, and the start of one that is open. -/
  recent_eq : recent s.label ledger = transcript s.label intervals pending
  /-- Every stop since then is counted, as far as counts go. -/
  calls_eq :
    s.totals.calls.toNat = min ((recent s.label ledger).countP (Deed.stops s.label)) Count.limit
  /-- The time is the sum over these intervals, as far as durations go; an interval in which the
  clock ran backwards takes no time. -/
  elapsed_eq : s.totals.elapsed.nanos
    = min ((intervals.map fun iv ↦ iv.closed.now.nanos - iv.opened.now.nanos).foldl (· + ·) 0)
        Duration.limit
  /-- Volumes are added in order. -/
  volume_eq : s.totals.volume = (intervals.map m.volumeOf).foldl (· + ·) 0
  counters_eq : s.totals.counters = Reading.total (intervals.map m.counted)
  /-- The section runs if it was started and not stopped since. -/
  isRunning_iff : s.isRunning = true ↔ Underway s.label ledger

/-- **Totals are exact.** After any operations on one monitor the totals of every section are those
of its own intervals since it was last emptied, and it runs if the last of them is open. Calls that
were refused and calls on other labels leave no trace in them. -/
theorem totals_are_exact (h : m.Begins) {ops : List Operation} (hsolo : ∀ op ∈ ops, op.Solo)
    {s : Section} (hs : s ∈ (m.run ops).sections) :
    ∃ intervals pending, m.Accounts (m.deeds ops) s intervals pending := by
  obtain ⟨⟨intervals, pending, hrecent, htotals⟩, hrunning⟩ := h.exists_totals_eq hsolo hs
  refine ⟨intervals, pending, hrecent, ?_, ?_, ?_, ?_, hrunning⟩
  · rw [hrecent, countP_stops_transcript, htotals, calls_totalsOf]
  · rw [htotals, elapsed_totalsOf]
    rfl
  · rw [htotals, volume_totalsOf]
  · rw [htotals, counters_totalsOf]

/-- A start of a label that runs already is refused, and the clock runs backwards in the second
interval. -/
def laps : List Operation :=
  [.call (.start (.plain ⟨5⟩) "lap"), .call (.start (.plain ⟨7⟩) "lap"),
    .call (.stop (.plain ⟨9⟩) "lap" {}), .call (.start (.plain ⟨20⟩) "lap"),
    .call (.stop (.plain ⟨15⟩) "lap" {})]

/-- There are two intervals, of which only the first takes time. -/
theorem laps_are_exact :
    let m := build {} none false .zero
    let s := (m.run laps).sectionOf "lap"
    m.Begins ∧ (∀ op ∈ laps, op.Solo) ∧ s ∈ (m.run laps).sections ∧
      (∃ intervals pending, m.Accounts (m.deeds laps) s intervals pending) ∧
      s.totals.calls = 2 ∧ s.totals.elapsed = ⟨4⟩ := by
  have hsolo : ∀ op ∈ laps, op.Solo := by simp [laps, Operation.Solo]
  have hmem : ((build {} none false .zero).run laps).sectionOf "lap"
      ∈ ((build {} none false .zero).run laps).sections := by decide +kernel
  have hbegins : (build {} none false .zero).Begins := .build ..
  exact ⟨hbegins, hsolo, hmem, totals_are_exact hbegins hsolo hmem, by decide +kernel,
    by decide +kernel⟩

end Monitor

end SectionMonitor
