import Mathlib.Data.List.Chain
import SectionMonitor.Proofs.Calls
import SectionMonitor.Proofs.Merge

/-!
# What a timeline tells

The timeline of a monitor is read by somebody who does not know the monitor: an entry names a handle
only, handles are given out anew after everything has been forgotten, and entries come from calls,
merges and gathers alike. What such a reader may rely on is said in terms of the entries alone: the
label that a handle stands for (`labelIn`), the starts and stops of a handle (`marks`), and whether
its last start is still open (`isOpen`).

`Mirrored` relates this to the monitor. It is kept by every elementary change (`Edit.mirrored`), so
it holds after every operation, failed or not. Which operation has written an entry is a matter of
whole operations, and `Growth` says what each of them adds to the timeline: labels, and as its last
entry a start or a stop if it is one that succeeds, or the end of the timeline if it is a gather.
-/

namespace SectionMonitor

/-- What a timeline tells of a section: its label, and whether it runs. -/
def Section.status (s : Section) : String × Bool := (s.label, s.isRunning)

/-! ## Reading a timeline -/

/-- The entries of a timeline, the oldest one first. -/
abbrev Timeline := List TraceEvent

namespace TraceEvent

/-- The handle whose interval an entry opens or closes. -/
def interval? : TraceEvent → Option Index
  | start i _ => some i
  | stop i _ _ => some i
  | _ => none

/-- The entry that gives a label to a handle. -/
def define (d : Index × String) : TraceEvent := defineLabel d.1 d.2

/-- Whether an entry opens an interval of a handle, or closes one. -/
def mark? (i : Index) : TraceEvent → Option Bool
  | start j _ => if j = i then some true else none
  | stop j _ _ => if j = i then some false else none
  | _ => none

/-- The label that an entry gives to a handle. -/
def labelOf? (i : Index) : TraceEvent → Option String
  | defineLabel j label => if j = i then some label else none
  | _ => none

theorem mark?_of_ne {e : TraceEvent} {i j : Index} (h : e.interval? = some j) (hne : j ≠ i) :
    e.mark? i = none := by
  cases e with
  | start => exact if_neg (Option.some.inj h ▸ hne)
  | stop => exact if_neg (Option.some.inj h ▸ hne)
  | defineLabel => rfl
  | finalize => rfl

theorem mark?_of_none {e : TraceEvent} (h : e.interval? = none) (i : Index) :
    e.mark? i = none := by
  cases e with
  | start => cases h
  | stop => cases h
  | defineLabel => rfl
  | finalize => rfl

theorem labelOf?_of_interval {e : TraceEvent} {j : Index} (h : e.interval? = some j) (i : Index) :
    e.labelOf? i = none := by
  cases e with
  | defineLabel => cases h
  | _ => rfl

end TraceEvent

namespace Timeline

variable {timeline : Timeline} {e : TraceEvent} {i : Index}

/-- The starts (true) and stops (false) of a handle. -/
def marks (timeline : Timeline) (i : Index) : List Bool := timeline.filterMap (TraceEvent.mark? i)

/-- Starts and stops of a handle take turns, and the first one is a start. -/
def TakesTurns (timeline : Timeline) (i : Index) : Prop :=
  (false :: timeline.marks i).IsChain (· ≠ ·)

/-- Whether the last start of a handle has not been followed by a stop. -/
def isOpen (timeline : Timeline) (i : Index) : Bool := (timeline.marks i).getLastD false

/-- The label that a handle stands for after all entries: that of its latest definition. -/
def labelIn (timeline : Timeline) (i : Index) : Option String :=
  timeline.reverse.findSome? (TraceEvent.labelOf? i)

theorem marks_concat (timeline : Timeline) (e : TraceEvent) (i : Index) :
    marks (timeline ++ [e]) i = timeline.marks i ++ (e.mark? i).toList := by
  rw [marks, List.filterMap_append, List.filterMap_cons, List.filterMap_nil]
  cases e.mark? i <;> rfl

theorem marks_concat_of_none (h : e.mark? i = none) :
    marks (timeline ++ [e]) i = timeline.marks i := by
  rw [marks_concat, h, Option.toList_none, List.append_nil]

theorem marks_concat_of_some {b : Bool} (h : e.mark? i = some b) :
    marks (timeline ++ [e]) i = timeline.marks i ++ [b] := by
  rw [marks_concat, h, Option.toList_some]

theorem labelIn_concat (timeline : Timeline) (e : TraceEvent) (i : Index) :
    labelIn (timeline ++ [e]) i = (e.labelOf? i).or (timeline.labelIn i) := by
  rw [labelIn, List.reverse_append, List.reverse_singleton, List.singleton_append,
    List.findSome?_cons]
  cases e.labelOf? i <;> rfl

/-- A handle may be started while it is not open and stopped while it is. -/
theorem TakesTurns.concat {b : Bool} (h : timeline.TakesTurns i) (hmark : e.mark? i = some b)
    (hturn : timeline.isOpen i ≠ b) : TakesTurns (timeline ++ [e]) i := by
  rw [TakesTurns, marks_concat_of_some hmark, ← List.cons_append, List.isChain_append]
  refine ⟨h, .singleton b, fun x hx y hy ↦ ?_⟩
  rw [List.getLast?_cons, Option.mem_some_iff] at hx
  rw [List.head?_cons, Option.mem_some_iff] at hy
  rw [← hx, ← hy, ← List.getLastD_eq_getLast?]
  exact hturn

theorem isOpen_concat {b : Bool} (hmark : e.mark? i = some b) : isOpen (timeline ++ [e]) i = b := by
  rw [isOpen, marks_concat_of_some hmark, List.getLastD_concat]

end Timeline

namespace Monitor

variable {m m' : Monitor}

/-- The timeline that a monitor has recorded. -/
def timeline (m : Monitor) : Timeline := (m.trace.getD #[]).toList

theorem timeline_of_record {e : TraceEvent} (h : m.trace.isSome)
    (htrace : m'.trace = m.trace.map fun t ↦ t.push e) : m'.timeline = m.timeline ++ [e] := by
  obtain ⟨t, ht⟩ := Option.isSome_iff_exists.mp h
  rw [timeline, timeline, htrace, ht]
  exact Array.toList_push

theorem timeline_of_trace (h : m'.trace = m.trace) : m'.timeline = m.timeline := by
  rw [timeline, h, timeline]

/-! ## Timelines and monitors -/

/-- What a timeline tells of all sections, in the order of their handles. -/
def statuses (m : Monitor) : List (String × Bool) := m.sections.map Section.status

theorem statuses_of_modify {k : ℕ} {s : Section} {f : Section → Section}
    (hs : m.sections[k]? = some s) (hsections : m'.sections = m.sections.modify k f) :
    m'.statuses = m.statuses.set k (f s).status := by
  rw [statuses, hsections, List.modify_eq_set_getElem?, hs]
  exact List.map_set

/-- A section may be changed in ways that no timeline tells of. -/
theorem statuses_of_modify_eq {k : ℕ} {s : Section} {f : Section → Section}
    (hs : m.sections[k]? = some s) (hsections : m'.sections = m.sections.modify k f)
    (hf : (f s).status = s.status) : m'.statuses = m.statuses := by
  obtain ⟨hlt, heq⟩ := List.getElem?_eq_some_iff.mp hs
  rw [statuses_of_modify hs hsections, hf, statuses, ← List.map_set, ← heq,
    List.set_getElem_self hlt]

@[simp] theorem trace_sealed (m : Monitor) (now : Duration) : (m.sealed now).trace = m.trace := by
  rw [sealed, stopRoot]
  split <;> rfl

theorem status_absorb (s : Section) (shares : List Totals) :
    (s.absorb shares).status = s.status := by
  rw [s.absorb_eq_with_totals]
  rfl

/-- The timeline tells the truth about the sections of its monitor: which label a handle has, and
that it is open exactly while the section runs. -/
structure Mirrored (m : Monitor) : Prop where
  recorded : m.trace.isSome
  begins : m.timeline.head? = some (.defineLabel .root "Root")
  takesTurns : ∀ i, m.timeline.TakesTurns i
  root_closed : m.timeline.isOpen .root = false
  isOpen_eq : ∀ k, m.timeline.isOpen ⟨k + 1⟩ = (m.statuses[k]?).any Prod.snd
  labelIn_eq : ∀ k status, m.statuses[k]? = some status →
    m.timeline.labelIn ⟨k + 1⟩ = some status.1

namespace Mirrored

/-- What was measured, and properties, are nothing that a timeline tells. -/
theorem congr (h : m.Mirrored) (htrace : m'.trace = m.trace)
    (hstatuses : m'.statuses = m.statuses) : m'.Mirrored := by
  have htimeline := timeline_of_trace htrace
  constructor
  · rw [htrace]
    exact h.recorded
  all_goals rw [htimeline]
  · exact h.begins
  · exact h.takesTurns
  · exact h.root_closed
  · rw [hstatuses]
    exact h.isOpen_eq
  · rw [hstatuses]
    exact h.labelIn_eq

/-- Another entry leaves the first one where it is. -/
theorem begins_of_record {e : TraceEvent} (h : m.Mirrored)
    (htrace : m'.trace = m.trace.map fun t ↦ t.push e) :
    m'.trace.isSome ∧ m'.timeline.head? = some (.defineLabel .root "Root") := by
  constructor
  · rw [htrace, Option.isSome_map]
    exact h.recorded
  · rw [timeline_of_record h.recorded htrace, List.head?_append, h.begins, Option.some_or]

/-- An entry that opens or closes no interval, after which the handles stand for labels as they
should. -/
theorem note {e : TraceEvent} (h : m.Mirrored) (hquiet : e.interval? = none)
    (htrace : m'.trace = m.trace.map fun t ↦ t.push e)
    (hrunning : ∀ k : ℕ, (m'.statuses[k]?).any Prod.snd = (m.statuses[k]?).any Prod.snd)
    (hlabels : ∀ k status, m'.statuses[k]? = some status →
      (e.labelOf? ⟨k + 1⟩).or (m.timeline.labelIn ⟨k + 1⟩) = some status.1) : m'.Mirrored := by
  have htimeline := timeline_of_record h.recorded htrace
  have hmarks (i : Index) : m'.timeline.marks i = m.timeline.marks i := by
    rw [htimeline, Timeline.marks_concat_of_none (TraceEvent.mark?_of_none hquiet i)]
  obtain ⟨hrecorded, hbegins⟩ := h.begins_of_record htrace
  refine ⟨hrecorded, hbegins, fun i ↦ ?_, ?_, fun k ↦ ?_, fun k status hstatus ↦ ?_⟩
  · rw [Timeline.TakesTurns, hmarks]
    exact h.takesTurns i
  · rw [Timeline.isOpen, hmarks]
    exact h.root_closed
  · rw [Timeline.isOpen, hmarks, hrunning]
    exact h.isOpen_eq k
  · rw [htimeline, Timeline.labelIn_concat]
    exact hlabels k status hstatus

/-- An entry that opens the interval of a section that does not run, or closes that of one that
does. -/
theorem turn {e : TraceEvent} {k : ℕ} {label : String} {b : Bool} (h : m.Mirrored)
    (hinterval : e.interval? = some ⟨k + 1⟩) (hmark : e.mark? ⟨k + 1⟩ = some b)
    (hstatus : m.statuses[k]? = some (label, !b))
    (htrace : m'.trace = m.trace.map fun t ↦ t.push e)
    (hstatuses : m'.statuses = m.statuses.set k (label, b)) : m'.Mirrored := by
  have htimeline := timeline_of_record h.recorded htrace
  have hothers {i : Index} (hi : (⟨k + 1⟩ : Index) ≠ i) :
      m'.timeline.marks i = m.timeline.marks i := by
    rw [htimeline, Timeline.marks_concat_of_none (TraceEvent.mark?_of_ne hinterval hi)]
  obtain ⟨hlt, -⟩ := List.getElem?_eq_some_iff.mp hstatus
  have hopen : m.timeline.isOpen ⟨k + 1⟩ = !b := by rw [h.isOpen_eq, hstatus, Option.any_some]
  obtain ⟨hrecorded, hbegins⟩ := h.begins_of_record htrace
  refine ⟨hrecorded, hbegins, fun i ↦ ?_, ?_, fun j ↦ ?_, fun j status hj ↦ ?_⟩
  · by_cases hi : (⟨k + 1⟩ : Index) = i
    · subst hi
      rw [htimeline]
      exact (h.takesTurns _).concat hmark (by simp [hopen])
    · rw [Timeline.TakesTurns, hothers hi]
      exact h.takesTurns i
  · rw [Timeline.isOpen, hothers (by simp [Index.root])]
    exact h.root_closed
  · rw [hstatuses]
    by_cases hjk : k = j
    · subst hjk
      rw [htimeline, Timeline.isOpen_concat hmark, List.getElem?_set_self hlt, Option.any_some]
    · rw [Timeline.isOpen, hothers (by simpa using hjk), List.getElem?_set_ne hjk]
      exact h.isOpen_eq j
  · rw [htimeline, Timeline.labelIn_concat, TraceEvent.labelOf?_of_interval hinterval,
      Option.none_or]
    rw [hstatuses] at hj
    by_cases hjk : k = j
    · subst hjk
      rw [List.getElem?_set_self hlt] at hj
      obtain rfl := Option.some.inj hj
      exact h.labelIn_eq k (label, !b) hstatus
    · rw [List.getElem?_set_ne hjk] at hj
      exact h.labelIn_eq j status hj

/-- A label that is new gets a handle that no section has. -/
theorem register (h : m.Mirrored) (hin : m.InStep) {label : String}
    (hnew : m.lookup label = none) : (m.register label).Mirrored := by
  have hregister := register_of_new hnew
  have hlength : m.sections.length = m.statuses.length := (List.length_map _).symm
  rw [hin.indexOf_of_new hnew, hlength] at hregister
  have hstatuses : (m.register label).statuses = m.statuses ++ [(label, false)] := by
    rw [statuses, sections_register_of_new hnew, List.map_append]
    rfl
  refine h.note (e := .defineLabel ⟨m.statuses.length + 1⟩ label) rfl (by rw [hregister]; rfl)
    (fun k ↦ ?_) fun k status hstatus ↦ ?_
  · -- The new section does not run, nor has its handle been started since it was last given out.
    rw [hstatuses]
    rcases Nat.lt_or_ge k m.statuses.length with hlt | hge
    · rw [List.getElem?_append_left hlt]
    · rw [List.getElem?_append_right hge, List.getElem?_eq_none hge]
      cases k - m.statuses.length <;> rfl
  · rw [hstatuses] at hstatus
    by_cases hk : k = m.statuses.length
    · subst hk
      rw [List.getElem?_concat_length] at hstatus
      obtain rfl := Option.some.inj hstatus
      rw [TraceEvent.labelOf?, if_pos rfl, Option.some_or]
    · obtain ⟨hlt, -⟩ := List.getElem?_eq_some_iff.mp hstatus
      rw [List.length_append, List.length_singleton] at hlt
      rw [List.getElem?_append_left (by omega)] at hstatus
      rw [TraceEvent.labelOf?, if_neg (by simpa using Ne.symm hk), Option.none_or]
      exact h.labelIn_eq k status hstatus

/-- The handles that are open are those of the sections that run. -/
theorem isOpen_iff (h : m.Mirrored) (i : Index) :
    m.timeline.isOpen i ↔ ∃ k s, i = ⟨k + 1⟩ ∧ m.sections[k]? = some s ∧ s.isRunning := by
  obtain ⟨_ | k⟩ := i
  · refine iff_of_false (Bool.eq_false_iff.mp h.root_closed) ?_
    rintro ⟨k, s, hi, -⟩
    cases hi
  · rw [h.isOpen_eq, statuses, List.getElem?_map, Option.any_map, Option.any_eq_true]
    constructor
    · rintro ⟨s, hs, hrunning⟩
      exact ⟨k, s, rfl, hs, hrunning⟩
    · rintro ⟨j, s, hj, hs, hrunning⟩
      obtain rfl : k = j := Nat.succ.inj (Index.mk.inj hj)
      exact ⟨s, hs, hrunning⟩

end Mirrored

/-- **Every change keeps the timeline true.** Whatever changes the label of a handle, or whether its
section runs, writes this down, and nothing else writes about it. -/
theorem Edit.mirrored (e : Edit m m') (hin : m.InStep) (h : m.Mirrored) : m'.Mirrored := by
  cases e with
  | register hnew => exact h.register hin hnew
  | bind hs hbound =>
    refine h.congr rfl (statuses_of_modify_eq hs rfl ?_)
    rw [eq_of_bind? hbound]
    rfl
  | @openInterval k s here hs hidle hfree =>
    have hstatus : m.statuses[k]? = some (s.label, !true) := by
      rw [statuses, List.getElem?_map, hs, Option.map_some, Section.status,
        isRunning_eq_false_iff.mpr hidle]
      rfl
    refine h.turn (e := .start ⟨k + 1⟩ here.now.seconds) rfl (if_pos rfl) hstatus rfl ?_
    rw [statuses_of_modify hs (sections_openInterval m here k)]
    rfl
  | @closeInterval k s since snapshots here work hs hrunning =>
    have hstatus : m.statuses[k]? = some (s.label, !false) := by
      rw [statuses, List.getElem?_map, hs, Option.map_some, Section.status, Section.isRunning,
        hrunning]
      rfl
    refine h.turn (e := .stop ⟨k + 1⟩ here.now.seconds _) rfl (if_pos rfl) hstatus rfl ?_
    rw [statuses_of_modify hs (sections_closeInterval ..)]
    rfl
  | clear hs hidle => exact h.congr rfl (statuses_of_modify_eq hs rfl rfl)
  | restart now hidle =>
    -- All handles are closed, so that they can stand for other labels from now on.
    refine ⟨h.recorded, h.begins, h.takesTurns, h.root_closed, fun k ↦ ?_, ?_⟩
    · refine (h.isOpen_eq k).trans ?_
      rw [statuses, List.getElem?_map]
      cases hs : m.sections[k]? with
      | none => rfl
      | some s => exact running?_eq_none_iff.mp hidle s (List.mem_of_getElem? hs)
    · intro k status hstatus
      cases hstatus
  | absorb shares =>
    refine h.congr rfl ?_
    rw [statuses, sections_absorb, List.map_map]
    exact List.map_congr_left fun s _ ↦ status_absorb s _
  | sealRoot now hopen hidle =>
    exact h.congr (trace_sealed m now) (by rw [statuses, sections_sealed, statuses])
  | finalize hsealed =>
    exact h.note (e := .finalize) rfl rfl (fun k ↦ rfl) h.labelIn_eq

/-- A new monitor that keeps a timeline has written down its root section. -/
theorem mirrored_build (settings : Settings) (adapterEvents : Option (List String))
    (now : Duration) : (build settings adapterEvents true now).Mirrored where
  recorded := rfl
  begins := rfl
  takesTurns _ := .singleton false
  root_closed := rfl
  isOpen_eq _ := rfl
  labelIn_eq := nofun

theorem mirrored_run (settings : Settings) (adapterEvents : Option (List String)) (now : Duration)
    (ops : List Operation) : ((build settings adapterEvents true now).run ops).Mirrored := by
  have hbuilt := inStep_build settings adapterEvents true now
  refine ((run_edits hbuilt ops).keep (P := fun m ↦ m.InStep ∧ m.Mirrored)
    (fun _ _ step h ↦ ⟨step.inStep h.1, step.mirrored h.1 h.2⟩)
    ⟨hbuilt, mirrored_build settings adapterEvents now⟩).2

/-! ## Who writes what -/

/-- The timeline with more entries, if one is recorded. -/
def traceWith (m : Monitor) (entries : List TraceEvent) : Option Trace :=
  m.trace.map fun t ↦ t ++ entries.toArray

@[simp] theorem traceWith_nil (m : Monitor) : m.traceWith [] = m.trace := by
  simp [traceWith]

theorem traceWith_of_trace {entries : List TraceEvent} (h : m'.trace = m.traceWith entries)
    (more : List TraceEvent) : m'.traceWith more = m.traceWith (entries ++ more) := by
  rw [traceWith, h, traceWith, traceWith, Option.map_map]
  congr 1
  funext t
  simp

theorem trace_record (m : Monitor) (e : TraceEvent) : (m.record e).trace = m.traceWith [e] := by
  rw [record, traceWith]
  congr 1

theorem timeline_of_traceWith {entries : List TraceEvent} (hrecorded : m.trace.isSome)
    (h : m'.trace = m.traceWith entries) : m'.timeline = m.timeline ++ entries := by
  obtain ⟨t, ht⟩ := Option.isSome_iff_exists.mp hrecorded
  rw [timeline, timeline, h, traceWith, ht]
  simp

/-- Nothing but labels has been added: they have come to stand last, and each of them has been
written down under its handle. -/
structure Names (m : Monitor) (added : List (Index × String)) (m' : Monitor) : Prop where
  trace_eq : m'.trace = m.traceWith (added.map TraceEvent.define)
  labels_eq : m'.registry.labels = m.registry.labels ++ added.map Prod.snd
  gathered_eq : m'.gathered = m.gathered

namespace Names

variable {m'' : Monitor} {added added' : List (Index × String)}

theorem nothing (htrace : m'.trace = m.trace) (hregistry : m'.registry = m.registry)
    (hgathered : m'.gathered = m.gathered) : m.Names [] m' where
  trace_eq := by rw [htrace, List.map_nil, traceWith_nil]
  labels_eq := by rw [hregistry, List.map_nil, List.append_nil]
  gathered_eq := hgathered

theorem trans (h : m.Names added m') (h' : m'.Names added' m'') :
    m.Names (added ++ added') m'' where
  trace_eq := by rw [h'.trace_eq, traceWith_of_trace h.trace_eq, List.map_append]
  labels_eq := by rw [h'.labels_eq, h.labels_eq, List.map_append, List.append_assoc]
  gathered_eq := h'.gathered_eq.trans h.gathered_eq

/-- What no timeline and no registry tells may be changed besides. -/
theorem congr (h : m.Names added m') (htrace : m''.trace = m'.trace)
    (hregistry : m''.registry = m'.registry) (hgathered : m''.gathered = m'.gathered) :
    m.Names added m'' := by
  simpa using h.trans (nothing htrace hregistry hgathered)

theorem register (m : Monitor) (label : String) : ∃ added, m.Names added (m.register label) := by
  cases hlookup : m.lookup label with
  | some i =>
    rw [register_of_known hlookup]
    exact ⟨[], nothing rfl rfl rfl⟩
  | none =>
    refine ⟨[(m.indexOf label, label)], ?_, labels_register_of_new hlookup, gathered_register m _⟩
    rw [register_of_new hlookup, trace_record]
    rfl

theorem registerAll (m : Monitor) (labels : List String) :
    ∃ added, m.Names added (m.registerAll labels).1 := by
  induction labels generalizing m with
  | nil => exact ⟨[], nothing rfl rfl rfl⟩
  | cons label rest ih =>
    obtain ⟨added, hfirst⟩ := register m label
    obtain ⟨added', hrest⟩ := ih (m.register label)
    exact ⟨_, hfirst.trans hrest⟩

theorem setProperties (h : m.InStep) (label : String) (requested : Properties) :
    ∃ added, m.Names added (m.setProperties label requested).monitor := by
  obtain ⟨added, hregister⟩ := register m label
  obtain ⟨-, hm⟩ | ⟨k, bound, -, -, -, hm⟩ := h.setProperties_cases label requested
  · exact ⟨added, hm ▸ hregister⟩
  · exact ⟨added, hm ▸ hregister.congr rfl rfl rfl⟩

theorem declaration (h : m.InStep) (s : Section) :
    ∃ added, m.Names added (m.perform s.declaration).monitor := by
  by_cases hexplicit : s.binding = .explicit
  · rw [perform_declaration_of_explicit hexplicit]
    exact setProperties h s.label s.properties
  · rw [perform_declaration_of_implicit hexplicit]
    exact register m s.label

theorem declareAll (h : m.InStep) (shares : List Section) :
    ∃ added, m.Names added (m.declareAll shares) := by
  induction shares using List.reverseRecOn with
  | nil => exact ⟨[], nothing rfl rfl rfl⟩
  | append_singleton shares s ih =>
    obtain ⟨added, hshares⟩ := ih
    obtain ⟨added', hlast⟩ := declaration (h.declareAll shares) s
    rw [Monitor.declareAll, List.map_append, List.map_singleton, run_append]
    exact ⟨_, hshares.trans hlast⟩

theorem merge (h : m.InStep) (replicas : List Monitor) :
    ∃ added, m.Names added (m.merge replicas).monitor := by
  obtain ⟨v, -, hleft⟩ | ⟨-, -, hm⟩ := h.merge_cases replicas
  · generalize (m.merge replicas).monitor = m' at hleft
    cases hleft with
    | running hs => exact ⟨[], nothing rfl rfl rfl⟩
    | conflict =>
      obtain ⟨added, hbefore⟩ := declareAll h _
      obtain ⟨added', hlast⟩ := register (m.declareAll _) _
      exact ⟨_, hbefore.trans hlast⟩
  · obtain ⟨added, hall⟩ := declareAll h (replicas.flatMap sections)
    rw [hm]
    exact ⟨added, hall.congr rfl rfl rfl⟩

theorem parallel (h : m.InStep) (here : Surroundings) (body : ℕ → Monitor → Monitor × Ending) :
    ∃ added, m.Names added (m.parallel here body).monitor := by
  obtain ⟨-, -, -, -, hm⟩ | ⟨-, -, hm⟩ :=
    m.join_cases ((m.crew here).mapIdx fun thread r ↦ body thread r.1)
  · rw [Monitor.parallel, hm]
    exact ⟨[], nothing rfl rfl rfl⟩
  · rw [Monitor.parallel, hm]
    exact merge h _

end Names

/-- The entry of a start or a stop that succeeds. -/
inductive Writes (m : Monitor) : Call → TraceEvent → Prop
  | start {here : Surroundings} {label : String} {i : Index}
      (hok : (m.start here label).result = .ok i) :
      Writes m (.start here label) (.start i here.now.seconds)
  | stop {here : Surroundings} {label : String} {work : Work} {i : Index} {since : Duration}
      {snapshots : List Snapshot} (hi : m.lookup label = some i)
      (hrunning : (m.sectionOf label).phase = .running since snapshots)
      (hok : (m.stop here label work).result = .ok ()) :
      Writes m (.stop here label work) (.stop i here.now.seconds
        (m.intervalVolume here (m.sectionOf label).source (m.countSince here snapshots) work))

/-- What an operation does to the timeline. -/
inductive Growth (m : Monitor) (op : Operation) (m' : Monitor) : Prop
  /-- It writes down new labels, and nothing else. -/
  | labels {added : List (Index × String)} (hnames : m.Names added m')
      (hsilent : ∀ c e, op = .call c → ¬m.Writes c e)
  /-- It is a start or a stop that succeeds, and writes this down last. -/
  | interval {added : List (Index × String)} {c : Call} {e : TraceEvent} {k : ℕ}
      (hop : op = .call c) (hwrites : m.Writes c e) (he : e.interval? = some ⟨k + 1⟩)
      (hlt : k < m'.sections.length)
      (htrace : m'.trace = m.traceWith (added.map TraceEvent.define ++ [e]))
      (hgathered : m'.gathered = m.gathered)
  /-- It forgets all labels, of which the timeline tells nothing. -/
  | forgets (hop : ∃ now, op = .call (.resetAll now)) (htrace : m'.trace = m.trace)
      (hlabels : m'.registry.labels = []) (hgathered : m'.gathered = m.gathered)
  /-- It is the gather that completes the timeline. -/
  | completes {added : List (Index × String)} (hopen : m.gathered = false)
      (hgathered : m'.gathered = true)
      (htrace : m'.trace = m.traceWith (added.map TraceEvent.define ++ [.finalize]))

theorem InStep.growth_start (h : m.InStep) (here : Surroundings) (label : String) :
    m.Growth (.call (.start here label)) (m.start here label).monitor := by
  obtain ⟨added, hnames⟩ := Names.register m label
  have hrefused {v : Violation} (hv : (m.start here label).result = .error v) (c : Call)
      (e : TraceEvent) (hc : Operation.call (.start here label) = .call c) : ¬m.Writes c e := by
    cases hc
    rintro ⟨hok⟩
    cases hv.symm.trans hok
  obtain ⟨-, hv, hm⟩ | ⟨_, -, -, -, hv, hm⟩ | ⟨-, -, hok, hm⟩ := h.start_cases here label
  · exact .labels (hm ▸ hnames) (hrefused hv)
  · exact .labels (hm ▸ hnames) (hrefused hv)
  · obtain ⟨k, hk, hs⟩ := h.exists_section_register label
    obtain ⟨hlt, -⟩ := List.getElem?_eq_some_iff.mp hs
    rw [hk] at hok hm
    have htrace : ((m.register label).openInterval here ⟨k + 1⟩).trace
        = m.traceWith (added.map TraceEvent.define ++ [.start ⟨k + 1⟩ here.now.seconds]) := by
      rw [← traceWith_of_trace hnames.trace_eq, openInterval, trace_record]
      rfl
    rw [hm]
    refine .interval rfl (.start hok) rfl ?_ htrace hnames.gathered_eq
    rwa [sections_openInterval, List.length_modify]

theorem InStep.growth_stop (h : m.InStep) (here : Surroundings) (label : String) (work : Work) :
    m.Growth (.call (.stop here label work)) (m.stop here label work).monitor := by
  obtain ⟨-, hv, hm⟩ | ⟨k, since, snapshots, hk, hs, hrunning, hok, hm⟩ :=
    h.stop_cases here label work
  · rw [hm]
    refine .labels (.nothing rfl rfl rfl) fun c e hc ↦ ?_
    cases hc
    rintro (_ | ⟨-, -, hok⟩)
    cases hv.symm.trans hok
  · obtain ⟨hlt, -⟩ := List.getElem?_eq_some_iff.mp hs
    rw [hm]
    refine @Growth.interval _ _ _ [] _ _ k rfl (.stop hk hrunning hok) rfl ?_ ?_ rfl
    · rwa [sections_closeInterval, List.length_modify]
    · rw [closeInterval, trace_record]
      rfl

/-- Only starts and stops write down an interval. -/
theorem not_writes {op : Operation} (hstart : ∀ here label, op ≠ .call (.start here label))
    (hstop : ∀ here label work, op ≠ .call (.stop here label work)) (c : Call) (e : TraceEvent)
    (hc : op = .call c) : ¬m.Writes c e := by
  intro hwrites
  cases hwrites with
  | start hok => exact hstart _ _ hc
  | stop hk hrunning hok => exact hstop _ _ _ hc

/-- **What an operation does to the timeline.** -/
theorem InStep.growth (h : m.InStep) (op : Operation) : m.Growth op (m.after op) := by
  cases op with
  | call c =>
    rw [after]
    cases c with
    | resolve label =>
      obtain ⟨added, hnames⟩ := Names.register m label
      exact .labels hnames (not_writes (by simp) (by simp))
    | setProperties label requested =>
      obtain ⟨added, hnames⟩ := Names.setProperties h label requested
      exact .labels hnames (not_writes (by simp) (by simp))
    | start here label => exact h.growth_start here label
    | stop here label work => exact h.growth_stop here label work
    | reset label =>
      rw [Monitor.perform, Outcome.monitor_map]
      obtain ⟨-, -, hm⟩ | ⟨-, hm⟩ | ⟨k, -, -, -, hm⟩ := h.reset_cases label
      all_goals
        rw [hm]
        exact .labels (.nothing rfl rfl rfl) (not_writes (by simp) (by simp))
    | resetAll now =>
      rw [Monitor.perform, Outcome.monitor_map]
      obtain ⟨-, hm⟩ | ⟨-, -, hm⟩ := m.resetAll_cases now
      · rw [hm]
        exact .labels (.nothing rfl rfl rfl) (not_writes (by simp) (by simp))
      · rw [hm]
        exact .forgets ⟨now, rfl⟩ rfl rfl rfl
  | replica thread => exact .labels (.nothing rfl rfl rfl) (not_writes (by simp) (by simp))
  | merge replicas =>
    obtain ⟨added, hnames⟩ := Names.merge h replicas
    exact .labels hnames (not_writes (by simp) (by simp))
  | parallel here body =>
    obtain ⟨added, hnames⟩ := Names.parallel h here body
    exact .labels hnames (not_writes (by simp) (by simp))
  | gather now t =>
    obtain hm | ⟨hopen, -, labels, hm⟩ := m.gather_cases now t
    · rw [hm]
      exact .labels (.nothing rfl rfl rfl) (not_writes (by simp) (by simp))
    · obtain ⟨added, hnames⟩ := Names.registerAll (m.sealed now) labels
      rw [hm]
      have htrace : (((m.sealed now).registerAll labels).1.record .finalize).trace
          = m.traceWith (added.map TraceEvent.define ++ [.finalize]) := by
        rw [trace_record, traceWith_of_trace hnames.trace_eq, traceWith, traceWith, trace_sealed]
      refine .completes hopen ?_ htrace
      rw [gathered_record, hnames.gathered_eq, gathered_sealed]

/-- Operations are quiet about intervals, but for the entry of a start or a stop that succeeds. -/
theorem InStep.quiet_or_entry (h : m.InStep) (hrecorded : m.trace.isSome) (op : Operation) :
    (∃ added, (m.after op).timeline = m.timeline ++ added ∧ ∀ e ∈ added, e.interval? = none) ∨
      ∃ c e k added, op = .call c ∧ m.Writes c e ∧ e.interval? = some ⟨k + 1⟩ ∧
        k < (m.after op).sections.length ∧ (m.after op).timeline = m.timeline ++ added ++ [e] ∧
        ∀ e ∈ added, e.interval? = none := by
  have hquiet (added : List (Index × String)) (e : TraceEvent)
      (he : e ∈ added.map TraceEvent.define) : e.interval? = none := by
    obtain ⟨d, -, rfl⟩ := List.mem_map.mp he
    rfl
  cases h.growth op with
  | @labels added hnames =>
    exact .inl ⟨_, timeline_of_traceWith hrecorded hnames.trace_eq, hquiet added⟩
  | @interval added c e k hop hwrites he hlt htrace =>
    refine .inr ⟨c, e, k, _, hop, hwrites, he, hlt, ?_, hquiet added⟩
    rw [timeline_of_traceWith hrecorded htrace, List.append_assoc]
  | forgets _ htrace => exact .inl ⟨[], by rw [timeline_of_trace htrace, List.append_nil], nofun⟩
  | @completes added _ _ htrace =>
    refine .inl ⟨_, timeline_of_traceWith hrecorded htrace, fun e he ↦ ?_⟩
    rcases List.mem_append.mp he with he | he
    · exact hquiet added e he
    · rw [List.mem_singleton.mp he]
      rfl

/-- An entry, and the entries before it, come from a run: a call on the monitor itself, at some
point of the run, was a start or a stop that succeeded and has written the entry as the last one so
far. Before it, the handle stands for the label that the section has at that point. -/
def WrittenIn (m : Monitor) (ops : List Operation) (before : Timeline) (e : TraceEvent) : Prop :=
  ∃ earlier c later, ops = earlier ++ .call c :: later ∧ (m.run earlier).Writes c e ∧
    ∃ k s, e.interval? = some ⟨k + 1⟩ ∧
      (m.run (earlier ++ [.call c])).timeline = before ++ [e] ∧
      (m.run (earlier ++ [.call c])).sections[k]? = some s ∧
      before.labelIn ⟨k + 1⟩ = some s.label

theorem WrittenIn.after {ops : List Operation} {before : Timeline} {e : TraceEvent}
    (h : m.WrittenIn ops before e) (op : Operation) : m.WrittenIn (ops ++ [op]) before e := by
  obtain ⟨earlier, c, later, rfl, hwritten⟩ := h
  exact ⟨earlier, c, later ++ [op], by simp, hwritten⟩

/-- In a timeline that has grown quietly, an entry of an interval has been there before. -/
theorem exists_of_quiet {timeline added before after : Timeline} {e : TraceEvent}
    (hquiet : ∀ e ∈ added, e.interval? = none) (he : e.interval?.isSome)
    (hsplit : timeline ++ added = before ++ e :: after) :
    ∃ after', timeline = before ++ e :: after' := by
  have hold : e ∉ added := by
    intro hmem
    rw [hquiet e hmem] at he
    cases he
  rcases List.append_eq_append_iff.mp hsplit with ⟨rest, rfl, rfl⟩ | ⟨rest, rfl, hrest⟩
  · exact absurd (List.mem_append_right rest List.mem_cons_self) hold
  · cases rest with
    | nil =>
      rw [List.nil_append] at hrest
      exact absurd (hrest ▸ List.mem_cons_self) hold
    | cons x rest =>
      obtain ⟨rfl, -⟩ := List.cons.inj hrest
      exact ⟨rest, rfl⟩

/-- A call that writes the entry of an interval does so as part of the run that it ends. -/
theorem writtenIn_of_writes {ops : List Operation} {c : Call} {before : Timeline} {e : TraceEvent}
    {k : ℕ} (hmirrored : (m.run (ops ++ [.call c])).Mirrored) (hwrites : (m.run ops).Writes c e)
    (he : e.interval? = some ⟨k + 1⟩) (hlt : k < (m.run (ops ++ [.call c])).sections.length)
    (htimeline : (m.run (ops ++ [.call c])).timeline = before ++ [e]) :
    m.WrittenIn (ops ++ [.call c]) before e := by
  have hs := List.getElem?_eq_getElem hlt
  refine ⟨ops, c, [], rfl, hwrites, k, _, he, htimeline, hs, ?_⟩
  have hlabel := hmirrored.labelIn_eq k _ (by rw [statuses, List.getElem?_map, hs]; rfl)
  rwa [htimeline, Timeline.labelIn_concat, TraceEvent.labelOf?_of_interval he, Option.none_or]
    at hlabel

/-- Every entry of an interval in the timeline of a run has been written by a call of the run. -/
theorem writtenIn_run (settings : Settings) (adapterEvents : Option (List String)) (now : Duration)
    (ops : List Operation) {before after : Timeline} {e : TraceEvent}
    (he : e.interval?.isSome)
    (hsplit : ((build settings adapterEvents true now).run ops).timeline = before ++ e :: after) :
    (build settings adapterEvents true now).WrittenIn ops before e := by
  -- The last operation has written nothing about intervals, or this very entry, or a later one.
  induction ops using List.reverseRecOn generalizing after with
  | nil =>
    have hnothing : ([] : Timeline) ++ [.defineLabel .root "Root"] = before ++ e :: after := hsplit
    obtain ⟨after', hafter⟩ := exists_of_quiet (by simp [TraceEvent.interval?]) he hnothing
    exact absurd hafter (by simp)
  | append_singleton ops op ih =>
    have hin := (run_edits (inStep_build settings adapterEvents true now) ops).inStep
      (inStep_build settings adapterEvents true now)
    have hmirrored := mirrored_run settings adapterEvents now
    rcases hin.quiet_or_entry (hmirrored ops).recorded op with
      ⟨added, htimeline, hquiet⟩ | ⟨c, e', k, added, rfl, hwrites, he', hlt, htimeline, hquiet⟩
    · rw [run_append, htimeline] at hsplit
      obtain ⟨after', hafter⟩ := exists_of_quiet hquiet he hsplit
      exact (ih hafter).after op
    · rw [← run_append] at htimeline hlt
      rw [htimeline] at hsplit
      rcases List.eq_nil_or_concat after with rfl | ⟨after', x, rfl⟩
      · -- The entry is the last one.
        obtain ⟨hbefore, hlast⟩ := List.append_inj' hsplit rfl
        obtain rfl : e' = e := (List.cons.inj hlast).1
        rw [hbefore] at htimeline
        exact writtenIn_of_writes (hmirrored _) hwrites he' hlt htimeline
      · rw [List.concat_eq_append, ← List.cons_append, ← List.append_assoc] at hsplit
        obtain ⟨hearlier, -⟩ := List.append_inj' hsplit rfl
        obtain ⟨after'', hafter⟩ := exists_of_quiet hquiet he hearlier
        exact (ih hafter).after _

/-! ## Replicas keep no timeline -/

theorem Edit.trace_eq_none (e : Edit m m') (h : m.trace = none) : m'.trace = none := by
  cases e with
  | register hnew =>
    rw [register_of_new hnew]
    exact Option.map_eq_none_iff.mpr h
  | openInterval | closeInterval | finalize => exact Option.map_eq_none_iff.mpr h
  | sealRoot => rwa [trace_sealed]
  | bind | clear | restart | absorb => exact h

/-- Whatever is done with a replica, it records nothing. -/
theorem trace_run_replica (h : m.InStep) (thread : ℕ) (ops : List Operation) :
    ((m.replica thread).run ops).trace = none :=
  (run_edits (h.replica thread) ops).keep (fun _ _ step ↦ step.trace_eq_none)
    (by rw [h.replica_eq]; rfl)

/-- **The timeline of a run is well formed and mirrors its monitor.** It begins with the label of
the root section. Every entry that opens or closes an interval has been written by a start or stop
of the run that succeeded, on the monitor itself, never on a replica, and the latest definition of
its handle before it gives the label that the section had at that point. For every handle starts
and stops take turns, beginning with a start, and the handles whose last start is still open are
those of the sections that run. -/
theorem timeline_mirrors_run (settings : Settings) (adapterEvents : Option (List String))
    (now : Duration) (ops : List Operation) :
    let built := build settings adapterEvents true now
    let m := built.run ops
    m.trace.isSome ∧
      m.timeline.head? = some (.defineLabel .root "Root") ∧
      (∀ before e after, m.timeline = before ++ e :: after → e.interval?.isSome →
        built.WrittenIn ops before e) ∧
      (∀ i, m.timeline.TakesTurns i) ∧
      (∀ i, m.timeline.isOpen i ↔
        ∃ k s, i = ⟨k + 1⟩ ∧ m.sections[k]? = some s ∧ s.isRunning) ∧
      ∀ thread later, ((m.replica thread).run later).trace = none := by
  intro built m
  have hin : m.InStep := ((Reachable.build settings adapterEvents true now).run ops).inStep
  have hmirrored : m.Mirrored := mirrored_run settings adapterEvents now ops
  refine ⟨hmirrored.recorded, hmirrored.begins, fun before e after hsplit he ↦ ?_,
    hmirrored.takesTurns, hmirrored.isOpen_iff, fun thread later ↦ ?_⟩
  · exact writtenIn_run settings adapterEvents now ops he hsplit
  · exact trace_run_replica hin thread later

end Monitor

end SectionMonitor
