import SectionMonitor.Proofs.Timeline

/-!
# The end of a timeline

A gather that is not refused declares the timeline complete. It is the only operation that does, and
after it every gather is refused, so there is one such entry at most.

It need not be the last entry. Whether statistics have been gathered is asked by gathers alone:
labels are still made known and sections still started and stopped afterwards, and all of this is
still written down. `finalize_once_and_last_iff` says that nothing else is: the declaration stays
the last entry exactly as long as every later operation is one that tells nothing (`Tells`).
-/

namespace SectionMonitor

/-! ## Entries after the declaration -/

namespace Timeline

variable {timeline added : Timeline}

/-- Nothing follows an entry that declares the timeline complete. -/
def Closes (timeline : Timeline) : Prop :=
  ∀ before after, timeline = before ++ .finalize :: after → after = []

theorem closes_of_notMem (h : .finalize ∉ timeline) : timeline.Closes := by
  rintro before after rfl
  exact absurd (List.mem_append_right before List.mem_cons_self) h

theorem closes_concat (h : .finalize ∉ timeline) : Closes (timeline ++ [.finalize]) := by
  intro before after hsplit
  obtain rfl | ⟨after', e, rfl⟩ := List.eq_nil_or_concat' after
  · rfl
  · rw [← List.cons_append, ← List.append_assoc] at hsplit
    obtain ⟨rfl, -⟩ := List.append_inj' hsplit rfl
    exact absurd (List.mem_append_right before List.mem_cons_self) h

/-- A timeline may grow until it is declared complete. -/
theorem closes_append_iff (hadded : .finalize ∉ added) :
    Closes (timeline ++ added) ↔ timeline.Closes ∧ (.finalize ∈ timeline → added = []) := by
  by_cases hmem : .finalize ∈ timeline
  · constructor
    · intro hcloses
      obtain ⟨before, after, rfl⟩ := List.append_of_mem hmem
      have hnothing : after ++ added = [] :=
        hcloses before (after ++ added) (by rw [List.append_assoc, List.cons_append])
      obtain ⟨-, rfl⟩ := List.append_eq_nil_iff.mp hnothing
      exact ⟨by rwa [List.append_nil] at hcloses, fun _ ↦ rfl⟩
    · rintro ⟨hcloses, hnothing⟩
      rwa [hnothing hmem, List.append_nil]
  · have hall : .finalize ∉ timeline ++ added := by
      rw [List.mem_append, not_or]
      exact ⟨hmem, hadded⟩
    exact iff_of_true (closes_of_notMem hall) ⟨closes_of_notMem hmem, fun h ↦ absurd h hmem⟩

end Timeline

namespace Monitor

variable {m : Monitor}

/-! ## What an operation tells -/

/-- The operation makes a label known, or it is a start or a stop that succeeds. -/
def Tells (m : Monitor) (op : Operation) : Prop :=
  (∃ label, label ∉ m.registry.labels ∧ label ∈ (m.after op).registry.labels) ∨
    ∃ c e, op = .call c ∧ m.Writes c e

theorem finalize_notMem_define (added : List (Index × String)) :
    .finalize ∉ added.map TraceEvent.define := by
  intro hmem
  obtain ⟨d, -, hd⟩ := List.mem_map.mp hmem
  cases hd

/-- Labels that were added are new ones. -/
theorem Names.exists_new_iff {m' : Monitor} {added : List (Index × String)}
    (h : m.Names added m') (hin : m'.InStep) :
    (∃ label, label ∉ m.registry.labels ∧ label ∈ m'.registry.labels) ↔ added ≠ [] := by
  have hnodup := hin.nodup
  rw [h.labels_eq] at hnodup ⊢
  constructor
  · rintro ⟨label, hnew, hmem⟩ rfl
    rw [List.map_nil, List.append_nil] at hmem
    exact hnew hmem
  · intro hadded
    obtain ⟨d, rest, rfl⟩ := List.exists_cons_of_ne_nil hadded
    refine ⟨d.2, fun hold ↦ ?_, List.mem_append_right _ List.mem_cons_self⟩
    exact (List.nodup_append.mp hnodup).2.2 d.2 hold d.2 List.mem_cons_self rfl

/-- **An operation and the end of the timeline.** The first gather that is not refused declares the
timeline complete; every other operation adds entries of other kinds, exactly if it tells
something. -/
theorem InStep.timeline_after (h : m.InStep) (hrecorded : m.trace.isSome) (op : Operation) :
    (m.gathered = false ∧ (m.after op).gathered = true ∧
        ∃ added, (m.after op).timeline = m.timeline ++ added ++ [.finalize] ∧
          .finalize ∉ added) ∨
      ((m.after op).gathered = m.gathered ∧
        ∃ added, (m.after op).timeline = m.timeline ++ added ∧ .finalize ∉ added ∧
          (m.Tells op ↔ added ≠ [])) := by
  have hin : (m.after op).InStep := (after_edits h op).inStep h
  cases h.growth op with
  | @labels added hnames hsilent =>
    refine .inr ⟨hnames.gathered_eq, _, timeline_of_traceWith hrecorded hnames.trace_eq,
      finalize_notMem_define added, ?_⟩
    have hwrites : ¬∃ c e, op = .call c ∧ m.Writes c e :=
      fun ⟨c, e, hop, hw⟩ ↦ hsilent c e hop hw
    rw [Tells, hnames.exists_new_iff hin, Ne, Ne, List.map_eq_nil_iff]
    exact or_iff_left hwrites
  | @interval added c e k hop hwrites he hlt htrace hgathered =>
    refine .inr ⟨hgathered, _, timeline_of_traceWith hrecorded htrace, ?_, ?_⟩
    · rw [List.mem_append, List.mem_singleton]
      rintro (hmem | rfl)
      · exact finalize_notMem_define added hmem
      · cases he
    · exact iff_of_true (.inr ⟨c, e, hop, hwrites⟩) (by simp)
  | forgets hop htrace hlabels hgathered =>
    refine .inr ⟨hgathered, [], by rw [timeline_of_trace htrace, List.append_nil],
      List.not_mem_nil, iff_of_false ?_ (by simp)⟩
    obtain ⟨now, rfl⟩ := hop
    rintro (⟨label, -, hmem⟩ | ⟨c, e, hop, hwrites⟩)
    · rw [hlabels] at hmem
      exact absurd hmem List.not_mem_nil
    · cases hop
      cases hwrites
  | @completes added hopen hgathered htrace =>
    refine .inl ⟨hopen, hgathered, _, ?_, finalize_notMem_define added⟩
    rw [timeline_of_traceWith hrecorded htrace, List.append_assoc]

/-! ## Runs -/

/-- Once the statistics have been gathered, no operation of the run tells anything. -/
def SilentOnceGathered (m : Monitor) (ops : List Operation) : Prop :=
  ∀ earlier op, earlier ++ [op] <+: ops → (m.run earlier).gathered = true →
    ¬(m.run earlier).Tells op

theorem silentOnceGathered_concat (m : Monitor) (ops : List Operation) (op : Operation) :
    m.SilentOnceGathered (ops ++ [op])
      ↔ m.SilentOnceGathered ops ∧ ((m.run ops).gathered = true → ¬(m.run ops).Tells op) := by
  constructor
  · intro h
    refine ⟨fun earlier op' hinitial ↦ h earlier op' ?_, h ops op List.prefix_rfl⟩
    exact hinitial.trans (List.prefix_append ops [op])
  · rintro ⟨hbefore, hlast⟩ earlier op' hinitial
    rcases List.prefix_concat_iff.mp hinitial with heq | hinitial
    · obtain ⟨rfl, hop⟩ := List.append_inj' heq rfl
      obtain rfl := List.singleton_inj.mp hop
      exact hlast
    · exact hbefore earlier op' hinitial

/-- **A timeline is declared complete once, but it may go on.** After any operations of a monitor
that records a timeline there is one declaration if statistics have been gathered, and none
otherwise. Nothing follows it exactly if all operations after the gather were silent: none of them
made a label known, and none was a start or a stop that succeeded. -/
theorem finalize_once_and_last_iff (settings : Settings) (adapterEvents : Option (List String))
    (now : Duration) (ops : List Operation) :
    let built := build settings adapterEvents true now
    let m := built.run ops
    m.timeline.count .finalize = (if m.gathered then 1 else 0) ∧
      (m.timeline.Closes ↔ built.SilentOnceGathered ops) := by
  intro built m
  -- The last operation declares the end, or it adds to a timeline that may be complete already.
  induction ops using List.reverseRecOn with
  | nil =>
    have hnone : .finalize ∉ built.timeline := by
      simp [built, build, timeline]
    refine ⟨List.count_eq_zero.mpr hnone, iff_of_true (Timeline.closes_of_notMem hnone) ?_⟩
    intro earlier op hinitial
    exact absurd (List.prefix_nil.mp hinitial) (by simp)
  | append_singleton ops op ih =>
    obtain ⟨hcount, hcloses⟩ := ih
    have hin : (built.run ops).InStep :=
      (run_edits (inStep_build ..) ops).inStep (inStep_build ..)
    have hrecorded : (built.run ops).trace.isSome :=
      (mirrored_run settings adapterEvents now ops).recorded
    have hm : m = (built.run ops).after op := run_append ..
    -- Statistics have been gathered exactly if the declaration has been made.
    have hmem : .finalize ∈ (built.run ops).timeline ↔ (built.run ops).gathered = true := by
      rw [← List.count_pos_iff, hcount]
      cases (built.run ops).gathered <;> simp
    rw [hm, silentOnceGathered_concat, ← hcloses]
    rcases hin.timeline_after hrecorded op with
      ⟨hopen, hgathered, added, htimeline, hadded⟩ | ⟨hgathered, added, htimeline, hadded, htells⟩
    · have hbefore : .finalize ∉ (built.run ops).timeline ++ added := by
        rw [List.mem_append, not_or, hmem]
        exact ⟨by simp [hopen], hadded⟩
      rw [htimeline, hgathered, if_pos rfl, List.count_append, List.count_eq_zero.mpr hbefore]
      refine ⟨rfl, iff_of_true (Timeline.closes_concat hbefore) ?_⟩
      refine ⟨Timeline.closes_of_notMem (mt hmem.mp (by simp [hopen])), fun h ↦ ?_⟩
      exact absurd (hopen.symm.trans h) (by simp)
    · rw [htimeline, hgathered, List.count_append, List.count_eq_zero.mpr hadded, hcount, htells,
        not_not, Timeline.closes_append_iff hadded, hmem]
      exact ⟨rfl, Iff.rfl⟩

/-- A label that is used for the first time after the gather is written down after the end. -/
theorem late_label_follows_finalize :
    let built := build {} none true .zero
    let m := built.run [.gather .zero .alone, .call (.resolve "late")]
    m.timeline = [.defineLabel .root "Root", .finalize, .defineLabel ⟨1⟩ "late"] ∧
      m.timeline.count .finalize = 1 ∧ ¬m.timeline.Closes := by
  intro built m
  obtain ⟨hcount, hcloses⟩ := finalize_once_and_last_iff {} none .zero
    [.gather .zero .alone, .call (.resolve "late")]
  refine ⟨by decide +kernel, hcount, fun h ↦ ?_⟩
  refine hcloses.mp h [.gather .zero .alone] (.call (.resolve "late")) List.prefix_rfl
    (by decide +kernel) (.inl ⟨"late", ?_⟩)
  decide +kernel

end Monitor

end SectionMonitor
