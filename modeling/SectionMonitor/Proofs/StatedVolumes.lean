import SectionMonitor.Proofs.FloatAmounts
import SectionMonitor.Proofs.Volumes

/-!
# Volumes that the measured program states

Where the measured program is the source of all volumes it may state any works, and a stop adds what
the stated work amounts to. What is expected of every stop is written down in `Stop.KeepsPromise`:
the volume of the section is a number afterwards and not smaller than before, and a work of nothing
leaves it alone.

Works that are not positive are caught, but the number of units is not looked at. An infinite work of
no units is a product of infinity and zero, which is no number, and no sum ever turns a volume into a
number again. It is the only work of this kind: a run keeps all its promises if and only if it never
adds one (`promises_kept_iff`). Otherwise all volumes are amounts, on whatever way they have been
added up: by stops, by merges, or by regions.
-/

namespace SectionMonitor

open Binary64

/-! ## Stated works -/

namespace Monitor.Work

variable {w : Work}

/-- Infinite work of each of no units. -/
def IsVoid (w : Work) : Prop := 0 < w.perUnit ∧ w.perUnit.isInf = true ∧ w.units = 0

theorem volume_of_pos (h : 0 < w.perUnit) : w.volume = w.perUnit * w.units.toFloat := if_pos h

theorem volume_of_no_units (h : 0 < w.perUnit) (hunits : w.units = 0) :
    w.volume = w.perUnit * 0 := by
  rw [volume_of_pos h, hunits, toFloat_zero]

theorem isNaN_volume (h : w.IsVoid) : w.volume.isNaN = true := by
  obtain ⟨hpos, hinf, hunits⟩ := h
  rw [volume_of_no_units hpos hunits]
  exact isNaN_mul_zero hpos hinf

/-- Any other work of nothing amounts to nothing. -/
theorem volume_eq_zero (h : ¬w.IsVoid) (hnone : ¬0 < w.perUnit ∨ w.units = 0) : w.volume = 0 := by
  by_cases hpos : 0 < w.perUnit
  · have hunits : w.units = 0 := hnone.resolve_left (not_not_intro hpos)
    have hfinite : w.perUnit.isInf = false := by
      rw [← Bool.not_eq_true]
      exact fun hinf ↦ h ⟨hpos, hinf, hunits⟩
    rw [volume_of_no_units hpos hunits, mul_zero_of_finite hpos hfinite]
  · exact if_neg hpos

theorem isAmount_volume (h : ¬w.IsVoid) : IsAmount w.volume := by
  by_cases hnone : ¬0 < w.perUnit ∨ w.units = 0
  · rw [volume_eq_zero h hnone]
    exact isAmount_zero
  · obtain ⟨hpos, hunits⟩ := not_or.mp hnone
    rw [volume_of_pos (not_not.mp hpos)]
    exact isAmount_mul (not_not.mp hpos) (toFloat_pos hunits)

end Monitor.Work

/-! ## One stop -/

namespace Program.Stop

variable {settings : Settings} {adapterEvents : Option (List String)} {e : Stop}

/-- What the stop leads to. -/
def outcome (e : Stop) : Outcome Unit := e.monitor.stop e.here e.label e.work

/-- The section is running. -/
def Accepted (e : Stop) : Prop := e.outcome.result = .ok ()

/-- The volume of the section before the stop. -/
def before (e : Stop) : Float := (e.monitor.sectionOf e.label).totals.volume

/-- The volume of the section after the stop. -/
def after (e : Stop) : Float := (e.outcome.monitor.sectionOf e.label).totals.volume

/-- What a stop is expected to do to the volume. -/
structure KeepsPromise (e : Stop) : Prop where
  number : e.after.isNaN = false
  grows : e.before ≤ e.after
  unchanged (h : e.work.perUnit ≤ 0 ∨ e.work.perUnit.isNaN = true ∨ e.work.units = 0) :
    e.after = e.before

/-- A stop adds the stated volume, unless it is refused. -/
theorem after_cases (h : e.monitor.Family settings adapterEvents)
    (hsource : settings.source adapterEvents = .userSupplied) :
    ¬e.Accepted ∧ e.after = e.before ∨ e.Accepted ∧ e.after = e.before + e.work.volume := by
  have hin := h.reachable.inStep
  obtain ⟨-, hr, hm⟩ | ⟨k, since, snapshots, -, hs, -, hr, hm⟩ :=
    hin.stop_cases e.here e.label e.work
  · refine .inl ⟨fun haccepted ↦ ?_, ?_⟩
    · rw [Accepted, outcome, hr] at haccepted
      cases haccepted
    · rw [after, outcome, hm, before]
  · refine .inr ⟨hr, ?_⟩
    rw [after, outcome, hm, hin.sectionOf_modify (Monitor.sections_closeInterval ..) rfl ⟨rfl, rfl, rfl⟩ hs
      rfl, if_pos (Monitor.label_sectionOf ..).symm, h.reachable.oneSource.source_sectionOf,
      h.newSource_eq, hsource]
    rfl

theorem not_keepsPromise (h : e.monitor.Family settings adapterEvents)
    (hsource : settings.source adapterEvents = .userSupplied) (haccepted : e.Accepted)
    (hvoid : e.work.IsVoid) : ¬e.KeepsPromise := by
  intro hkeeps
  obtain ⟨hrefused, -⟩ | ⟨-, hafter⟩ := after_cases h hsource
  · exact hrefused haccepted
  · have hnan : e.after.isNaN = true := by
      rw [hafter]
      exact isNaN_add _ (Monitor.Work.isNaN_volume hvoid)
    rw [hkeeps.number] at hnan
    cases hnan

end Program.Stop

/-! ## All stops -/

namespace Monitor

variable {m : Monitor} {settings : Settings} {adapterEvents : Option (List String)}

theorem keptBySums_isAmount : KeptBySums IsAmount where
  zero := isAmount_zero
  add := IsAmount.add

/-- All volumes of a monitor of the configuration are amounts. -/
def Sound (settings : Settings) (adapterEvents : Option (List String)) (m : Monitor) : Prop :=
  m.Family settings adapterEvents ∧ m.VolumesAre IsAmount

/-- A stop of a sound monitor keeps the promise, unless it adds a void work. -/
theorem Sound.keepsPromise {e : Program.Stop} (h : e.monitor.Sound settings adapterEvents)
    (hsource : settings.source adapterEvents = .userSupplied)
    (hvoid : e.Accepted → ¬e.work.IsVoid) : e.KeepsPromise := by
  have hbefore : IsAmount e.before := h.2.volume_sectionOf keptBySums_isAmount e.label
  obtain ⟨-, hafter⟩ | ⟨haccepted, hafter⟩ := Program.Stop.after_cases h.1 hsource
  · exact ⟨hafter ▸ hbefore.isNaN_eq_false, hafter ▸ hbefore.le_refl, fun _ ↦ hafter⟩
  · have hvolume : IsAmount e.work.volume := Work.isAmount_volume (hvoid haccepted)
    refine ⟨?_, ?_, fun hnone ↦ ?_⟩
    · rw [hafter]
      exact (hbefore.add hvolume).isNaN_eq_false
    · rw [hafter]
      exact hbefore.le_add hvolume
    · have hzero : e.work.volume = 0 := by
        refine Work.volume_eq_zero (hvoid haccepted) ?_
        rwa [not_pos_iff, or_assoc]
      rw [hafter, hzero, hbefore.add_zero]

theorem Sound.call (h : m.Sound settings adapterEvents)
    (hsource : settings.source adapterEvents = .userSupplied) (c : Call)
    (hvoid : ∀ e ∈ Program.stopsOf m c, e.Accepted → ¬e.work.IsVoid) :
    (m.perform c).monitor.Sound settings adapterEvents := by
  refine ⟨.call c h.1, h.2.perform keptBySums_isAmount h.1.reachable.inStep c ?_⟩
  intro here label work hc hresult counted
  have hstated : m.intervalVolume here .userSupplied counted work = work.volume := rfl
  rw [h.1.reachable.oneSource.source_sectionOf, h.1.newSource_eq, hsource, hstated]
  refine Work.isAmount_volume fun hwork ↦ ?_
  have hmem : (⟨m, here, label, work⟩ : Program.Stop) ∈ Program.stopsOf m c := by
    rw [hc]
    exact List.mem_singleton_self _
  exact hvoid ⟨m, here, label, work⟩ hmem hresult hwork

/-- As long as no void work is added, whatever a program does keeps its monitors sound. -/
theorem kept_sound (hsource : settings.source adapterEvents = .userSupplied) :
    Program.Kept (fun e ↦ e.Accepted → ¬e.work.IsVoid) (Sound settings adapterEvents) where
  call c hm hvoid := hm.call hsource c hvoid
  replica thread hm :=
    ⟨.replica thread hm.1, .replica keptBySums_isAmount hm.1.reachable.inStep thread⟩
  merge hm hreplicas :=
    ⟨.merge hm.1 fun r hr ↦ (hreplicas r hr).1,
      hm.2.merge keptBySums_isAmount hm.1.reachable.inStep fun r hr ↦ (hreplicas r hr).2⟩
  gather now t hm :=
    ⟨.gather now t hm.1, hm.2.gather keptBySums_isAmount hm.1.reachable.inStep now t⟩

end Monitor

namespace Program

/-- **Stated volumes.** Where the measured program is the source of volumes, a program that begins
with new monitors keeps the promise at all of its stops if and only if none of those that are
accepted states an infinite work of no units. -/
theorem promises_kept_iff {settings : Settings} {adapterEvents : Option (List String)}
    (hsource : settings.source adapterEvents = .userSupplied) (p : Program) {ms : List Monitor}
    (hnew : ∀ m ∈ ms, ∃ traced now, m = .build settings adapterEvents traced now) :
    (∀ e ∈ p.stops ms, e.KeepsPromise) ↔ ∀ e ∈ p.stops ms, e.Accepted → ¬e.work.IsVoid := by
  have hfamily (m : Monitor) (hm : m ∈ ms) : m.Family settings adapterEvents := by
    obtain ⟨traced, now, rfl⟩ := hnew m hm
    exact .build traced now
  constructor
  · intro hkeeps e he haccepted hvoid
    have he' := (kept_family.run p hfamily fun _ _ ↦ trivial).1 e he
    exact Stop.not_keepsPromise he' hsource haccepted hvoid (hkeeps e he)
  · intro hvoid e he
    have hsound (m : Monitor) (hm : m ∈ ms) : m.Sound settings adapterEvents := by
      obtain ⟨traced, now, rfl⟩ := hnew m hm
      exact ⟨.build traced now, .build _ _ _ _⟩
    have he' := ((Monitor.kept_sound hsource).run p hsound hvoid).1 e he
    exact he'.keepsPromise hsource (hvoid e he)

/-- The stop of the interval. -/
def theStop (work : Monitor.Work) : Stop where
  monitor := ((Monitor.build {} none false .zero).start (.plain .zero) "kernel").monitor
  here := .plain .zero
  label := "kernel"
  work := work

/-- An infinite work of no units leaves what is no number. -/
theorem infinite_work_of_no_units :
    Settings.source {} none = .userSupplied ∧
      ¬∀ e ∈ (oneStop ⟨1 / 0, 0⟩).stops [.build {} none false .zero], e.KeepsPromise := by
  refine ⟨rfl, fun hkeeps ↦ ?_⟩
  have hnew : ∀ m ∈ [Monitor.build {} none false .zero],
      ∃ traced now, m = .build {} none traced now :=
    fun m hm ↦ ⟨false, .zero, List.mem_singleton.mp hm⟩
  have hvoid := (promises_kept_iff rfl (oneStop ⟨1 / 0, 0⟩) hnew).mp hkeeps
  refine hvoid (theStop ⟨1 / 0, 0⟩) (List.mem_singleton_self _) rfl ⟨?_, ?_, rfl⟩
  · decide +kernel
  · decide +kernel

end Program

end SectionMonitor
