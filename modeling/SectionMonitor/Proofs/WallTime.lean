import Mathlib.Algebra.BigOperators.Group.List.Basic
import Mathlib.Algebra.GroupWithZero.Nat
import SectionMonitor.Proofs.Agreement
import SectionMonitor.Proofs.Calls
import SectionMonitor.Proofs.Exclusivity
import SectionMonitor.Proofs.Merge

/-!
# Measured time and the clock

No two exclusive sections run at the same time, so their times should add up to no more than the
time that has passed. That is true as long as the clock does not go back, and this module shows it
for the calls of one thread.

## The invariant

The totals of a section are complete up to the time at which its open interval began, or up to now
if it is idle: `Section.settled`. The invariant `Fits` compares totals with that time and not with
now, for each section and for the exclusive sections together:

  `start + elapsed ≤ settled`.

Then a stop adds what lies between `settled` and now, and nothing else has to be known about the
interval that ends. The sum over all exclusive sections is compared with the `settled` of every
single one of them. This is kept by a stop because no other exclusive section runs, and it is kept
by a binding because binding makes no section exclusive that was not.
-/

namespace SectionMonitor

/-! ## Time in a section -/

namespace Section

/-- How long the open interval has lasted, in nanoseconds. -/
def openTime (s : Section) (now : Duration) : ℕ :=
  match s.phase with
  | .idle => 0
  | .running since _ => now.nanos - since.nanos

/-- The time up to which the totals are complete. -/
def settled (s : Section) (now : Duration) : ℕ :=
  match s.phase with
  | .idle => now.nanos
  | .running since _ => since.nanos

/-- What the section adds to the time of exclusive sections. -/
def exclusiveShare (s : Section) : ℕ := if s.exclusive then s.totals.elapsed.nanos else 0

variable {s : Section} {now now' : Duration}

theorem settled_of_idle (h : s.phase = .idle) (now : Duration) : s.settled now = now.nanos := by
  rw [settled, h]

theorem settled_of_running {since : Duration} {snapshots : List Snapshot}
    (h : s.phase = .running since snapshots) (now : Duration) : s.settled now = since.nanos := by
  rw [settled, h]

theorem settled_mono (s : Section) (h : now.nanos ≤ now'.nanos) :
    s.settled now ≤ s.settled now' := by
  rw [settled, settled]
  split
  · exact h
  · exact Nat.le_refl _

theorem settled_le_of_le (hle : s.settled now ≤ now.nanos) (h : now.nanos ≤ now'.nanos) :
    s.settled now' ≤ now'.nanos := by
  rw [settled] at hle ⊢
  split
  · exact Nat.le_refl _
  · next since snapshots hrunning =>
    rw [hrunning] at hle
    exact Nat.le_trans hle h

/-- The open interval fills the time between `settled` and now. -/
theorem settled_add_openTime (hle : s.settled now ≤ now.nanos) :
    s.settled now + s.openTime now = now.nanos := by
  rcases hphase : s.phase with _ | ⟨since, snapshots⟩
  · simp [settled, openTime, hphase]
  · simp only [settled, openTime, hphase] at hle ⊢
    omega

end Section

namespace Monitor

variable {m m' : Monitor} {start now now' : Duration}

/-- The time of all sections that are exclusive, without open intervals, in nanoseconds. -/
def exclusiveElapsed (m : Monitor) : ℕ :=
  ((m.sections.filter Section.exclusive).map fun s ↦ s.totals.elapsed.nanos).sum

theorem exclusiveElapsed_eq (m : Monitor) :
    m.exclusiveElapsed = (m.sections.map Section.exclusiveShare).sum := by
  rw [exclusiveElapsed]
  induction m.sections with
  | nil => rfl
  | cons s rest ih =>
    rw [List.map_cons, List.sum_cons, ← ih, Section.exclusiveShare, List.filter_cons]
    split_ifs
    · rw [List.map_cons, List.sum_cons]
    · rw [Nat.zero_add]

theorem exclusiveElapsed_modify {k : ℕ} {s : Section} {f : Section → Section}
    (hs : m.sections[k]? = some s) (hsections : m'.sections = m.sections.modify k f) :
    m'.exclusiveElapsed + s.exclusiveShare = m.exclusiveElapsed + (f s).exclusiveShare := by
  obtain ⟨hlt, hget⟩ := List.getElem?_eq_some_iff.mp hs
  have hsplit : m.sections = m.sections.take k ++ s :: m.sections.drop (k + 1) := by
    rw [← hget, List.getElem_cons_drop, List.take_append_drop]
  have hsum := congrArg (fun l ↦ (l.map Section.exclusiveShare).sum) hsplit
  rw [exclusiveElapsed_eq, exclusiveElapsed_eq, hsections, List.modify_eq_take_cons_drop hlt, hget]
  simp only [List.map_append, List.map_cons, List.sum_append, List.sum_cons] at hsum ⊢
  omega

@[simp] theorem exclusiveElapsed_register (m : Monitor) (label : String) :
    (m.register label).exclusiveElapsed = m.exclusiveElapsed := by
  cases hlookup : m.lookup label with
  | some i => rw [register_of_known hlookup]
  | none =>
    rw [exclusiveElapsed_eq, exclusiveElapsed_eq, sections_register_of_new hlookup,
      List.map_append, List.sum_append]
    rfl

/-! ## The invariant -/

/-- What was measured since `start` fits into the time until `now`. -/
structure Fits (m : Monitor) (start now : Duration) : Prop where
  start_le : start.nanos ≤ now.nanos
  settled_le : ∀ s ∈ m.sections, s.settled now ≤ now.nanos
  single : ∀ s ∈ m.sections, start.nanos + s.totals.elapsed.nanos ≤ s.settled now
  together : start.nanos + m.exclusiveElapsed ≤ now.nanos
  together_settled : ∀ s ∈ m.sections, s.exclusive = true →
    start.nanos + m.exclusiveElapsed ≤ s.settled now

namespace Fits

/-- Idle sections without totals may as well not be there. -/
theorem of_fresh (hfresh : ∀ s ∈ m.sections, s.totals = {} ∧ s.phase = .idle)
    (hle : start.nanos ≤ now.nanos) : m.Fits start now := by
  have hsettled (s : Section) (hs : s ∈ m.sections) : s.settled now = now.nanos :=
    Section.settled_of_idle (hfresh s hs).2 now
  have hsum : m.exclusiveElapsed = 0 := by
    rw [exclusiveElapsed, List.sum_eq_zero]
    intro x hx
    obtain ⟨s, hs, rfl⟩ := List.mem_map.mp hx
    rw [(hfresh s (List.mem_of_mem_filter hs)).1]
    rfl
  refine ⟨hle, ?_, ?_, by omega, ?_⟩
  · intro s hs
    exact Nat.le_of_eq (hsettled s hs)
  · intro s hs
    rw [hsettled s hs, (hfresh s hs).1]
    exact hle
  · intro s hs _
    rw [hsettled s hs, hsum]
    exact hle

/-- Without sections nothing was measured. -/
theorem of_sections_eq_nil (hnone : m.sections = []) (hle : start.nanos ≤ now.nanos) :
    m.Fits start now := by
  refine .of_fresh (fun s hs ↦ ?_) hle
  rw [hnone] at hs
  exact absurd hs List.not_mem_nil

theorem mono (h : m.Fits start now) (hle : now.nanos ≤ now'.nanos) : m.Fits start now' where
  start_le := Nat.le_trans h.start_le hle
  settled_le s hs := Section.settled_le_of_le (h.settled_le s hs) hle
  single s hs := Nat.le_trans (h.single s hs) (s.settled_mono hle)
  together := Nat.le_trans h.together hle
  together_settled s hs hex := Nat.le_trans (h.together_settled s hs hex) (s.settled_mono hle)

theorem register (h : m.Fits start now) (label : String) : (m.register label).Fits start now := by
  cases hlookup : m.lookup label with
  | some i => rwa [register_of_known hlookup]
  | none =>
    have hmem (s : Section) (hs : s ∈ (m.register label).sections) :
        s ∈ m.sections ∨ s.settled now = now.nanos ∧ s.totals = {} := by
      rw [sections_register_of_new hlookup, List.mem_append, List.mem_singleton] at hs
      rcases hs with hs | rfl
      · exact .inl hs
      · exact .inr ⟨rfl, rfl⟩
    refine ⟨h.start_le, ?_, ?_, by simpa using h.together, ?_⟩
    · intro s hs
      rcases hmem s hs with hs | ⟨hsettled, -⟩
      · exact h.settled_le s hs
      · exact Nat.le_of_eq hsettled
    · intro s hs
      rcases hmem s hs with hs | ⟨hsettled, htotals⟩
      · exact h.single s hs
      · rw [hsettled, htotals]
        exact h.start_le
    · intro s hs hex
      rw [exclusiveElapsed_register]
      rcases hmem s hs with hs | ⟨hsettled, -⟩
      · exact h.together_settled s hs hex
      · rw [hsettled]
        exact h.together

/-- A change of one section that adds no time to it, and after which the rest of the time is still
ahead of it. -/
theorem modify (h : m.Fits start now) {k : ℕ} {s : Section} {f : Section → Section}
    (hs : m.sections[k]? = some s) (hsections : m'.sections = m.sections.modify k f)
    (helapsed : (f s).totals.elapsed.nanos ≤ s.totals.elapsed.nanos)
    (hex : (f s).exclusive = true → s.exclusive = true)
    (hsettled : s.settled now ≤ (f s).settled now) (hle : (f s).settled now ≤ now.nanos) :
    m'.Fits start now := by
  have hmem : s ∈ m.sections := List.mem_of_getElem? hs
  have hshare : (f s).exclusiveShare ≤ s.exclusiveShare := by
    rw [Section.exclusiveShare, Section.exclusiveShare]
    split_ifs with hnew hold
    · exact helapsed
    · exact absurd (hex hnew) hold
    · exact Nat.zero_le _
    · exact Nat.le_refl _
  have hsum : m'.exclusiveElapsed ≤ m.exclusiveElapsed := by
    have heq := exclusiveElapsed_modify hs hsections
    omega
  have hcases (t : Section) (ht : t ∈ m'.sections) : t = f s ∨ t ∈ m.sections := by
    rw [hsections] at ht
    rcases mem_modify_cases ht with ⟨u, hu, rfl⟩ | ⟨j, -, hj⟩
    · obtain rfl : s = u := Option.some.inj (hs.symm.trans hu)
      exact .inl rfl
    · exact .inr (List.mem_of_getElem? hj)
  refine ⟨h.start_le, ?_, ?_, ?_, ?_⟩
  · intro t ht
    rcases hcases t ht with rfl | ht
    · exact hle
    · exact h.settled_le t ht
  · intro t ht
    rcases hcases t ht with rfl | ht
    · have hold := h.single s hmem
      omega
    · exact h.single t ht
  · have hold := h.together
    omega
  · intro t ht htex
    rcases hcases t ht with rfl | ht
    · have hold := h.together_settled s hmem (hex htex)
      omega
    · have hold := h.together_settled t ht htex
      omega

/-- An interval ends: its section gets the time between `settled` and now. If it is exclusive no
other exclusive section runs, so all of them are complete up to now. -/
theorem finish (h : m.Fits start now) (hguarded : m.Guarded) {k : ℕ} {s : Section}
    {since : Duration} {snapshots : List Snapshot} (hs : m.sections[k]? = some s)
    (hrunning : s.phase = .running since snapshots) {volume : Float} {counted : Reading}
    (hsections : m'.sections
      = m.sections.modify k fun s ↦ s.finish (now.saturatingSub since) volume counted) :
    m'.Fits start now := by
  have hmem : s ∈ m.sections := List.mem_of_getElem? hs
  have hsettled : s.settled now = since.nanos := Section.settled_of_running hrunning now
  have hsince : since.nanos ≤ now.nanos := hsettled ▸ h.settled_le s hmem
  have hsum := exclusiveElapsed_modify hs hsections
  generalize hstopped : s.finish (now.saturatingSub since) volume counted = stopped at hsum
  have helapsed : stopped.totals.elapsed.nanos
      ≤ s.totals.elapsed.nanos + (now.nanos - since.nanos) := by
    rw [← hstopped]
    exact Nat.min_le_left _ _
  have hexclusive : stopped.exclusive = s.exclusive := by rw [← hstopped]; rfl
  have hidle : stopped.settled now = now.nanos := by rw [← hstopped]; rfl
  have htogether : start.nanos + m'.exclusiveElapsed ≤ now.nanos := by
    rw [Section.exclusiveShare, Section.exclusiveShare, hexclusive] at hsum
    split_ifs at hsum with hex
    · have hold := h.together_settled s hmem hex
      omega
    · have hold := h.together
      omega
  have hcases (t : Section) (ht : t ∈ m'.sections) :
      t = stopped ∨ ∃ j ≠ k, m.sections[j]? = some t := by
    rw [hsections] at ht
    rcases mem_modify_cases ht with ⟨u, hu, rfl⟩ | hother
    · obtain rfl : s = u := Option.some.inj (hs.symm.trans hu)
      exact .inl hstopped
    · exact .inr hother
  refine ⟨h.start_le, ?_, ?_, htogether, ?_⟩
  · intro t ht
    rcases hcases t ht with rfl | ⟨j, -, hj⟩
    · exact Nat.le_of_eq hidle
    · exact h.settled_le t (List.mem_of_getElem? hj)
  · intro t ht
    rcases hcases t ht with rfl | ⟨j, -, hj⟩
    · have hold := h.single s hmem
      omega
    · exact h.single t (List.mem_of_getElem? hj)
  · intro t ht htex
    rcases hcases t ht with rfl | ⟨j, hjk, hj⟩
    · rwa [hidle]
    · by_cases hex : s.exclusive = true
      · -- The token of the section that stops bars all other exclusive sections.
        have htidle : t.isRunning = false := by
          rw [Bool.eq_false_iff]
          intro htrun
          have hrun : s.isRunning = true := by rw [Section.isRunning, hrunning]
          exact hjk (hguarded.place_unique ⟨t, hj, htex, htrun⟩ ⟨s, hs, hex, hrun⟩)
        rwa [Section.settled_of_idle (isRunning_eq_false_iff.mp htidle)]
      · have hold := h.together_settled t (List.mem_of_getElem? hj) htex
        rw [Section.exclusiveShare, Section.exclusiveShare, hexclusive, if_neg hex,
          if_neg hex] at hsum
        omega

end Fits

/-! ## Calls and the clock -/

/-- What the clock shows at a call. Only a call that looks at it makes time pass. -/
def Call.clock (c : Call) (now : Duration) : Duration :=
  match c with
  | .start here _ => here.now
  | .stop here _ _ => here.now
  | .resetAll now => now
  | _ => now

/-- The clock does not go back from `start` over the calls to `finish`. -/
def Clocked : Duration → List Call → Duration → Prop
  | start, [], finish => start.nanos ≤ finish.nanos
  | start, c :: calls, finish =>
    start.nanos ≤ (c.clock start).nanos ∧ Clocked (c.clock start) calls finish

instance decidableClocked :
    ∀ start calls finish, Decidable (Clocked start calls finish)
  | start, [], finish => inferInstanceAs (Decidable (start.nanos ≤ finish.nanos))
  | start, c :: calls, finish =>
    have := decidableClocked (c.clock start) calls finish
    inferInstanceAs (Decidable (start.nanos ≤ (c.clock start).nanos ∧ _))

/-- **One call.** What was measured still fits when the clock has moved on to the call. -/
theorem Fits.perform (h : m.Fits start now) (hm : m.Reachable) (c : Call)
    (hclock : now.nanos ≤ (c.clock now).nanos) :
    (m.perform c).monitor.Fits start (c.clock now) := by
  have hlater : m.Fits start (c.clock now) := h.mono hclock
  have hstep := hm.inStep.callStep c
  generalize (m.perform c).monitor = m' at hstep
  cases hstep with
  | nothing => exact hlater
  | register label => exact hlater.register label
  | @bind label requested k bound hs hbound =>
    -- A section that is still open to binding is exclusive, so none becomes exclusive here.
    have hreg := hlater.register label
    have hdefault := ((hm.after (.call (.resolve label))).defaulted) _ (List.mem_of_getElem? hs)
    have helapsed : bound.totals = (m.sectionOf label).totals := by rw [eq_of_bind? hbound]
    have hsettled (t : Duration) : bound.settled t = (m.sectionOf label).settled t := by
      rw [eq_of_bind? hbound]
      rfl
    refine hreg.modify hs rfl (Nat.le_of_eq (by rw [helapsed]))
      (exclusive_of_bind? hbound hdefault) (Nat.le_of_eq (hsettled _).symm) ?_
    rw [hsettled]
    exact hreg.settled_le _ (List.mem_of_getElem? hs)
  | @openInterval here label k hk hs hidle hresult =>
    have hreg := hlater.register label
    refine hreg.modify hs (sections_openInterval ..) (Nat.le_refl _) id ?_ (Nat.le_refl _)
    exact hreg.settled_le _ (List.mem_of_getElem? hs)
  | closeInterval hk hs hrunning hresult =>
    exact hlater.finish hm.guarded hs hrunning (sections_closeInterval ..)
  | @clear label k hs hidle =>
    have hsettled (t : Duration) : (m.sectionOf label).clear.settled t = t.nanos :=
      Section.settled_of_idle hidle t
    refine hlater.modify hs (sections_modifySection ..) (Nat.zero_le _) id ?_ ?_
    · exact Nat.le_of_eq (by rw [hsettled, Section.settled_of_idle hidle])
    · exact Nat.le_of_eq (hsettled _)
  | restart hidle => exact .of_sections_eq_nil rfl hlater.start_le

/-! ## Since the root section began -/

/-- The root section runs, for the first time, since some point in time. -/
structure Spans (m : Monitor) (since : Duration) : Prop where
  ungathered : m.gathered = false
  totals_eq : m.rootSection.totals = {}
  phase_eq : m.rootSection.phase = .running since []

namespace Spans

theorem of_eq (h : m.Spans start) (hroot : m'.rootSection = m.rootSection)
    (hgathered : m'.gathered = m.gathered) : m'.Spans start where
  ungathered := hgathered.trans h.ungathered
  totals_eq := hroot ▸ h.totals_eq
  phase_eq := hroot ▸ h.phase_eq

theorem register (h : m.Spans start) (label : String) : (m.register label).Spans start :=
  h.of_eq (Keeps.register m label).rootSection_eq (gathered_register m label)

theorem build (settings : Settings) (adapterEvents : Option (List String)) (traced : Bool)
    (now : Duration) : (build settings adapterEvents traced now).Spans now := by
  rw [Monitor.build]
  split <;> exact ⟨rfl, rfl, rfl⟩

/-- If all sections are forgotten the root section begins again, and so does the measured time. -/
theorem exists_perform (hspan : m.Spans start) (h : m.Fits start now) (hm : m.Reachable) (c : Call)
    (hclock : now.nanos ≤ (c.clock now).nanos) :
    ∃ since, (m.perform c).monitor.Spans since ∧
      (m.perform c).monitor.Fits since (c.clock now) := by
  have hfits := h.perform hm c hclock
  have hstep := hm.inStep.callStep c
  generalize (m.perform c).monitor = m' at hstep hfits
  cases hstep with
  | nothing => exact ⟨start, hspan, hfits⟩
  | register label => exact ⟨start, hspan.register label, hfits⟩
  | bind => exact ⟨start, (hspan.register _).of_eq rfl rfl, hfits⟩
  | openInterval => exact ⟨start, (hspan.register _).of_eq rfl rfl, hfits⟩
  | closeInterval | clear => exact ⟨start, hspan.of_eq rfl rfl, hfits⟩
  | restart =>
    -- Only here does a new span begin, and nothing has been measured in it.
    have hrun : m.rootSection.isRunning = true := by rw [Section.isRunning, hspan.phase_eq]
    refine ⟨_, ⟨hspan.ungathered, rfl, ?_⟩, .of_sections_eq_nil rfl (Nat.le_refl _)⟩
    rw [restarted, restartRoot, hrun]
    rfl

/-- **Any number of calls.** -/
theorem exists_run (hspan : m.Spans start) (h : m.Fits start now) (hm : m.Reachable)
    {calls : List Call} {finish : Duration} (hclock : Clocked now calls finish) :
    ∃ since, (m.run (calls.map .call)).Spans since ∧
      (m.run (calls.map .call)).Fits since finish := by
  induction calls generalizing m start now with
  | nil => exact ⟨start, hspan, h.mono hclock⟩
  | cons c calls ih =>
    obtain ⟨hle, hrest⟩ := hclock
    obtain ⟨since, hspan', hfits'⟩ := hspan.exists_perform h hm c hle
    exact ih hspan' hfits' (hm.after (.call c)) hrest

/-- The root section ends with the time that has passed since it began. -/
theorem elapsed_gather (hspan : m.Spans start) (hidle : m.running? = none) (now : Duration)
    (t : Transport) (hlimit : now.nanos ≤ Duration.limit) :
    (m.after (.gather now t)).rootSection.totals.elapsed.nanos = now.nanos - start.nanos := by
  obtain ⟨labels, hm⟩ := exists_after_gather_eq hspan.ungathered hidle now t
  have hroot : (m.after (.gather now t)).rootSection = (m.sealed now).rootSection := by
    rw [hm]
    exact rootSection_registerAll _ labels
  rw [hroot, elapsed_sealed, lifetime, hspan.phase_eq, hspan.totals_eq]
  change min (0 + (now.nanos - start.nanos)) Duration.limit = now.nanos - start.nanos
  omega

end Spans

/-- A gather adds sections of other processes, on which no time was spent. -/
theorem exclusiveElapsed_gather (m : Monitor) (now : Duration) (t : Transport) :
    (m.after (.gather now t)).exclusiveElapsed = m.exclusiveElapsed := by
  obtain hm | ⟨-, -, labels, hm⟩ := m.gather_cases now t
  · rw [hm]
  · have hall : ((m.sealed now).registerAll labels).1.exclusiveElapsed
        = (m.sealed now).exclusiveElapsed :=
      registerAll_eq_of_register exclusiveElapsed_register _ labels
    rw [hm]
    change ((m.sealed now).registerAll labels).1.exclusiveElapsed = m.exclusiveElapsed
    rw [hall, exclusiveElapsed, exclusiveElapsed, sections_sealed]

/-- **Exclusive sections fit into the total time.** After any calls on the monitor of a process,
with a clock that does not go back, the exclusive sections together, and with the open interval of
one of them, have taken no more time than has passed since the root section began; nor has any
single section. A gather that is not refused ends the root section with at least as much time as the
exclusive sections have. Clocks show times that are durations, so they do not go beyond the limit
of durations. -/
theorem exclusive_times_fit (settings : Settings) (adapterEvents : Option (List String))
    (traced : Bool) (began now : Duration) (calls : List Call)
    (hclock : Clocked began calls now) :
    let m := (build settings adapterEvents traced began).run (calls.map .call)
    ∃ since, m.rootSection.phase = .running since [] ∧
      m.exclusiveElapsed ≤ now.nanos - since.nanos ∧
      (∀ s ∈ m.sections, s.exclusive = true →
        m.exclusiveElapsed + s.openTime now ≤ now.nanos - since.nanos) ∧
      (∀ s ∈ m.sections,
        s.totals.elapsed.nanos + s.openTime now ≤ now.nanos - since.nanos) ∧
      ∀ t, m.running? = none → now.nanos ≤ Duration.limit →
        (m.after (.gather now t)).rootSection.totals.elapsed.nanos = now.nanos - since.nanos ∧
          (m.after (.gather now t)).exclusiveElapsed
            ≤ (m.after (.gather now t)).rootSection.totals.elapsed.nanos := by
  intro m
  have hbuilt : (build settings adapterEvents traced began).Fits began began :=
    .of_sections_eq_nil (sections_build ..) (Nat.le_refl _)
  obtain ⟨since, hspan, hfits⟩ : ∃ since, m.Spans since ∧ m.Fits since now :=
    (Spans.build settings adapterEvents traced began).exists_run hbuilt (.build ..) hclock
  have hsum : m.exclusiveElapsed ≤ now.nanos - since.nanos := by
    have htogether := hfits.together
    omega
  refine ⟨since, hspan.phase_eq, hsum, ?_, ?_, ?_⟩
  · intro s hs hex
    have htogether := hfits.together_settled s hs hex
    have hopen := Section.settled_add_openTime (hfits.settled_le s hs)
    omega
  · intro s hs
    have hsingle := hfits.single s hs
    have hopen := Section.settled_add_openTime (hfits.settled_le s hs)
    omega
  · intro t hidle hlimit
    have hroot := hspan.elapsed_gather hidle now t hlimit
    rw [exclusiveElapsed_gather, hroot]
    exact ⟨rfl, hsum⟩

/-- Two exclusive sections in turn, both of them overlapped by one that is not exclusive. -/
def inTurn : List Call :=
  [.resetAll ⟨3⟩, .setProperties "io" ⟨.communication, false⟩, .start (.plain ⟨5⟩) "solve",
    .start (.plain ⟨6⟩) "io", .stop (.plain ⟨9⟩) "solve" {}, .start (.plain ⟨9⟩) "halo",
    .stop (.plain ⟨12⟩) "halo" {}, .stop (.plain ⟨20⟩) "io" {}]

/-- They have taken seven of the twenty-two nanoseconds since everything was forgotten. -/
theorem times_in_turn_fit :
    let m := (build {} none false .zero).run (inTurn.map .call)
    Clocked .zero inTurn ⟨25⟩ ∧ m.running? = none ∧ m.exclusiveElapsed = 7 ∧
      ∃ since, m.rootSection.phase = .running since [] ∧ m.exclusiveElapsed ≤ 25 - since.nanos ∧
        ∀ t, (m.after (.gather ⟨25⟩ t)).rootSection.totals.elapsed.nanos = 25 - since.nanos := by
  intro m
  have hclock : Clocked .zero inTurn ⟨25⟩ := by decide
  have hidle : m.running? = none := by decide +kernel
  obtain ⟨since, hphase, hsum, -, -, hgather⟩ :=
    exclusive_times_fit {} none false .zero ⟨25⟩ inTurn hclock
  exact ⟨hclock, hidle, by decide +kernel, since, hphase, hsum,
    fun t ↦ (hgather t hidle (by decide)).1⟩

end Monitor

end SectionMonitor
