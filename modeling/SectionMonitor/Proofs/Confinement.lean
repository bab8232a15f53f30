import Mathlib.Data.Fintype.EquivFin
import SectionMonitor.Proofs.Exclusivity

/-!
# Replicas of a process inside an exclusive section

A replica that is made while an exclusive section runs begins with the token of that section, and
so bars every exclusive section of its own. The token is a handle, and in the replica the handle
names a section that does not run there. Two calls therefore take the token away without the
section having ended: forgetting all sections, and stopping the replica's own section of that
handle, which can run once it has been bound to overlap others.

`replica_confined_iff` says that nothing else does: a replica, or a replica of it, is confined for
exactly as long as neither of the two has succeeded. A section that was bound by name cannot be
bound to overlap others, which leaves only the first (`replica_confined_of_explicit`).
-/

namespace SectionMonitor

namespace Monitor

variable {m r : Monitor} {i : Index}

/-! ## What happens to a replica -/

/-- What is done with a replica: a call, or going on with a replica of it. -/
inductive Move where
  | call (c : Call)
  | replicate (thread : ℕ)

/-- The monitor that is gone on with after a move, whether it succeeds or not. -/
def move (r : Monitor) : Move → Monitor
  | .call c => (r.perform c).monitor
  | .replicate thread => r.replica thread

/-- The monitor that is gone on with after several moves. -/
def moveAll (r : Monitor) (moves : List Move) : Monitor := moves.foldl move r

@[simp] theorem moveAll_append (r : Monitor) (moves : List Move) (mv : Move) :
    r.moveAll (moves ++ [mv]) = (r.moveAll moves).move mv := by
  rw [moveAll, moveAll, List.foldl_append, List.foldl_cons, List.foldl_nil]

theorem InStep.move (h : r.InStep) (mv : Move) : (r.move mv).InStep := by
  cases mv with
  | call c => exact (perform_edits h c).inStep h
  | replicate thread => exact h.replica thread

theorem InStep.moveAll (h : r.InStep) (moves : List Move) : (r.moveAll moves).InStep := by
  induction moves using List.reverseRecOn with
  | nil => exact h
  | append_singleton moves mv ih =>
    rw [moveAll_append]
    exact ih.move mv

/-- No section that is exclusive in the monitor can be started. -/
def Bars (r : Monitor) : Prop :=
  ∀ here label, (r.sectionOf label).exclusive = true → ∀ j, (r.start here label).result ≠ .ok j

/-- The move succeeds in forgetting all sections, or in stopping the section with the handle. -/
def Releases (r : Monitor) (i : Index) : Move → Prop
  | .call (.stop here label work) =>
    r.lookup label = some i ∧ (r.stop here label work).result = .ok ()
  | .call (.resetAll now) => (r.resetAll now).result = .ok ()
  | _ => False

/-! ## The token under moves -/

/-- There is always an idle exclusive section to start: one with a new label. -/
theorem bars_iff (h : r.InStep) : r.Bars ↔ r.token ≠ none := by
  constructor
  · intro hbars hnone
    obtain ⟨label, hlabel⟩ := Infinite.exists_notMem_finset r.registry.labels.toFinset
    rw [List.mem_toFinset, ← h.indexed.lookup_eq_none_iff, ← lookup] at hlabel
    have hnew := h.sectionOf_of_new hlabel
    have hex : (r.sectionOf label).exclusive = true := by rw [hnew]; rfl
    have hidle : (r.sectionOf label).isRunning = false := by rw [hnew]; rfl
    obtain ⟨hrun, -⟩ | ⟨i, -, -, htoken, -⟩ | ⟨-, -, hresult, -⟩ :=
      h.start_cases (.plain .zero) label
    · exact absurd (hrun.symm.trans hidle) (by simp)
    · exact absurd (hnone.symm.trans htoken) (by simp)
    · exact hbars _ label hex _ hresult
  · intro htoken here label hex j hj
    obtain ⟨-, hresult, -⟩ | ⟨i, -, -, -, hresult, -⟩ | ⟨-, hfree, -, -⟩ :=
      h.start_cases here label
    · exact absurd (hresult.symm.trans hj) (by simp)
    · exact absurd (hresult.symm.trans hj) (by simp)
    · rw [barrier?, hex, if_pos rfl, token_register] at hfree
      exact htoken hfree

theorem token_setProperties (h : r.InStep) (label : String) (requested : Properties) :
    (r.setProperties label requested).monitor.token = r.token := by
  obtain ⟨-, hm⟩ | ⟨k, bound, -, -, -, hm⟩ := h.setProperties_cases label requested
  · rw [hm, token_register]
  · rw [hm, token_modifySection, token_register]

theorem token_reset (h : r.InStep) (label : String) :
    (r.reset label).monitor.token = r.token := by
  obtain ⟨-, -, hm⟩ | ⟨-, hm⟩ | ⟨k, -, -, -, hm⟩ := h.reset_cases label
  · rw [hm]
  · rw [hm]
  · rw [hm, token_modifySection]

theorem token_start_of_taken (h : r.InStep) (htoken : r.token = some i) (here : Surroundings)
    (label : String) : (r.start here label).monitor.token = some i := by
  obtain ⟨-, -, hm⟩ | ⟨-, -, -, -, -, hm⟩ | ⟨-, hfree, -, hm⟩ := h.start_cases here label
  · rw [hm, token_register, htoken]
  · rw [hm, token_register, htoken]
  · have hnot : (r.sectionOf label).exclusive = false := by
      rw [Bool.eq_false_iff]
      intro hex
      rw [barrier?, hex, if_pos rfl, token_register, htoken] at hfree
      cases hfree
    have hopened : ((r.register label).openInterval here (r.indexOf label)).token
        = if ((r.register label).sectionAt (r.indexOf label)).exclusive then
            some (r.indexOf label) else (r.register label).token := rfl
    rw [hm, hopened, h.sectionAt_register, hnot, token_register, htoken]
    rfl

/-- **What a move does to the token.** It is given back by the moves that release it and by no
others. -/
theorem token_move (h : r.InStep) (htoken : r.token = some i) (mv : Move) :
    (r.Releases i mv → (r.move mv).token = none) ∧
      (¬r.Releases i mv → (r.move mv).token = some i) := by
  cases mv with
  | replicate thread =>
    refine ⟨False.elim, fun _ ↦ ?_⟩
    rw [move, h.replica_eq, htoken]
  | call c =>
    cases c with
    | resolve label => exact ⟨False.elim, fun _ ↦ (token_register r label).trans htoken⟩
    | setProperties label requested =>
      exact ⟨False.elim, fun _ ↦ (token_setProperties h label requested).trans htoken⟩
    | start here label =>
      exact ⟨False.elim, fun _ ↦ token_start_of_taken h htoken here label⟩
    | stop here label work =>
      have hmove : r.move (.call (.stop here label work)) = (r.stop here label work).monitor := rfl
      rw [Releases, hmove]
      obtain ⟨-, hresult, hm⟩ | ⟨k, since, snapshots, hlookup, -, -, hresult, hm⟩ :=
        h.stop_cases here label work
      · rw [hresult, hm, htoken]
        simp
      · rw [hresult, hm, hlookup, token_closeInterval, htoken]
        by_cases heq : i = ⟨k + 1⟩
        · simp [heq]
        · simp [heq, Ne.symm heq]
    | reset label => exact ⟨False.elim, fun _ ↦ (token_reset h label).trans htoken⟩
    | resetAll now =>
      have hmove : r.move (.call (.resetAll now)) = (r.resetAll now).monitor := rfl
      rw [Releases, hmove, resetAll]
      cases r.running? with
      | some s => simpa [Outcome.refusal] using htoken
      | none => simp [Outcome.success]

/-- Along moves that do not release it the token stays where it was. -/
theorem token_moveAll (h : r.InStep) (htoken : r.token = some i) {moves : List Move}
    (hkept : ∀ before mv, before ++ [mv] <+: moves → ¬(r.moveAll before).Releases i mv) :
    (r.moveAll moves).token = some i := by
  induction moves using List.reverseRecOn with
  | nil => exact htoken
  | append_singleton moves mv ih =>
    have hbefore := ih fun before mv' hpre ↦
      hkept before mv' (hpre.trans (List.prefix_append moves [mv]))
    rw [moveAll_append]
    exact (token_move (h.moveAll moves) hbefore mv).2 (hkept moves mv List.prefix_rfl)

/-- While a monitor bars all along some moves, the token stays where it was. -/
theorem token_moveAll_of_bars (h : r.InStep) (htoken : r.token = some i) {moves : List Move}
    (hbars : ∀ before, before <+: moves → (r.moveAll before).Bars) :
    (r.moveAll moves).token = some i := by
  induction moves using List.reverseRecOn with
  | nil => exact htoken
  | append_singleton moves mv ih =>
    have hbefore := ih fun before hpre ↦ hbars before (hpre.trans (List.prefix_append moves [mv]))
    have hmove := token_move (h.moveAll moves) hbefore mv
    have htaken := (bars_iff (h.moveAll _)).mp (hbars (moves ++ [mv]) List.prefix_rfl)
    rw [moveAll_append] at htaken ⊢
    exact hmove.2 fun hrel ↦ htaken (hmove.1 hrel)

/-! ## The two ways out -/

/-- What a replica begins with while an exclusive section runs. -/
theorem Reachable.token_replica (h : m.Reachable) {k : ℕ} (hk : m.Occupies k) (thread : ℕ) :
    (m.replica thread).token = some ⟨k + 1⟩ := by
  rw [h.inStep.replica_eq]
  exact h.guarded k hk

/-- **A replica is confined until it releases the token.** While an exclusive section runs, all
along some moves of a replica no exclusive section can be started exactly if none of the moves
succeeds in forgetting all sections or in stopping the section of the inherited handle. -/
theorem replica_confined_iff (h : m.Reachable) {k : ℕ} (hk : m.Occupies k) (thread : ℕ)
    (moves : List Move) :
    (∀ before, before <+: moves → ((m.replica thread).moveAll before).Bars) ↔
      ∀ before mv, before ++ [mv] <+: moves →
        ¬((m.replica thread).moveAll before).Releases ⟨k + 1⟩ mv := by
  have hin : (m.replica thread).InStep := h.inStep.replica thread
  have htoken : (m.replica thread).token = some ⟨k + 1⟩ := h.token_replica hk thread
  constructor
  · intro hbars before mv hpre hrel
    have hbefore : ((m.replica thread).moveAll before).token = some ⟨k + 1⟩ :=
      token_moveAll_of_bars hin htoken fun b hb ↦
        hbars b (hb.trans ((List.prefix_append before [mv]).trans hpre))
    have htaken := (bars_iff (hin.moveAll _)).mp (hbars _ hpre)
    rw [moveAll_append] at htaken
    exact htaken ((token_move (hin.moveAll before) hbefore mv).1 hrel)
  · intro hkept before hpre
    have hbefore := token_moveAll hin htoken fun b mv hb ↦ hkept b mv (hb.trans hpre)
    rw [bars_iff (hin.moveAll before), hbefore]
    simp

/-- Bound to overlap others, the replica's own copy of the running section can be started, and
stopping it is a way out. -/
theorem replica_released_by_rebinding :
    let here : Surroundings := .plain .zero
    let m := (build {} none false .zero).after (.call (.start here "outer"))
    let moves : List Move :=
      [.call (.setProperties "outer" ⟨.computation, false⟩), .call (.start here "outer"),
        .call (.stop here "outer" {})]
    m.Reachable ∧ m.Occupies 0 ∧
      ¬∀ before, before <+: moves → ((m.replica 0).moveAll before).Bars := by
  intro here m moves
  have hreach : m.Reachable := (Reachable.build {} none false .zero).after _
  have hocc : m.Occupies 0 := ⟨_, rfl, rfl, rfl⟩
  refine ⟨hreach, hocc, fun hbars ↦ ?_⟩
  exact (replica_confined_iff hreach hocc 0 moves).mp hbars
    [.call (.setProperties "outer" ⟨.computation, false⟩), .call (.start here "outer")]
    (.call (.stop here "outer" {})) List.prefix_rfl
    ⟨by decide +kernel, by decide +kernel⟩

/-! ## Sections that were bound by name -/

/-- The section at this place is idle and bound by name to exclude others. -/
def Pinned (r : Monitor) (k : ℕ) : Prop :=
  ∃ s, r.sections[k]? = some s ∧ s.exclusive = true ∧ s.binding = .explicit ∧ s.phase = .idle

theorem Pinned.register {k : ℕ} (hp : r.Pinned k) (label : String) :
    (r.register label).Pinned k := by
  obtain ⟨s, hs, hbound⟩ := hp
  refine ⟨s, ?_, hbound⟩
  cases hlookup : r.lookup label with
  | some i => rwa [register_of_known hlookup]
  | none =>
    obtain ⟨hlt, -⟩ := List.getElem?_eq_some_iff.mp hs
    rw [sections_register_of_new hlookup, List.getElem?_append_left hlt, hs]

/-- A change at another place, or one that keeps properties, binding and phase, is harmless. -/
theorem Pinned.modify {k j : ℕ} (hp : r.Pinned k) {f : Section → Section}
    (hsections : m.sections = r.sections.modify j f)
    (hf : j = k → ∀ s, r.sections[k]? = some s → s.exclusive = true → s.binding = .explicit →
      s.phase = .idle → (f s).exclusive = true ∧ (f s).binding = .explicit ∧ (f s).phase = .idle) :
    m.Pinned k := by
  obtain ⟨s, hs, hex, hbinding, hidle⟩ := hp
  by_cases hj : j = k
  · subst hj
    exact ⟨f s, by simp [hsections, hs], hf rfl s hs hex hbinding hidle⟩
  · exact ⟨s, by simp [hsections, hj, hs], hex, hbinding, hidle⟩

/-- While the token is taken, no move but forgetting all sections unpins a section. -/
theorem Pinned.move (h : r.InStep) (htoken : r.token = some i) {k : ℕ} (hp : r.Pinned k) (mv : Move)
    (hkept : ∀ now, mv = .call (.resetAll now) → (r.resetAll now).result ≠ .ok ()) :
    (r.move mv).Pinned k := by
  cases mv with
  | replicate thread =>
    obtain ⟨s, hs, hex, hbinding, -⟩ := hp
    refine ⟨s.fresh, ?_, hex, hbinding, rfl⟩
    rw [Monitor.move, h.replica_eq, List.getElem?_map, hs, Option.map_some]
  | call c =>
    cases c with
    | resolve label => exact hp.register label
    | setProperties label requested =>
      rw [Monitor.move, perform, Outcome.monitor_map]
      obtain ⟨-, hm⟩ | ⟨j, bound, hs, hbound, -, hm⟩ := h.setProperties_cases label requested
      · exact hm ▸ hp.register label
      · rw [hm]
        refine (hp.register label).modify rfl fun hjk s hk hex hbinding hidle ↦ ?_
        subst hjk
        obtain rfl : r.sectionOf label = s := Option.some.inj (hs.symm.trans hk)
        rw [eq_of_bind?_of_explicit hbound hbinding]
        exact ⟨hex, hbinding, hidle⟩
    | start here label =>
      rw [Monitor.move, perform, Outcome.monitor_map]
      obtain ⟨-, -, hm⟩ | ⟨-, -, -, -, -, hm⟩ | ⟨-, hfree, -, hm⟩ := h.start_cases here label
      · exact hm ▸ hp.register label
      · exact hm ▸ hp.register label
      · -- What could be started is not exclusive, so it is another section.
        obtain ⟨j, hj, hs⟩ := h.exists_section_register label
        rw [hm, hj]
        refine (hp.register label).modify rfl fun hjk s hk hex hbinding hidle ↦ ?_
        subst hjk
        obtain rfl : r.sectionOf label = s := Option.some.inj (hs.symm.trans hk)
        rw [barrier?, hex, if_pos rfl, token_register, htoken] at hfree
        cases hfree
    | stop here label work =>
      rw [Monitor.move, perform, Outcome.monitor_map]
      obtain ⟨-, -, hm⟩ | ⟨j, since, snapshots, -, hs, hrunning, -, hm⟩ :=
        h.stop_cases here label work
      · rwa [hm]
      · rw [hm]
        refine hp.modify rfl fun hjk s hk hex hbinding hidle ↦ ?_
        subst hjk
        obtain rfl : r.sectionOf label = s := Option.some.inj (hs.symm.trans hk)
        exact absurd (hidle.symm.trans hrunning) (by simp)
    | reset label =>
      rw [Monitor.move, perform, Outcome.monitor_map]
      obtain ⟨-, -, hm⟩ | ⟨-, hm⟩ | ⟨j, -, -, -, hm⟩ := h.reset_cases label
      · rwa [hm]
      · rwa [hm]
      · rw [hm]
        exact hp.modify rfl fun _ s _ hex hbinding hidle ↦ ⟨hex, hbinding, hidle⟩
    | resetAll now =>
      rw [Monitor.move, perform, Outcome.monitor_map]
      obtain ⟨-, hm⟩ | ⟨-, hresult, -⟩ := r.resetAll_cases now
      · rwa [hm]
      · exact absurd hresult (hkept now rfl)

/-- A pinned section is idle, so only forgetting it releases the token. -/
theorem Pinned.not_releases (h : r.InStep) {k : ℕ} (hp : r.Pinned k) (mv : Move)
    (hkept : ∀ now, mv = .call (.resetAll now) → (r.resetAll now).result ≠ .ok ()) :
    ¬r.Releases ⟨k + 1⟩ mv := by
  cases mv with
  | replicate thread => exact id
  | call c =>
    cases c with
    | stop here label work =>
      rintro ⟨hlookup, hresult⟩
      obtain ⟨-, hrefused, -⟩ | ⟨j, since, snapshots, hj, hs, hrunning, -, -⟩ :=
        h.stop_cases here label work
      · exact absurd (hrefused.symm.trans hresult) (by simp)
      · obtain ⟨t, ht, -, -, hidle⟩ := hp
        obtain rfl : j = k := by simpa using hj.symm.trans hlookup
        rw [Option.some.inj (hs.symm.trans ht), hidle] at hrunning
        cases hrunning
    | resetAll now => exact hkept now rfl
    | resolve label => exact id
    | setProperties label requested => exact id
    | start here label => exact id
    | reset label => exact id

/-- **A section that was bound by name confines replicas for good.** If the running section was
bound by name to exclude others, then no exclusive section can be started in a replica, or in a
replica of it, until the replica has succeeded in forgetting all sections. -/
theorem replica_confined_of_explicit (h : m.Reachable) {k : ℕ} {s : Section}
    (hs : m.sections[k]? = some s) (hex : s.exclusive = true) (hrun : s.isRunning = true)
    (hbinding : s.binding = .explicit) (thread : ℕ) (moves : List Move)
    (hkept : ∀ before now, before ++ [.call (.resetAll now)] <+: moves →
      (((m.replica thread).moveAll before).resetAll now).result ≠ .ok ()) :
    ((m.replica thread).moveAll moves).Bars := by
  have hin : (m.replica thread).InStep := h.inStep.replica thread
  have htoken : (m.replica thread).token = some ⟨k + 1⟩ := h.token_replica ⟨s, hs, hex, hrun⟩ thread
  have hpinned : (m.replica thread).Pinned k := by
    refine ⟨s.fresh, ?_, hex, hbinding, rfl⟩
    rw [h.inStep.replica_eq, List.getElem?_map, hs, Option.map_some]
  have hall : ((m.replica thread).moveAll moves).token = some ⟨k + 1⟩ ∧
      ((m.replica thread).moveAll moves).Pinned k := by
    induction moves using List.reverseRecOn with
    | nil => exact ⟨htoken, hpinned⟩
    | append_singleton moves mv ih =>
      obtain ⟨ht, hp⟩ := ih fun before now hpre ↦
        hkept before now (hpre.trans (List.prefix_append moves [mv]))
      have hmoves : ((m.replica thread).moveAll moves).InStep := hin.moveAll moves
      have hreset : ∀ now, mv = .call (.resetAll now) →
          (((m.replica thread).moveAll moves).resetAll now).result ≠ .ok () := by
        rintro now rfl
        exact hkept moves now List.prefix_rfl
      rw [moveAll_append]
      exact ⟨(token_move hmoves ht mv).2 (hp.not_releases hmoves mv hreset),
        hp.move hmoves ht mv hreset⟩
  rw [bars_iff (hin.moveAll moves), hall.1]
  simp

end Monitor

end SectionMonitor
