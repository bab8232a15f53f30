import SectionMonitor.Proofs.Replica

/-!
# One exclusive section at a time

Which exclusive section runs is written down twice: in the phases of the sections and in the token
of the monitor. `Edit.token_cases` lists what a change can do to the two. From it come two
invariants, one for each direction of the agreement.

* A running exclusive section holds the token (`Guarded`). This holds of every monitor that a
  program can get hold of, replicas included, and by itself rules out that two exclusive sections
  overlap.
* Whoever holds the token is a running exclusive section (`Owned`). This holds of the monitor of a
  process only: a replica begins with a token whose holder runs elsewhere.
-/

namespace SectionMonitor

namespace Monitor

variable {m m' : Monitor}

/-! ## Places of running exclusive sections -/

/-- An exclusive section runs at this place. -/
def Occupies (m : Monitor) (k : ℕ) : Prop :=
  ∃ s, m.sections[k]? = some s ∧ s.exclusive = true ∧ s.isRunning = true

theorem occupies_iff_of_section {k : ℕ} {s : Section} (hs : m.sections[k]? = some s) :
    m.Occupies k ↔ s.exclusive = true ∧ s.isRunning = true := by
  refine ⟨?_, fun h ↦ ⟨s, hs, h⟩⟩
  rintro ⟨t, ht, h⟩
  obtain rfl : s = t := Option.some.inj (hs.symm.trans ht)
  exact h

theorem not_occupies_of_idle (h : ∀ s ∈ m.sections, s.isRunning = false) (k : ℕ) :
    ¬m.Occupies k := by
  rintro ⟨s, hs, -, hrun⟩
  rw [h s (List.mem_of_getElem? hs)] at hrun
  cases hrun

/-- A change of one section decides about its own place and about no other. -/
theorem occupies_modify {k : ℕ} {s : Section} {f : Section → Section}
    (hs : m.sections[k]? = some s) (hsections : m'.sections = m.sections.modify k f) (j : ℕ) :
    m'.Occupies j
      ↔ if j = k then (f s).exclusive = true ∧ (f s).isRunning = true else m.Occupies j := by
  by_cases hj : j = k
  · subst hj
    have hf : m'.sections[j]? = some (f s) := by
      simp [hsections, hs]
    rw [if_pos rfl, occupies_iff_of_section hf]
  · have hother : m'.sections[j]? = m.sections[j]? := by
      simp [hsections, Ne.symm hj]
    rw [if_neg hj, Occupies, Occupies, hother]

/-- A change of one section that neither starts nor stops an exclusive one. -/
theorem occupies_modify_of_iff {k : ℕ} {s : Section} {f : Section → Section}
    (hs : m.sections[k]? = some s) (hsections : m'.sections = m.sections.modify k f)
    (hf : (f s).exclusive = true ∧ (f s).isRunning = true
      ↔ s.exclusive = true ∧ s.isRunning = true) (j : ℕ) :
    m'.Occupies j ↔ m.Occupies j := by
  rw [occupies_modify hs hsections, hf]
  split_ifs with hj
  · rw [hj, occupies_iff_of_section hs]
  · rfl

/-! ## What a change does to the token -/

/-- Binding cannot change whether a running section is exclusive. -/
theorem occupying_of_bind? {s bound : Section} {requested : Properties}
    (h : s.bind? requested = some bound) :
    bound.exclusive = true ∧ bound.isRunning = true ↔ s.exclusive = true ∧ s.isRunning = true := by
  rw [Section.bind?] at h
  split_ifs at h with hopen
  obtain rfl := Option.some.inj h
  rw [Bool.or_eq_true, decide_eq_true_iff] at hopen
  rcases hopen with hsame | hopen
  · subst hsame
    rfl
  · have hidle : s.isRunning = false := by
      rw [Section.isOpenToBinding, Bool.and_eq_true] at hopen
      simpa using hopen.2
    have hidle' : Section.isRunning { s with properties := requested, binding := .explicit }
        = false := hidle
    rw [hidle, hidle']
    simp

/-- **What a change does to the token and to the places of running exclusive sections.** Either it
leaves both alone, or it gives the token to a section that it starts, or it stops a section and
takes the token from it, or it begins anew. -/
theorem Edit.token_cases (e : Edit m m') :
    (m'.token = m.token ∧ ∀ j, m'.Occupies j ↔ m.Occupies j) ∨
      (∃ k, m.token = none ∧ m'.token = some ⟨k + 1⟩ ∧
        ∀ j, m'.Occupies j ↔ j = k ∨ m.Occupies j) ∨
      (∃ k, m'.token = (if m.token = some ⟨k + 1⟩ then none else m.token) ∧
        ∀ j, m'.Occupies j ↔ j ≠ k ∧ m.Occupies j) ∨
      (m'.token = none ∧ ∀ j, ¬m'.Occupies j) := by
  cases e with
  | @register label hnew =>
    refine .inl ⟨token_register m label, fun j ↦ ?_⟩
    rw [Occupies, Occupies, sections_register_of_new hnew, List.getElem?_append]
    -- The new section is idle, so it counts as little as a missing one.
    split_ifs with hj
    · rfl
    · rw [List.getElem?_eq_none (Nat.le_of_not_lt hj)]
      refine iff_of_false ?_ (by simp)
      rintro ⟨s, hs, -, hrun⟩
      obtain rfl : s = _ := List.mem_singleton.mp (List.mem_of_getElem? hs)
      cases hrun
  | bind hs hbound =>
    exact .inl ⟨rfl, occupies_modify_of_iff hs rfl (occupying_of_bind? hbound)⟩
  | @openInterval k s here hs hidle hfree =>
    have hsection : m.sectionAt ⟨k + 1⟩ = s := sectionAt_of_section hs
    have htoken : (m.openInterval here ⟨k + 1⟩).token
        = if s.exclusive then some ⟨k + 1⟩ else m.token := by rw [← hsection]; rfl
    have hmoved := occupies_modify hs (sections_openInterval m here k)
    cases hex : s.exclusive with
    | true =>
      refine .inr (.inl ⟨k, ?_, by rw [htoken, hex, if_pos rfl], fun j ↦ ?_⟩)
      · rwa [barrier?, hex, if_pos rfl] at hfree
      · rw [hmoved]
        split_ifs with hj
        · exact iff_of_true ⟨hex, rfl⟩ (.inl hj)
        · simp [hj]
    | false =>
      refine .inl ⟨by rw [htoken, hex]; rfl, occupies_modify_of_iff hs
        (sections_openInterval m here k) (iff_of_false ?_ ?_)⟩
      · exact fun h ↦ absurd (hex.symm.trans h.1) Bool.false_ne_true
      · exact fun h ↦ absurd (hex.symm.trans h.1) Bool.false_ne_true
  | @closeInterval k s since snapshots here work hs hrunning =>
    refine .inr (.inr (.inl ⟨k, token_closeInterval .., fun j ↦ ?_⟩))
    rw [occupies_modify hs (sections_closeInterval ..)]
    split_ifs with hj
    · exact iff_of_false (fun h ↦ Bool.false_ne_true h.2) (fun h ↦ h.1 hj)
    · simp [hj]
  | clear hs hidle => exact .inl ⟨rfl, occupies_modify_of_iff hs rfl Iff.rfl⟩
  | restart now hidle =>
    exact .inr (.inr (.inr ⟨rfl, not_occupies_of_idle fun s hs ↦ absurd hs List.not_mem_nil⟩))
  | absorb shares =>
    refine .inl ⟨rfl, fun j ↦ ?_⟩
    have hkept (s : Section) (ts : List Totals) :
        (s.absorb ts).exclusive = s.exclusive ∧ (s.absorb ts).isRunning = s.isRunning := by
      simp only [Section.exclusive, Section.isRunning, Section.properties_absorb,
        Section.phase_absorb, and_self]
    rw [Occupies, Occupies, sections_absorb, List.getElem?_map]
    cases m.sections[j]? with
    | none => simp
    | some s => simp [hkept]
  | sealRoot now hopen hidle =>
    refine .inl ⟨token_sealed m now, fun j ↦ ?_⟩
    rw [Occupies, Occupies, sections_sealed]
  | finalize hsealed => exact .inl ⟨rfl, fun j ↦ Iff.rfl⟩

/-! ## Every running exclusive section holds the token -/

/-- Every running exclusive section holds the token. -/
def Guarded (m : Monitor) : Prop := ∀ k, m.Occupies k → m.token = some ⟨k + 1⟩

/-- There is only one token, so there is at most one running exclusive section. -/
theorem Guarded.place_unique (h : m.Guarded) {j k : ℕ} (hj : m.Occupies j) (hk : m.Occupies k) :
    j = k := by
  have htoken := (h j hj).symm.trans (h k hk)
  simpa using htoken

/-- While the token is free nothing exclusive runs. -/
theorem Guarded.isRunning_eq_false (h : m.Guarded) (hfree : m.token = none) {s : Section}
    (hs : s ∈ m.sections) (hex : s.exclusive = true) : s.isRunning = false := by
  obtain ⟨k, hk⟩ := List.getElem?_of_mem hs
  rw [Bool.eq_false_iff]
  intro hrun
  exact absurd (hfree.symm.trans (h k ⟨s, hk, hex, hrun⟩)) (by simp)

/-- Two running exclusive sections are the same section. -/
theorem Guarded.section_unique (h : m.Guarded) {s t : Section} (hs : s ∈ m.sections)
    (ht : t ∈ m.sections) (hsex : s.exclusive = true) (htex : t.exclusive = true)
    (hsrun : s.isRunning = true) (htrun : t.isRunning = true) : s = t := by
  obtain ⟨j, hj⟩ := List.getElem?_of_mem hs
  obtain ⟨k, hk⟩ := List.getElem?_of_mem ht
  obtain rfl : j = k := h.place_unique ⟨s, hj, hsex, hsrun⟩ ⟨t, hk, htex, htrun⟩
  exact Option.some.inj (hj.symm.trans hk)

theorem Edit.guarded (e : Edit m m') (h : m.Guarded) : m'.Guarded := by
  intro j hj
  obtain ⟨ht, hocc⟩ | ⟨k, hnone, ht, hocc⟩ | ⟨k, ht, hocc⟩ | ⟨-, hocc⟩ := e.token_cases
  · rw [ht]
    exact h j ((hocc j).mp hj)
  · rcases (hocc j).mp hj with rfl | hold
    · exact ht
    · exact absurd (hnone.symm.trans (h j hold)) (by simp)
  · obtain ⟨hne, hold⟩ := (hocc j).mp hj
    have htoken := h j hold
    rwa [ht, if_neg (by rw [htoken]; simpa using hne)]
  · exact absurd hj (hocc j)

theorem Edits.guarded (e : Edits m m') (h : m.Guarded) : m'.Guarded :=
  e.keep (fun _ _ step ↦ step.guarded) h

theorem guarded_of_idle (h : ∀ s ∈ m.sections, s.isRunning = false) : m.Guarded :=
  fun k hk ↦ absurd hk (not_occupies_of_idle h k)

theorem Reachable.guarded (h : m.Reachable) : m.Guarded := by
  refine h.invariant (fun settings adapterEvents traced now ↦ ?_) (fun m thread hm _ ↦ ?_)
    fun _ _ step ↦ step.guarded
  · exact guarded_of_idle (by simp [sections_build])
  · refine guarded_of_idle fun s hs ↦ ?_
    rw [hm.inStep.replica_eq, List.mem_map] at hs
    obtain ⟨parent, -, rfl⟩ := hs
    rfl

/-! ## The token is held by a running exclusive section -/

/-- The token, if it is taken, is held by a running exclusive section. -/
def Owned (m : Monitor) : Prop := ∀ i, m.token = some i → ∃ k, i = ⟨k + 1⟩ ∧ m.Occupies k

theorem Edit.owned (e : Edit m m') (h : m.Owned) : m'.Owned := by
  intro i hi
  obtain ⟨ht, hocc⟩ | ⟨k, -, ht, hocc⟩ | ⟨k, ht, hocc⟩ | ⟨ht, -⟩ := e.token_cases
  · obtain ⟨k, rfl, hk⟩ := h i (ht.symm.trans hi)
    exact ⟨k, rfl, (hocc k).mpr hk⟩
  · exact ⟨k, (Option.some.inj (ht.symm.trans hi)).symm, (hocc k).mpr (.inl rfl)⟩
  · rw [ht] at hi
    split_ifs at hi with hstopped
    obtain ⟨j, rfl, hj⟩ := h i hi
    refine ⟨j, rfl, (hocc j).mpr ⟨?_, hj⟩⟩
    rintro rfl
    exact hstopped hi
  · rw [ht] at hi
    cases hi

theorem Edits.owned (e : Edits m m') (h : m.Owned) : m'.Owned :=
  e.keep (fun _ _ step ↦ step.owned) h

theorem owned_build (settings : Settings) (adapterEvents : Option (List String)) (traced : Bool)
    (now : Duration) : (build settings adapterEvents traced now).Owned := by
  intro i hi
  rw [build] at hi
  split at hi <;> cases hi

/-! ## When a start succeeds -/

/-- The label of the handle of a section is the label of the section. -/
theorem InStep.label?_register (h : m.InStep) {k : ℕ} {s : Section} (hs : m.sections[k]? = some s)
    (label : String) : (m.register label).label? ⟨k + 1⟩ = some s.label := by
  have hlabels := h.getElem?_labels hs
  cases hlookup : m.lookup label with
  | some i =>
    rw [register_of_known hlookup]
    exact hlabels
  | none =>
    obtain ⟨hlt, -⟩ := List.getElem?_eq_some_iff.mp hlabels
    rw [label?, Registry.label?, labels_register_of_new hlookup, List.getElem?_append_left hlt,
      hlabels]

/-- What the result of a start says, if labels, sections and token agree. -/
structure StartLaw (m : Monitor) (here : Surroundings) (label : String) : Prop where
  alreadyRunning_iff : ∀ l, (m.start here label).result = .error (.alreadyRunning l) ↔
    l = label ∧ (m.sectionOf label).isRunning = true
  exclusiveOverlap_iff : ∀ l active,
    (m.start here label).result = .error (.exclusiveOverlap l active) ↔
      l = label ∧ (m.sectionOf label).isRunning = false ∧ (m.sectionOf label).exclusive = true ∧
        ∃ s ∈ m.sections, s.exclusive = true ∧ s.isRunning = true ∧ s.label = active
  succeeds_iff : (∃ i, (m.start here label).result = .ok i) ↔
    (m.sectionOf label).isRunning = false ∧ ((m.sectionOf label).exclusive = true →
      ∀ s ∈ m.sections, s.exclusive = true → s.isRunning = false)

theorem startLaw (h : m.InStep) (hguarded : m.Guarded) (howned : m.Owned) (here : Surroundings)
    (label : String) : m.StartLaw here label := by
  obtain ⟨hrun, hresult, -⟩ | ⟨i, hidle, hex, htoken, hresult, -⟩ | ⟨hidle, hfree, hresult, -⟩ :=
    h.start_cases here label
  · refine ⟨fun l ↦ ?_, fun l active ↦ ?_, ?_⟩
    · simp [hresult, hrun, eq_comm]
    · simp [hresult, hrun]
    · simp [hresult, hrun]
  · obtain ⟨k, rfl, hk⟩ := howned i htoken
    obtain ⟨s, hs, hsex, hsrun⟩ := hk
    rw [h.label?_register hs, Option.getD_some] at hresult
    have hsmem : s ∈ m.sections := List.mem_of_getElem? hs
    refine ⟨fun l ↦ ?_, fun l active ↦ ?_, ?_⟩
    · simp [hresult, hidle]
    · rw [hresult]
      constructor
      · intro heq
        cases heq
        exact ⟨rfl, hidle, hex, s, hsmem, hsex, hsrun, rfl⟩
      · rintro ⟨rfl, -, -, t, ht, htex, htrun, rfl⟩
        rw [hguarded.section_unique hsmem ht hsex htex hsrun htrun]
    · refine iff_of_false (by simp [hresult]) ?_
      rintro ⟨-, hall⟩
      exact absurd (hsrun.symm.trans (hall hex s hsmem hsex)) (by simp)
  · -- An exclusive section that is not barred finds the token free, so nothing exclusive runs.
    have hquiet : (m.sectionOf label).exclusive = true →
        ∀ s ∈ m.sections, s.exclusive = true → s.isRunning = false := by
      intro hex s hs hsex
      rw [barrier?, hex, if_pos rfl, token_register] at hfree
      exact hguarded.isRunning_eq_false hfree hs hsex
    refine ⟨fun l ↦ ?_, fun l active ↦ ?_, ?_⟩
    · simp [hresult, hidle]
    · refine iff_of_false (by simp [hresult]) ?_
      rintro ⟨-, -, hex, s, hs, hsex, hsrun, -⟩
      exact absurd (hsrun.symm.trans (hquiet hex s hs hsex)) (by simp)
    · exact iff_of_true ⟨_, hresult⟩ ⟨hidle, hquiet⟩

/-! ## The monitor of a process -/

/-- **Exclusive sections never overlap.** After any operations of the monitor of a process at most
one exclusive section runs, the token is taken exactly when one does and by that section, and
every start is answered accordingly. -/
theorem exclusive_sections_never_overlap (settings : Settings)
    (adapterEvents : Option (List String)) (traced : Bool) (now : Duration)
    (ops : List Operation) :
    let m := (build settings adapterEvents traced now).run ops
    (∀ j k, m.Occupies j → m.Occupies k → j = k) ∧
      (∀ i, m.token = some i ↔ ∃ k, i = ⟨k + 1⟩ ∧ m.Occupies k) ∧
      (m.token = none ↔ ∀ k, ¬m.Occupies k) ∧
      ∀ here label, m.StartLaw here label := by
  intro m
  have hedits : Edits (build settings adapterEvents traced now) m :=
    run_edits (inStep_build settings adapterEvents traced now) ops
  have hin : m.InStep := hedits.inStep (inStep_build settings adapterEvents traced now)
  have hguarded : m.Guarded :=
    hedits.guarded (Reachable.build settings adapterEvents traced now).guarded
  have howned : m.Owned := hedits.owned (owned_build settings adapterEvents traced now)
  have htaken (i : Index) : m.token = some i ↔ ∃ k, i = ⟨k + 1⟩ ∧ m.Occupies k := by
    refine ⟨howned i, ?_⟩
    rintro ⟨k, rfl, hk⟩
    exact hguarded k hk
  refine ⟨fun j k hj hk ↦ hguarded.place_unique hj hk, htaken, ?_, startLaw hin hguarded howned⟩
  rw [Option.eq_none_iff_forall_ne_some]
  constructor
  · exact fun h k hk ↦ h _ (hguarded k hk)
  · rintro h i hi
    obtain ⟨k, -, hk⟩ := (htaken i).mp hi
    exact h k hk

end Monitor

end SectionMonitor
