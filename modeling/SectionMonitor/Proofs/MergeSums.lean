import Mathlib.Algebra.BigOperators.Group.List.Basic
import Mathlib.Algebra.GroupWithZero.Nat
import SectionMonitor.Proofs.Deeds
import SectionMonitor.Proofs.Handles

/-!
# What a merge adds up

A merge that is not refused adds to every label what the replicas measured under it: the longest of
their times, the most of their calls, and the sum of their volumes and of each of their counts
(`Totals.AddsUp`). Labels that are new come after the others, at their first appearance. Nothing
else is changed (`merge_adds_up`).

The measurements of the replicas can be entered in a table by label first, `tally`, and be settled
entry by entry afterwards. The order in which the entries are settled makes no difference
(`InStep.settle_eq_absorb`), so the table need not have one.
-/

namespace SectionMonitor

/-! ## Sums of readings -/

namespace Reading

variable (readings : List Reading) (r : Reading)

theorem length_foldl_accumulate : (readings.foldl accumulate r).length
    = (readings.map List.length).foldl max r.length := by
  induction readings generalizing r with
  | nil => rfl
  | cons first rest ih =>
    rw [List.foldl_cons, ih, length_accumulate, List.map_cons, List.foldl_cons]

/-- A count that stops at the limit on the way stops there at the end. -/
theorem count_foldl_accumulate (event : ℕ) : ((readings.foldl accumulate r).count event).toNat
    = min ((r.count event).toNat + (readings.map fun a ↦ (a.count event).toNat).sum)
        Count.limit := by
  induction readings generalizing r with
  | nil =>
    have hle : (r.count event).toNat ≤ Count.limit :=
      Nat.le_sub_one_of_lt (r.count event).toNat_lt
    simp [hle]
  | cons first rest ih =>
    rw [List.foldl_cons, ih, count_accumulate, Count.toNat_saturatingAdd, List.map_cons,
      List.sum_cons]
    omega

/-- A reading to which others are added event by event. A sum stops at the largest count, and a
count that is missing is zero. -/
structure GrowsBy (old : Reading) (deltas : List Reading) (new : Reading) : Prop where
  length_eq : new.length = (deltas.map List.length).foldl max old.length
  count_eq : ∀ event, (new.count event).toNat
    = min ((old.count event).toNat + (deltas.map fun d ↦ (d.count event).toNat).sum) Count.limit

theorem foldl_max_eq (n : ℕ) (lengths : List ℕ) :
    lengths.foldl max n = max n (lengths.foldl max 0) := by
  have hassoc : lengths.foldl max (max n 0) = max n (lengths.foldl max 0) := List.foldl_assoc
  rwa [Nat.max_zero] at hassoc

/-- A sum of readings is added as its parts are. -/
theorem growsBy_total (old : Reading) (deltas : List Reading) :
    GrowsBy old deltas (old.accumulate (.total deltas)) where
  length_eq := by
    rw [length_accumulate, total, length_foldl_accumulate, foldl_max_eq old.length]
    rfl
  count_eq event := by
    have hzero : (count [] event).toNat = 0 := rfl
    rw [count_accumulate, Count.toNat_saturatingAdd, total,
      count_foldl_accumulate, hzero]
    omega

end Reading

/-! ## Shares of one label -/

namespace Totals

/-- The new totals are the old ones and the shares: the longest time, the most calls, and the sum
of the volumes and of the counts of every event. Sums stop at the largest time or count, and a count
that a share does not have is zero. -/
structure AddsUp (old : Totals) (shares : List Totals) (new : Totals) : Prop where
  elapsed : new.elapsed.nanos
    = min (old.elapsed.nanos + (shares.map fun t ↦ t.elapsed.nanos).foldl max 0) Duration.limit
  calls : new.calls.toNat
    = min (old.calls.toNat + (shares.map fun t ↦ t.calls.toNat).foldl max 0) Count.limit
  counters : ∀ event, (new.counters.count event).toNat
    = min ((old.counters.count event).toNat
        + (shares.map fun t ↦ (t.counters.count event).toNat).sum) Count.limit
  events : new.counters.length
    = (shares.map fun t ↦ t.counters.length).foldl max old.counters.length
  volume : new.volume = old.volume + (shares.map Totals.volume).foldl (· + ·) 0

section Region

variable (shares : List Totals) (t : Totals)

theorem elapsed_foldl_besides : (shares.foldl besides t).elapsed.nanos
    = (shares.map fun t ↦ t.elapsed.nanos).foldl max t.elapsed.nanos := by
  induction shares generalizing t with
  | nil => rfl
  | cons share rest ih => exact ih _

theorem calls_besides (share : Totals) :
    (t.besides share).calls.toNat = max t.calls.toNat share.calls.toNat := by
  rw [besides]
  split_ifs with hlt
  · exact (Nat.max_eq_right (Nat.le_of_lt (UInt64.lt_iff_toNat_lt.mp hlt))).symm
  · exact (Nat.max_eq_left (Nat.not_lt.mp fun h ↦ hlt (UInt64.lt_iff_toNat_lt.mpr h))).symm

theorem calls_foldl_besides : (shares.foldl besides t).calls.toNat
    = (shares.map fun t ↦ t.calls.toNat).foldl max t.calls.toNat := by
  induction shares generalizing t with
  | nil => rfl
  | cons share rest ih => rw [List.foldl_cons, ih, calls_besides, List.map_cons, List.foldl_cons]

theorem volume_foldl_besides : (shares.foldl besides t).volume
    = (shares.map Totals.volume).foldl (· + ·) t.volume := by
  induction shares generalizing t with
  | nil => rfl
  | cons share rest ih => exact ih _

theorem counters_foldl_besides : (shares.foldl besides t).counters
    = (shares.map Totals.counters).foldl Reading.accumulate t.counters := by
  induction shares generalizing t with
  | nil => rfl
  | cons share rest ih => exact ih _

end Region

/-- **What a region adds** to totals. -/
theorem addsUp_absorb (old : Totals) (shares : List Totals) :
    old.AddsUp shares (old.absorb (shares.foldl besides {})) where
  elapsed := by
    rw [absorb, Duration.nanos_saturatingAdd, elapsed_foldl_besides]
    rfl
  calls := by
    rw [absorb, Count.toNat_saturatingAdd, calls_foldl_besides]
    rfl
  counters event := by
    rw [absorb, counters_foldl_besides]
    simpa [Reading.total, Function.comp_def] using
      (Reading.growsBy_total old.counters (shares.map Totals.counters)).count_eq event
  events := by
    rw [absorb, counters_foldl_besides]
    simpa [Reading.total, Function.comp_def] using
      (Reading.growsBy_total old.counters (shares.map Totals.counters)).length_eq
  volume := by
    rw [absorb, volume_foldl_besides]

end Totals

/-- A binding is accepted if it changes nothing or comes before the first use. -/
theorem Section.exists_bind?_iff {s : Section} {p : Properties} :
    (∃ bound, s.bind? p = some bound) ↔
      s.properties = p ∨ (s.binding = .implicit ∧ s.totals.calls = 0 ∧ s.phase = .idle) := by
  have hidle : s.isRunning = false ↔ s.phase = .idle := Monitor.isRunning_eq_false_iff
  rw [bind?]
  split_ifs with hopen <;>
    simpa [isOpenToBinding, hidle, and_assoc] using hopen

/-- What the declaration of a share of the same label makes of a section. -/
def Section.declaredBy (s share : Section) : Section :=
  if share.binding = .explicit then (s.bind? share.properties).getD s else s

/-- Nothing but properties and binding are declared. -/
theorem Section.declaredBy_eq (s share : Section) :
    s.declaredBy share
      = { s with
          properties := (s.declaredBy share).properties
          binding := (s.declaredBy share).binding } := by
  rw [declaredBy]
  split_ifs with hexplicit
  · cases hbound : s.bind? share.properties with
    | none => rfl
    | some bound => rw [Option.getD_some, Monitor.eq_of_bind? hbound]
  · rfl

/-- Adds what a region took and did to a section. -/
def Section.credit (s : Section) (region : Totals) : Section :=
  { s with totals := s.totals.absorb region }

namespace Monitor

variable {m : Monitor} {replicas : List Monitor} {shares : List Section} {label : String}

/-! ## Declared sections -/

/-- What a binding by name makes of what is known of its label; if it is refused, nothing. -/
theorem InStep.sectionOf_setProperties (h : m.InStep) (label : String) (requested : Properties)
    (other : String) :
    (m.setProperties label requested).monitor.sectionOf other
      = if other = label then ((m.sectionOf label).bind? requested).getD (m.sectionOf label)
        else m.sectionOf other := by
  obtain ⟨⟨v, hv⟩, hm⟩ | ⟨k, bound, hs, hbound, -, hm⟩ := h.setProperties_cases label requested
  · have hrefused : (m.sectionOf label).bind? requested = none := by
      rw [h.result_setProperties] at hv
      cases hbind : (m.sectionOf label).bind? requested with
      | none => rfl
      | some bound => simp [hbind] at hv
    rw [hm, sectionOf_register h, hrefused, Option.getD_none]
    split_ifs with heq
    · rw [heq]
    · rfl
  · rw [hm, (h.register label).sectionOf_modify (sections_modifySection ..) rfl ⟨rfl, rfl, rfl⟩ hs
      (label_of_bind? hbound), label_sectionOf, hbound, Option.getD_some, sectionOf_register h]

theorem InStep.sectionOf_declaration (h : m.InStep) (share : Section) (label : String) :
    (m.perform share.declaration).monitor.sectionOf label
      = if share.label = label then (m.sectionOf label).declaredBy share
        else m.sectionOf label := by
  by_cases hexplicit : share.binding = .explicit
  · rw [perform_declaration_of_explicit hexplicit, h.sectionOf_setProperties, Section.declaredBy,
      if_pos hexplicit]
    split_ifs with hlabel hlabel' hlabel'
    · rw [hlabel]
    · exact absurd hlabel.symm hlabel'
    · exact absurd hlabel'.symm hlabel
    · rfl
  · rw [perform_declaration_of_implicit hexplicit, sectionOf_register h, Section.declaredBy,
      if_neg hexplicit, ite_self]

/-- **What declarations make of a label.** Those of other labels do not matter. -/
theorem InStep.sectionOf_declareAll (h : m.InStep) (shares : List Section) (label : String) :
    (m.declareAll shares).sectionOf label
      = (shares.filter fun s ↦ s.label = label).foldl Section.declaredBy (m.sectionOf label) := by
  induction shares generalizing m with
  | nil => rfl
  | cons share rest ih =>
    have hrest := ih (h.perform share.declaration)
    rw [h.sectionOf_declaration] at hrest
    refine hrest.trans ?_
    by_cases hlabel : share.label = label
    · rw [if_pos hlabel, List.filter_cons_of_pos (by simpa using hlabel), List.foldl_cons]
    · rw [if_neg hlabel, List.filter_cons_of_neg (by simpa using hlabel)]

/-- Declarations leave alone what is measured. -/
theorem InStep.sectionOf_declareAll_eq (h : m.InStep) (shares : List Section) (label : String) :
    (m.declareAll shares).sectionOf label
      = { m.sectionOf label with
          properties := ((m.declareAll shares).sectionOf label).properties
          binding := ((m.declareAll shares).sectionOf label).binding } := by
  rw [h.sectionOf_declareAll]
  generalize m.sectionOf label = s
  generalize (shares.filter fun s ↦ s.label = label) = declared
  induction declared generalizing s with
  | nil => rfl
  | cons share rest ih =>
    rw [List.foldl_cons, ih, s.declaredBy_eq share]

/-! ## Measurements by label -/

theorem newSource_absorb (m : Monitor) (shares : List Section) :
    (m.absorb shares).newSource = m.newSource := rfl

theorem InStep.absorb (h : m.InStep) (shares : List Section) : (m.absorb shares).InStep :=
  Edit.inStep (.absorb shares) h

theorem filter_label_of_notMem (h : label ∉ shares.map Section.label) :
    (shares.filter fun s ↦ s.label = label) = [] := by
  rw [List.filter_eq_nil_iff]
  intro share hshare hlabel
  exact h (List.mem_map.mpr ⟨share, hshare, of_decide_eq_true hlabel⟩)

theorem sharesOf_of_notMem (h : label ∉ shares.map Section.label) : sharesOf shares label = [] := by
  rw [sharesOf, filter_label_of_notMem h, List.map_nil]

/-- A share is added to what is known of its label, if that is registered. -/
theorem InStep.sectionOf_absorb (h : m.InStep)
    (hknown : ∀ share ∈ shares, share.label ∈ m.registry.labels) (label : String) :
    (m.absorb shares).sectionOf label = (m.sectionOf label).absorb (sharesOf shares label) := by
  have hin := h.absorb shares
  cases hlookup : m.lookup label with
  | none =>
    have hnone : sharesOf shares label = [] := by
      refine sharesOf_of_notMem fun hmem ↦ ?_
      obtain ⟨share, hshare, rfl⟩ := List.mem_map.mp hmem
      exact h.indexed.lookup_eq_none_iff.mp hlookup (hknown share hshare)
    rw [hin.sectionOf_of_new hlookup, h.sectionOf_of_new hlookup, hnone, newSource_absorb]
    rfl
  | some i =>
    obtain ⟨k, s, rfl, hs, rfl⟩ := h.exists_section_of_lookup hlookup
    have hs' : (m.absorb shares).sections[k]? = some (s.absorb (sharesOf shares s.label)) := by
      rw [sections_absorb, List.getElem?_map, hs, Option.map_some]
    have hsection := hin.sectionOf_section hs'
    rw [Section.label_absorb] at hsection
    rw [hsection, h.sectionOf_section hs]

/-- A monitor has one section of each of its labels. -/
theorem InStep.filter_sections (h : m.InStep) (label : String) :
    (m.sections.filter fun s ↦ s.label = label)
      = if label ∈ m.registry.labels then [m.sectionOf label] else [] := by
  have hnodup : (m.sections.map Section.label).Nodup := h.labels_eq ▸ h.nodup
  split_ifs with hmem
  · rw [h.labels_eq, List.mem_map] at hmem
    obtain ⟨s, hs, rfl⟩ := hmem
    obtain ⟨k, hk⟩ := List.getElem?_of_mem hs
    rw [h.sectionOf_section hk]
    obtain ⟨before, after, hsplit⟩ := List.append_of_mem hs
    rw [hsplit, List.map_append, List.map_cons, List.nodup_middle, List.nodup_cons,
      List.mem_append, not_or] at hnodup
    rw [hsplit, List.filter_append, List.filter_cons_of_pos (by simp),
      filter_label_of_notMem hnodup.1.1, filter_label_of_notMem hnodup.1.2, List.nil_append]
  · rw [h.labels_eq] at hmem
    exact filter_label_of_notMem hmem

/-- **Each replica counts once for each of its labels.** -/
theorem sharesOf_replicas (hreplicas : ∀ r ∈ replicas, r.InStep) (label : String) :
    sharesOf (replicas.flatMap sections) label
      = (replicas.filter fun r ↦ label ∈ r.registry.labels).map
          fun r ↦ (r.sectionOf label).totals := by
  induction replicas with
  | nil => rfl
  | cons r rest ih =>
    have hrest := ih fun r' hr' ↦ hreplicas r' (List.mem_cons_of_mem r hr')
    rw [sharesOf] at hrest
    rw [sharesOf, List.flatMap_cons, List.filter_append, List.map_append, hrest,
      (hreplicas r List.mem_cons_self).filter_sections]
    by_cases hmem : label ∈ r.registry.labels
    · rw [if_pos hmem, List.filter_cons_of_pos (by simpa using hmem)]
      rfl
    · rw [if_neg hmem, List.filter_cons_of_neg (by simpa using hmem)]
      rfl

/-! ## A table by label -/

/-- Enters a share under its label, beside what the table has there. -/
def enterShare (table : List (String × Totals)) (share : Section) : List (String × Totals) :=
  if share.label ∈ table.map Prod.fst then
    table.map fun e ↦ if e.1 = share.label then (e.1, e.2.besides share.totals) else e
  else table ++ [(share.label, ({} : Totals).besides share.totals)]

/-- The table of all shares. -/
def tally (shares : List Section) : List (String × Totals) := shares.foldl enterShare []

/-- Adds the entries of a table to the sections of their labels, one after the other. -/
def settle (m : Monitor) (entries : List (String × Totals)) : Monitor :=
  entries.foldl
    (fun m e ↦ m.modifySection (m.indexOf e.1) fun s ↦ s.credit e.2) m

/-- The entries have every label of the shares once, with the region that its shares make up. -/
structure Tallies (shares : List Section) (entries : List (String × Totals)) : Prop where
  nodup : (entries.map Prod.fst).Nodup
  mem_iff : ∀ label, label ∈ entries.map Prod.fst ↔ label ∈ shares.map Section.label
  region_eq : ∀ e ∈ entries, e.2 = (sharesOf shares e.1).foldl Totals.besides {}

/-- It does not matter how the entries are arranged. -/
theorem Tallies.perm {entries entries' : List (String × Totals)} (h : Tallies shares entries)
    (hperm : entries'.Perm entries) : Tallies shares entries' where
  nodup := (hperm.map Prod.fst).nodup_iff.mpr h.nodup
  mem_iff label := (hperm.map Prod.fst).mem_iff.trans (h.mem_iff label)
  region_eq e he := h.region_eq e (hperm.mem_iff.mp he)

theorem sharesOf_concat (shares : List Section) (share : Section) (label : String) :
    sharesOf (shares ++ [share]) label
      = sharesOf shares label ++ if share.label = label then [share.totals] else [] := by
  rw [sharesOf, sharesOf, List.filter_append, List.map_append]
  by_cases hlabel : share.label = label
  · rw [if_pos hlabel, List.filter_cons_of_pos (by simpa using hlabel)]
    rfl
  · rw [if_neg hlabel, List.filter_cons_of_neg (by simpa using hlabel)]
    rfl

/-- **One more share.** -/
theorem Tallies.enterShare {table : List (String × Totals)} (h : Tallies shares table)
    (share : Section) : Tallies (shares ++ [share]) (enterShare table share) := by
  rw [Monitor.enterShare]
  split_ifs with hmem
  · have hkeys : (table.map fun e ↦ if e.1 = share.label then (e.1, e.2.besides share.totals)
        else e).map Prod.fst = table.map Prod.fst := by
      rw [List.map_map]
      refine List.map_congr_left fun e _ ↦ ?_
      rw [Function.comp_apply]
      split <;> rfl
    refine ⟨by rw [hkeys]; exact h.nodup, fun label ↦ ?_, fun e he ↦ ?_⟩
    · rw [hkeys, h.mem_iff, List.map_append, List.mem_append, List.map_singleton,
        List.mem_singleton]
      refine ⟨.inl, ?_⟩
      rintro (hlabel | rfl)
      · exact hlabel
      · exact (h.mem_iff _).mp hmem
    · obtain ⟨entry, hentry, rfl⟩ := List.mem_map.mp he
      have hregion := h.region_eq entry hentry
      split_ifs with hlabel
      · rw [sharesOf_concat, if_pos hlabel.symm, List.foldl_append, ← hregion]
        rfl
      · rw [sharesOf_concat, if_neg (Ne.symm hlabel), List.append_nil, ← hregion]
  · have hnew : share.label ∉ shares.map Section.label := fun h' ↦ hmem ((h.mem_iff _).mpr h')
    refine ⟨?_, fun label ↦ ?_, fun e he ↦ ?_⟩
    · rw [List.map_append]
      exact h.nodup.append (List.nodup_singleton _) (by simpa using hmem)
    · rw [List.map_append, List.map_append, List.mem_append, List.mem_append, h.mem_iff]
      rfl
    · rcases List.mem_append.mp he with hold | hlast
      · have hne : share.label ≠ e.1 := by
          rintro heq
          exact hmem (heq ▸ List.mem_map_of_mem hold)
        rw [sharesOf_concat, if_neg hne, List.append_nil, ← h.region_eq e hold]
      · rw [List.mem_singleton.mp hlast, sharesOf_concat, if_pos rfl]
        rw [sharesOf_of_notMem hnew]
        rfl

theorem tallies_tally (shares : List Section) : Tallies shares (tally shares) := by
  induction shares using List.reverseRecOn with
  | nil => exact ⟨List.nodup_nil, fun _ ↦ Iff.rfl, fun e he ↦ absurd he List.not_mem_nil⟩
  | append_singleton shares share ih =>
    rw [tally, List.foldl_append]
    exact ih.enterShare share

/-! ## Settling a table -/

/-- What a section gets from the entries of a table. -/
def creditAll (entries : List (String × Totals)) (s : Section) : Section :=
  entries.foldl (fun s e ↦ if e.1 = s.label then s.credit e.2 else s) s

theorem creditAll_of_notMem {entries : List (String × Totals)} {s : Section}
    (h : s.label ∉ entries.map Prod.fst) : creditAll entries s = s := by
  induction entries with
  | nil => rfl
  | cons e rest ih =>
    rw [List.map_cons, List.mem_cons, not_or] at h
    rw [creditAll, List.foldl_cons, if_neg (Ne.symm h.1)]
    exact ih h.2

/-- If its label has one entry, a section gets this one. -/
theorem creditAll_of_mem {entries : List (String × Totals)} {s : Section}
    (hnodup : (entries.map Prod.fst).Nodup) {e : String × Totals} (he : e ∈ entries)
    (hlabel : e.1 = s.label) : creditAll entries s = s.credit e.2 := by
  obtain ⟨before, after, rfl⟩ := List.append_of_mem he
  rw [List.map_append, List.map_cons, List.nodup_middle, List.nodup_cons, List.mem_append,
    not_or, hlabel] at hnodup
  have hbefore : creditAll before s = s := creditAll_of_notMem hnodup.1.1
  have hafter : creditAll after (s.credit e.2) = s.credit e.2 := creditAll_of_notMem hnodup.1.2
  rw [creditAll] at hbefore hafter
  rw [creditAll, List.foldl_append, hbefore, List.foldl_cons, if_pos hlabel, hafter]

/-- **An entry.** It reaches the section of its label and no other one. -/
theorem InStep.credit_eq (h : m.InStep) {label : String} (hmem : label ∈ m.registry.labels)
    (region : Totals) :
    m.modifySection (m.indexOf label) (fun s ↦ s.credit region)
      = { m with sections := m.sections.map fun s ↦
            if label = s.label then s.credit region else s } := by
  rw [h.labels_eq, List.mem_map] at hmem
  obtain ⟨s, hs, rfl⟩ := hmem
  obtain ⟨k, hk⟩ := List.getElem?_of_mem hs
  rw [indexOf_of_known (h.lookup_of_section hk), modifySection]
  congr 1
  refine List.ext_getElem? fun j ↦ ?_
  rw [List.getElem?_modify, List.getElem?_map]
  cases hj : m.sections[j]? with
  | none => rfl
  | some t =>
    have hiff : k = j ↔ s.label = t.label := by
      refine ⟨?_, h.place_unique hk hj⟩
      rintro rfl
      rw [Option.some.inj (hk.symm.trans hj)]
    simp only [Option.map_eq_map, Option.map_some, hiff]

theorem InStep.settle_eq (h : m.InStep) {entries : List (String × Totals)}
    (hknown : ∀ e ∈ entries, e.1 ∈ m.registry.labels) :
    m.settle entries = { m with sections := m.sections.map (creditAll entries) } := by
  induction entries generalizing m with
  | nil =>
    have hid : m.sections.map (creditAll []) = m.sections := List.map_id _
    rw [hid]
    rfl
  | cons e rest ih =>
    have hfirst := h.credit_eq (hknown e List.mem_cons_self) e.2
    have hin : ({ m with sections := m.sections.map fun s ↦
        if e.1 = s.label then s.credit e.2 else s } : Monitor).InStep := by
      refine ⟨h.indexed, ?_, h.nodup⟩
      rw [List.map_map]
      refine h.labels_eq.trans (List.map_congr_left fun s _ ↦ ?_)
      rw [Function.comp_apply]
      split <;> rfl
    have hrest := ih hin fun e' he' ↦ hknown e' (List.mem_cons_of_mem e he')
    rw [settle] at hrest
    rw [settle, List.foldl_cons, hfirst, hrest, List.map_map]
    rfl

/-- **The order does not matter.** However a table of the shares is arranged, settling it adds to
every section what was measured under its label. -/
theorem InStep.settle_eq_absorb (h : m.InStep)
    (hknown : ∀ share ∈ shares, share.label ∈ m.registry.labels)
    {entries : List (String × Totals)} (hentries : entries.Perm (tally shares)) :
    m.settle entries = m.absorb shares := by
  have htallies := (tallies_tally shares).perm hentries
  rw [h.settle_eq, Monitor.absorb]
  · congr 1
    refine List.map_congr_left fun s _ ↦ ?_
    rw [Section.absorb]
    by_cases hmem : s.label ∈ entries.map Prod.fst
    · obtain ⟨e, he, hlabel⟩ := List.mem_map.mp hmem
      obtain ⟨share, hshare, hsame⟩ := List.mem_map.mp ((htallies.mem_iff _).mp hmem)
      have hsome : (sharesOf shares s.label).isEmpty = false := by
        rw [List.isEmpty_eq_false_iff_exists_mem]
        exact ⟨share.totals, List.mem_map_of_mem
          (List.mem_filter.mpr ⟨hshare, by simpa using hsame⟩)⟩
      rw [creditAll_of_mem htallies.nodup he hlabel, htallies.region_eq e he, hlabel, hsome]
      rfl
    · rw [creditAll_of_notMem hmem, sharesOf_of_notMem fun h' ↦ hmem ((htallies.mem_iff _).mpr h')]
      rfl
  · intro e he
    obtain ⟨share, hshare, hlabel⟩ :=
      List.mem_map.mp ((htallies.mem_iff _).mp (List.mem_map_of_mem he))
    exact hlabel ▸ hknown share hshare

/-! ## All of it -/

theorem InStep.mem_labels_declareAll (h : m.InStep) :
    ∀ share ∈ shares, share.label ∈ (m.declareAll shares).registry.labels := by
  intro share hshare
  rw [h.extends_declareAll shares, mem_unionLabels, List.mem_append]
  exact .inr (List.mem_map_of_mem hshare)

/-- **A merged section** is what declarations made of it, with what was measured under its label. -/
theorem InStep.sectionOf_merge (h : m.InStep) (hok : (m.merge replicas).result = .ok ())
    (label : String) :
    (m.merge replicas).monitor.sectionOf label
      = ((m.declareAll (replicas.flatMap sections)).sectionOf label).absorb
          (sharesOf (replicas.flatMap sections) label) := by
  rw [(h.monitor_merge hok).2]
  exact (h.declareAll _).sectionOf_absorb h.mem_labels_declareAll label

theorem labels_flatMap_sections (hreplicas : ∀ r ∈ replicas, r.InStep) :
    (replicas.flatMap sections).map Section.label = replicas.flatMap fun r ↦ r.registry.labels := by
  rw [List.map_flatMap]
  exact List.flatMap_congr fun r hr ↦ (hreplicas r hr).labels_eq.symm

theorem InStep.labels_merge (h : m.InStep) (hreplicas : ∀ r ∈ replicas, r.InStep)
    (hok : (m.merge replicas).result = .ok ()) :
    (m.merge replicas).monitor.registry.labels
      = m.registry.labels ++ ((replicas.flatMap fun r ↦ r.registry.labels).filter fun label ↦
          label ∉ m.registry.labels).eraseDups := by
  rw [(h.monitor_merge hok).2, registry_absorb, h.extends_declareAll,
    labels_flatMap_sections hreplicas, unionLabels_append, unionLabels_of_nodup h.nodup]

/-- **What a merge adds up.** If a merge is not refused, every label that some replica knows has
gained what these replicas measured under it; a label that was new had nothing before. What no
replica knows is as it was, and no section has been started or stopped. The labels are the earlier
ones and then the new ones, each at its first appearance. The table in which the measurements are
entered by label can be settled in any order. -/
theorem merge_adds_up (hm : m.Reachable) (hreplicas : ∀ r ∈ replicas, r.Reachable)
    (hok : (m.merge replicas).result = .ok ()) :
    let merged := (m.merge replicas).monitor
    let labels := replicas.flatMap fun r ↦ r.registry.labels
    (∀ label ∈ labels,
      (m.sectionOf label).totals.AddsUp
        ((replicas.filter fun r ↦ label ∈ r.registry.labels).map fun r ↦
          (r.sectionOf label).totals)
        (merged.sectionOf label).totals) ∧
    (∀ label ∉ m.registry.labels, (m.sectionOf label).totals = {}) ∧
    (∀ label ∉ labels, merged.sectionOf label = m.sectionOf label) ∧
    (∀ label, (merged.sectionOf label).phase = (m.sectionOf label).phase) ∧
    merged.registry.labels
      = m.registry.labels ++ (labels.filter fun label ↦ label ∉ m.registry.labels).eraseDups ∧
    merged.rootSection = m.rootSection ∧ merged.token = m.token ∧
    merged.gathered = m.gathered ∧
    ∀ entries, entries.Perm (tally (replicas.flatMap sections)) →
      merged = (m.reconcile (replicas.flatMap sections)).monitor.settle entries := by
  intro merged labels
  have h := hm.inStep
  have hin (r : Monitor) (hr : r ∈ replicas) : r.InStep := (hreplicas r hr).inStep
  obtain ⟨hkeeps, hmerged⟩ := h.monitor_merge hok
  have hdeclared := h.sectionOf_declareAll_eq (replicas.flatMap sections)
  have hknows (label : String) : label ∈ labels ↔ ∃ r ∈ replicas, label ∈ r.registry.labels :=
    List.mem_flatMap
  refine ⟨fun label hlabel ↦ ?_, fun label hnew ↦ ?_, fun label hlabel ↦ ?_, fun label ↦ ?_,
    h.labels_merge hin hok, ?_, ?_, ?_, fun entries hentries ↦ ?_⟩
  · -- Some replica knows the label, so there is a share.
    obtain ⟨r, hr, hmem⟩ := (hknows label).mp hlabel
    have hsome : (replicas.filter fun r ↦ label ∈ r.registry.labels) ≠ [] :=
      List.ne_nil_of_mem (List.mem_filter.mpr ⟨hr, by simpa using hmem⟩)
    rw [h.sectionOf_merge hok, sharesOf_replicas hin, Section.absorb, if_neg (by simpa using hsome),
      hdeclared]
    exact Totals.addsUp_absorb _ _
  · rw [h.sectionOf_of_new (h.indexed.lookup_eq_none_iff.mpr hnew)]
  · have hnone : label ∉ (replicas.flatMap sections).map Section.label := by
      rwa [labels_flatMap_sections hin]
    rw [h.sectionOf_merge hok, sharesOf_of_notMem hnone, h.sectionOf_declareAll,
      filter_label_of_notMem hnone]
    rfl
  · rw [h.sectionOf_merge hok, Section.absorb]
    split_ifs <;> rw [hdeclared]
  · exact (congrArg Monitor.rootSection hmerged).trans hkeeps.rootSection_eq
  · exact (congrArg Monitor.token hmerged).trans hkeeps.token_eq
  · exact (congrArg Monitor.gathered hmerged).trans hkeeps.gathered_eq
  · obtain ⟨-, hall, -⟩ | ⟨_, _, _, -, -, -, herror, -⟩ :=
      h.reconcile_cases (replicas.flatMap sections)
    · rw [hall, (h.declareAll _).settle_eq_absorb h.mem_labels_declareAll hentries]
      exact hmerged
    · exact absurd ((result_reconcile_of_merge hok).symm.trans herror) (by simp)

/-- One interval of a label. -/
def timed (label : String) (finish : ℕ) : List Operation :=
  [.call (.start (.plain .zero) label), .call (.stop (.plain ⟨finish⟩) label {})]

/-- A process that has been through its rows once. -/
def surveyed : Monitor := (build {} none false .zero).run (timed "rows" 5)

/-- Two threads that go through the rows again, one of which goes through the columns first. -/
def surveyors : List Monitor :=
  [(surveyed.replica 0).run (timed "columns" 3 ++ timed "rows" 10),
    (surveyed.replica 1).run (timed "rows" 30)]

/-- The rows gain the longer time and one call, and the columns come after them; the entries of the
table may as well be settled the other way round. -/
theorem surveyors_add_up :
    let merged := (surveyed.merge surveyors).monitor
    surveyed.Reachable ∧ (∀ r ∈ surveyors, r.Reachable) ∧
      (surveyed.merge surveyors).result = .ok () ∧
      (merged.sectionOf "rows").totals.elapsed.nanos = min (5 + 30) Duration.limit ∧
      (merged.sectionOf "rows").totals.calls.toNat = min (1 + 1) Count.limit ∧
      (merged.sectionOf "columns").totals.elapsed.nanos = min (0 + 3) Duration.limit ∧
      merged.registry.labels = ["rows", "columns"] ∧
      merged = (surveyed.reconcile (surveyors.flatMap sections)).monitor.settle
        (tally (surveyors.flatMap sections)).reverse := by
  have hm : surveyed.Reachable := .run (.build {} none false .zero) _
  have hreplicas : ∀ r ∈ surveyors, r.Reachable := by
    simp only [surveyors, List.mem_cons, List.not_mem_nil, or_false]
    rintro r (rfl | rfl) <;> exact .run (.replica _ hm) _
  have hok : (surveyed.merge surveyors).result = .ok () := by decide +kernel
  obtain ⟨hadds, -, -, -, hlabels, -, -, -, hsettle⟩ := merge_adds_up hm hreplicas hok
  have hrows := hadds "rows" (by decide +kernel)
  have hcolumns := hadds "columns" (by decide +kernel)
  refine ⟨hm, hreplicas, hok, hrows.elapsed.trans (by decide +kernel),
    hrows.calls.trans (by decide +kernel), hcolumns.elapsed.trans (by decide +kernel),
    hlabels.trans (by decide +kernel), hsettle _ (List.reverse_perm _)⟩

end Monitor

end SectionMonitor
