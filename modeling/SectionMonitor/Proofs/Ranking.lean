import Mathlib.Data.List.Nodup
import SectionMonitor.Proofs.FloatOrder
import SectionMonitor.Summary.Basic

/-!
# The ranking of a summary

The ranking lists positions: those of the exclusive sections that have a label, each of them once,
the slowest section first and those without statistics last. Where two sections do not differ in
this respect, the one that was registered earlier comes first.

Any list that meets these conditions is the ranking (`isRanking_iff`). A mean time, or its absence,
has a place among all others, and different mean times have different places: `precedes` is total,
transitive and antisymmetric. Hence any two positions are in a definite order: by their mean times,
or else by themselves. A list of given positions that is sorted in this way is unique.
-/

namespace SectionMonitor

open Binary64 (TotallyLE orderKey_le_iff orderKey_injective)

/-! ## Two members of a list -/

/-- `p` stands in the list somewhere before `q`. -/
def StandsBefore {α : Type} (list : List α) (p q : α) : Prop := [p, q].Sublist list

section
variable {α : Type} {list : List α} {p q : α}

theorem standsBefore_or (hp : p ∈ list) (hq : q ∈ list) (hne : p ≠ q) :
    StandsBefore list p q ∨ StandsBefore list q p := by
  induction list with
  | nil => cases hp
  | cons a rest ih =>
    rw [List.mem_cons] at hp hq
    rcases hp with rfl | hp
    · have hrest := hq.resolve_left hne.symm
      exact .inl ((List.singleton_sublist.mpr hrest).cons_cons _)
    · rcases hq with rfl | hq
      · exact .inr ((List.singleton_sublist.mpr hp).cons_cons _)
      · exact (ih hp hq).imp (·.cons _) (·.cons _)

theorem StandsBefore.mem_left (h : StandsBefore list p q) : p ∈ list := h.subset List.mem_cons_self

theorem StandsBefore.mem_right (h : StandsBefore list p q) : q ∈ list :=
  h.subset (List.mem_cons_of_mem _ List.mem_cons_self)

/-- In a list without repetitions the order of two members is definite. -/
theorem StandsBefore.asymm (h : StandsBefore list p q) (hnodup : list.Nodup) :
    ¬StandsBefore list q p := by
  induction list with
  | nil => exact fun h' ↦ nomatch h'
  | cons a rest ih =>
    obtain ⟨ha, hnodup⟩ := List.nodup_cons.mp hnodup
    intro h'
    cases h with
    | cons _ h =>
      cases h' with
      | cons _ h' => exact ih h hnodup h'
      | cons_cons _ _ => exact ha (StandsBefore.mem_right h)
    | cons_cons _ h =>
      cases h' with
      | cons _ h' => exact ha (StandsBefore.mem_right h')
      | cons_cons _ _ => exact ha (h.subset List.mem_cons_self)

end

/-! ## The order of mean times -/

namespace Ranking

variable {a b c : Option Float}

theorem precedes_some_iff (x y : Float) : precedes (some x) (some y) = true ↔ TotallyLE y x := by
  rw [precedes, decide_eq_true_iff, orderKey_le_iff]

theorem precedes_total (a b : Option Float) : (precedes a b || precedes b a) = true := by
  cases a with
  | none => cases b <;> rfl
  | some x =>
    cases b with
    | none => rfl
    | some y =>
      rw [Bool.or_eq_true, precedes, precedes, decide_eq_true_iff, decide_eq_true_iff]
      exact le_total _ _

theorem precedes_trans (hab : precedes a b = true) (hbc : precedes b c = true) :
    precedes a c = true := by
  cases a with
  | none =>
    cases b with
    | none => exact hbc
    | some y => cases hab
  | some x =>
    cases c with
    | none => rfl
    | some z =>
      cases b with
      | none => cases hbc
      | some y =>
        rw [precedes, decide_eq_true_iff] at hab hbc ⊢
        exact hbc.trans hab

/-- Different mean times have different places. -/
theorem eq_of_precedes (hab : precedes a b = true) (hba : precedes b a = true) : a = b := by
  cases a with
  | none =>
    cases b with
    | none => rfl
    | some y => cases hab
  | some x =>
    cases b with
    | none => cases hba
    | some y =>
      rw [precedes, decide_eq_true_iff] at hab hba
      rw [orderKey_injective (le_antisymm hba hab)]

theorem admits_iff (s : SectionSummary) : admits s = true ↔ s.exclusive = true ∧ s.label ≠ "" := by
  rw [admits, Bool.and_eq_true, Bool.not_eq_true', ← Bool.not_eq_true, String.isEmpty_iff]

end Ranking

/-! ## Positions -/

/-- The positions of the sections of a kind, in order. -/
def positions (sections : List SectionSummary) (keep : SectionSummary → Bool) : List ℕ :=
  ((sections.zipIdx).filter fun x ↦ keep x.1).map Prod.snd

section
variable {sections : List SectionSummary} {keep : SectionSummary → Bool}

theorem mem_positions {p : ℕ} :
    p ∈ positions sections keep ↔ ∃ s, sections[p]? = some s ∧ keep s = true := by
  simp only [positions, List.mem_map, List.mem_filter, List.mem_zipIdx_iff_getElem?, Prod.exists,
    exists_eq_right]

theorem positions_sorted (sections : List SectionSummary) (keep : SectionSummary → Bool) :
    (positions sections keep).Pairwise (· < ·) := by
  refine List.Pairwise.sublist (List.filter_sublist.map Prod.snd) ?_
  rw [List.zipIdx_map_snd]
  exact List.pairwise_lt_range'

theorem positions_nodup (sections : List SectionSummary) (keep : SectionSummary → Bool) :
    (positions sections keep).Nodup :=
  (positions_sorted sections keep).imp Nat.ne_of_lt

end

/-! ## The ranking -/

/-- The mean time of the section at a position, if it has statistics. -/
def meanTimeAt? (sections : List SectionSummary) (p : ℕ) : Option Float :=
  sections[p]?.bind Ranking.meanTime?

/-- What is expected of a ranking of some sections. -/
structure IsRanking (sections : List SectionSummary) (ranking : List ℕ) : Prop where
  nodup : ranking.Nodup
  /-- The exclusive sections that have a label are ranked, and no others. -/
  mem_iff (p : ℕ) : p ∈ ranking ↔ ∃ s, sections[p]? = some s ∧ s.exclusive = true ∧ s.label ≠ ""
  /-- Sections with statistics come before those without. -/
  measured_first {p q : ℕ} (hp : p ∈ ranking) (hq : q ∈ ranking)
    (hmeasured : (meanTimeAt? sections p).isSome = true) (hnone : meanTimeAt? sections q = none) :
    StandsBefore ranking p q
  /-- Mean times do not increase. -/
  slower_first {p q : ℕ} {x y : Float} (h : StandsBefore ranking p q)
    (hx : meanTimeAt? sections p = some x) (hy : meanTimeAt? sections q = some y) : TotallyLE y x
  /-- Sections with the same mean time, or without any, stay in the order of their positions. -/
  earlier_first {p q : ℕ} (hp : p ∈ ranking) (hq : q ∈ ranking)
    (heq : meanTimeAt? sections p = meanTimeAt? sections q) (hlt : p < q) :
    StandsBefore ranking p q

/-- The order that a ranking is sorted by. -/
def Outranks (sections : List SectionSummary) (p q : ℕ) : Prop :=
  Ranking.precedes (meanTimeAt? sections p) (meanTimeAt? sections q) = true ∧
    (meanTimeAt? sections p = meanTimeAt? sections q → p < q)

theorem Outranks.asymm {sections : List SectionSummary} {p q : ℕ} (h : Outranks sections p q) :
    ¬Outranks sections q p := fun h' ↦
  have heq := Ranking.eq_of_precedes h.1 h'.1
  Nat.lt_asymm (h.2 heq) (h'.2 heq.symm)

namespace IsRanking

variable {sections : List SectionSummary} {ranking : List ℕ}

/-- A ranking is sorted. -/
theorem pairwise (h : IsRanking sections ranking) : ranking.Pairwise (Outranks sections) := by
  rw [List.pairwise_iff_forall_sublist]
  intro p q (hpq : StandsBefore ranking p q)
  have hp := hpq.mem_left
  have hq := hpq.mem_right
  constructor
  · cases hx : meanTimeAt? sections p with
    | none =>
      cases hy : meanTimeAt? sections q with
      | none => rfl
      | some y =>
        have hmeasured : (meanTimeAt? sections q).isSome = true := hy ▸ rfl
        exact absurd (h.measured_first hq hp hmeasured hx) (hpq.asymm h.nodup)
    | some x =>
      cases hy : meanTimeAt? sections q with
      | none => rfl
      | some y => exact (Ranking.precedes_some_iff x y).mpr (h.slower_first hpq hx hy)
  · intro heq
    rcases lt_trichotomy p q with hlt | rfl | hlt
    · exact hlt
    · exact absurd hpq (hpq.asymm h.nodup)
    · exact absurd (h.earlier_first hq hp heq.symm hlt) (hpq.asymm h.nodup)

theorem unique {other : List ℕ} (h : IsRanking sections ranking) (h' : IsRanking sections other) :
    ranking = other := by
  have hperm : ranking.Perm other :=
    (List.perm_ext_iff_of_nodup h.nodup h'.nodup).mpr fun p ↦ (h.mem_iff p).trans (h'.mem_iff p).symm
  exact hperm.eq_of_pairwise (fun _ _ _ _ hpq hqp ↦ absurd hqp hpq.asymm) h.pairwise h'.pairwise

end IsRanking

namespace Summary

variable {s : Summary}

theorem rankedSections_perm (s : Summary) :
    s.rankedSections.Perm ((s.sections.zipIdx).filter fun x ↦ Ranking.admits x.1) :=
  List.mergeSort_perm ..

theorem ranking_perm (s : Summary) : s.ranking.Perm (positions s.sections Ranking.admits) :=
  s.rankedSections_perm.map Prod.snd

theorem getElem?_of_mem_rankedSections {x : SectionSummary × ℕ} (h : x ∈ s.rankedSections) :
    s.sections[x.2]? = some x.1 :=
  List.mem_zipIdx_iff_getElem?.mp (List.mem_of_mem_filter (s.rankedSections_perm.mem_iff.mp h))

theorem meanTimeAt?_of_mem_rankedSections {x : SectionSummary × ℕ} (h : x ∈ s.rankedSections) :
    meanTimeAt? s.sections x.2 = Ranking.meanTime? x.1 := by
  rw [meanTimeAt?, getElem?_of_mem_rankedSections h, Option.bind_some]

/-- The ranking is sorted by mean times. -/
theorem ranking_pairwise (s : Summary) :
    s.ranking.Pairwise fun p q ↦
      Ranking.precedes (meanTimeAt? s.sections p) (meanTimeAt? s.sections q) = true := by
  have hsorted : s.rankedSections.Pairwise fun x y ↦
      Ranking.precedes (Ranking.meanTime? x.1) (Ranking.meanTime? y.1) = true :=
    @List.pairwise_mergeSort (SectionSummary × ℕ) (fun x y ↦ Ranking.precedes (Ranking.meanTime? x.1)
      (Ranking.meanTime? y.1)) (fun _ _ _ ↦ Ranking.precedes_trans)
      (fun _ _ ↦ Ranking.precedes_total ..) _
  rw [ranking, List.pairwise_map]
  refine List.Pairwise.imp_of_mem (fun hx hy h ↦ ?_) hsorted
  rw [meanTimeAt?_of_mem_rankedSections hx, meanTimeAt?_of_mem_rankedSections hy]
  exact h

/-- Sorting keeps the order of sections with the same mean time. -/
theorem standsBefore_of_lt {p q : ℕ} (hp : p ∈ s.ranking) (hq : q ∈ s.ranking)
    (heq : meanTimeAt? s.sections p = meanTimeAt? s.sections q) (hlt : p < q) :
    StandsBefore s.ranking p q := by
  obtain ⟨x, hx, rfl⟩ := List.mem_map.mp hp
  obtain ⟨y, hy, rfl⟩ := List.mem_map.mp hq
  have hprecedes : Ranking.precedes (Ranking.meanTime? x.1) (Ranking.meanTime? y.1) = true := by
    rw [← meanTimeAt?_of_mem_rankedSections hx, ← meanTimeAt?_of_mem_rankedSections hy, heq]
    simpa using Ranking.precedes_total (meanTimeAt? s.sections y.2) (meanTimeAt? s.sections y.2)
  have hbefore : StandsBefore ((s.sections.zipIdx).filter fun x ↦ Ranking.admits x.1) x y := by
    refine (standsBefore_or (s.rankedSections_perm.mem_iff.mp hx)
      (s.rankedSections_perm.mem_iff.mp hy) fun h ↦ hlt.ne (congrArg Prod.snd h)).resolve_right ?_
    intro h
    have hsorted : StandsBefore (positions s.sections Ranking.admits) y.2 x.2 := h.map Prod.snd
    exact hlt.asymm ((positions_sorted ..).forall_sublist hsorted)
  have hranked : StandsBefore s.rankedSections x y :=
    List.pair_sublist_mergeSort (fun _ _ _ ↦ Ranking.precedes_trans)
      (fun _ _ ↦ Ranking.precedes_total ..) hprecedes hbefore
  exact hranked.map Prod.snd

theorem isRanking_ranking (s : Summary) : IsRanking s.sections s.ranking where
  nodup := s.ranking_perm.nodup_iff.mpr (positions_nodup ..)
  mem_iff p := by
    rw [s.ranking_perm.mem_iff, mem_positions]
    simp only [Ranking.admits_iff]
  measured_first {p q} hp hq hmeasured hnone := by
    have hne : p ≠ q := by
      rintro rfl
      rw [hnone] at hmeasured
      cases hmeasured
    refine (standsBefore_or hp hq hne).resolve_right fun h ↦ ?_
    obtain ⟨x, hx⟩ := Option.isSome_iff_exists.mp hmeasured
    have hprecedes := s.ranking_pairwise.forall_sublist h
    rw [hnone, hx] at hprecedes
    cases hprecedes
  slower_first h hx hy := by
    have hprecedes := s.ranking_pairwise.forall_sublist h
    rw [hx, hy] at hprecedes
    exact (Ranking.precedes_some_iff ..).mp hprecedes
  earlier_first := standsBefore_of_lt

/-- **The ranking.** The ranking of a summary is what is expected of a ranking of its sections, and
nothing else is. -/
theorem isRanking_iff (s : Summary) (ranking : List ℕ) :
    IsRanking s.sections ranking ↔ ranking = s.ranking := by
  constructor
  · exact fun h ↦ h.unique s.isRanking_ranking
  · rintro rfl
    exact s.isRanking_ranking

end Summary

end SectionMonitor
