import Mathlib.Algebra.Order.BigOperators.Group.Finset
import SectionMonitor.Proofs.Cluster
import SectionMonitor.Proofs.Lockstep

/-!
# Every order of the steps

Whatever order the ranks of a cluster take their steps in, the cluster stays sound, so each rank has
at any time been answered what the first rounds promise. This says nothing yet of a rank that waits
for ever. But if nobody can go on then everybody is through (`Sound.finished_of_stuck`), and every
step brings a rank closer to its end (`Move.left_lt`), so that all can come to the end from wherever
they are. `Cluster.answers_as_promised` puts the two together.

It follows that a job of threads computes what a job in lockstep computes
(`Cluster.together_eq_answers`): nothing is lost by looking at jobs in lockstep only.
-/

namespace SectionMonitor

open Exchange (Request Response)

variable {n : ℕ} {r r' : Fin (n + 1)}

namespace Cluster

variable {rounds : List (Round n)} {c c' : Cluster n} {own : Rank}

/-! ## Schedules -/

/-- A step that is taken, or passed over. -/
theorem Sound.step (h : c.Sound rounds) (r : Fin (n + 1)) : ((c.step r).getD c).Sound rounds := by
  rcases c.step_cases r with ⟨c', hstep, hmove⟩ | ⟨hstep, -⟩
  · rw [hstep]
    exact hmove.sound h
  · rw [hstep]
    exact h

theorem Sound.run (h : c.Sound rounds) (schedule : List (Fin (n + 1))) :
    (c.run schedule).Sound rounds := by
  induction schedule generalizing c with
  | nil => exact h
  | cons r schedule ih => exact ih (h.step r)

@[simp] theorem run_nil (c : Cluster n) : c.run [] = c := rfl

theorem run_cons (c : Cluster n) (r : Fin (n + 1)) (schedule : List (Fin (n + 1))) :
    c.run (r :: schedule) = ((c.step r).getD c).run schedule := rfl

theorem run_append (c : Cluster n) (schedule more : List (Fin (n + 1))) :
    c.run (schedule ++ more) = (c.run schedule).run more := List.foldl_append

/-- A rank with nothing left to ask has all its answers. -/
theorem Sound.answers_eq {answers : List Response} (h : c.Sound rounds)
    (hown : c.ranks r = ⟨[], .idle, answers⟩) :
    meetingsOf rounds = c.gate.generation ∧ answers = rounds.map (Round.answer r) := by
  have hpos := h.position r
  generalize hcalls : ([] : List Request) = calls at hown
  rw [hown] at hpos
  cases hpos with
  | @idle done later hrounds hgate =>
    obtain rfl := List.map_eq_nil_iff.mp hcalls.symm
    rw [List.append_nil] at hrounds
    exact ⟨hrounds ▸ hgate, hrounds ▸ rfl⟩

/-- Nobody waits for the gate when all meetings are over. -/
theorem Sound.not_awaits (h : c.Sound rounds) (hover : meetingsOf rounds = c.gate.generation)
    (r : Fin (n + 1)) : (c.ranks r).stage.awaits ≠ some c.gate.generation := by
  intro hwaits
  have hpos := h.position r
  generalize c.ranks r = own at hpos hwaits
  cases hpos with
  | @meeting _ _ round _ hrounds _ hmet =>
    have hg := Option.some.inj hwaits
    have hpos := round.meetings_pos
    rw [← hrounds, meetingsOf_append, meetingsOf_cons] at hover
    omega
  | parting hrounds _ htwice hmet =>
    have hg := Option.some.inj hwaits
    rw [← hrounds, meetingsOf_append, meetingsOf_cons] at hover
    omega
  | idle | published | met | answered => cases hwaits

/-- Nobody waits for ever: if no rank can go on then all of them are through. -/
theorem Sound.finished_of_stuck (h : c.Sound rounds) (hstuck : ∀ r, c.step r = none)
    (r : Fin (n + 1)) : ∃ answers, c.ranks r = ⟨[], .idle, answers⟩ := by
  have hstands (r : Fin (n + 1)) : (∃ answers, c.ranks r = ⟨[], .idle, answers⟩) ∨
      (c.ranks r).stage.awaits = some c.gate.generation := by
    rcases c.step_cases r with ⟨c', hstep, -⟩ | ⟨-, hstands⟩
    · cases hstep.symm.trans (hstuck r)
    · exact hstands
  -- Not everybody is at the gate, and whoever is not there is through with all rounds.
  have hsomebody : ∃ r, r ∉ c.waiting := by
    by_contra hall
    push Not at hall
    have hcard := h.arrived.symm.trans_le h.arrived_le
    rw [Finset.eq_univ_of_forall hall, Finset.card_univ, Fintype.card_fin] at hcard
    omega
  obtain ⟨first, hfirst⟩ := hsomebody
  obtain ⟨answers, hown⟩ := (hstands first).resolve_right (mt mem_waiting.mpr hfirst)
  exact (hstands r).resolve_right (h.not_awaits (h.answers_eq hown).1 r)

end Cluster

/-! ## An end in sight -/

/-- At most so many steps are left of a collective step. -/
def Stage.left : Stage → ℕ
  | idle => 0
  | published _ => 5
  | meeting _ _ => 4
  | met _ => 3
  | answered _ => 2
  | parting _ _ => 1

/-- At most so many steps are left of a rank. -/
def Rank.left (own : Rank) : ℕ := own.stage.left + 6 * own.calls.length

namespace Cluster

variable {rounds : List (Round n)} {c c' : Cluster n} {own : Rank}

/-- At most so many steps are left of all ranks. -/
def left (c : Cluster n) : ℕ := ∑ r, (c.ranks r).left

theorem left_move (h : own.left < (c.ranks r).left) : (c.move r own).left < c.left := by
  refine Finset.sum_lt_sum (fun r' _ ↦ ?_) ⟨r, Finset.mem_univ r, ?_⟩
  · by_cases hr : r' = r
    · rw [hr, ranks_move_self]
      exact h.le
    · rw [ranks_move_of_ne hr]
  · rw [ranks_move_self]
    exact h

/-- Every step brings its rank closer to the end, and takes no other rank back. -/
theorem Move.left_lt (hmove : c.Move r c') : c'.left < c.left := by
  cases hmove with
  | publish hown | meet hown | enter hown | pass hown | read hown | part hown | leave hown =>
    refine left_move (c := c) ?_
    simp only [hown, Rank.left, Stage.left, List.length_cons]
    omega

/-- From wherever the ranks are, some order of steps leads to the end. -/
theorem Sound.exists_run (h : c.Sound rounds) :
    ∃ more, ∀ r, (c.run more).ranks r = ⟨[], .idle, rounds.map (Round.answer r)⟩ := by
  -- Any rank that can go on does so; the number of steps that are left bounds how often.
  induction hleft : c.left using Nat.strong_induction_on generalizing c with
  | _ left ih =>
    by_cases hstuck : ∀ r, c.step r = none
    · refine ⟨[], fun r ↦ ?_⟩
      obtain ⟨answers, hown⟩ := h.finished_of_stuck hstuck r
      rw [run_nil, hown, (h.answers_eq hown).2]
    · push Not at hstuck
      obtain ⟨r, hmoves⟩ := hstuck
      rcases c.step_cases r with ⟨c', hstep, hmove⟩ | ⟨hnone, -⟩
      · obtain ⟨more, hmore⟩ := ih c'.left (hleft ▸ hmove.left_lt) (hmove.sound h) rfl
        refine ⟨r :: more, ?_⟩
        rwa [run_cons, hstep, Option.getD_some]
      · exact absurd hnone hmoves

/-! ## What the ranks are answered -/

/-- **Every order of the steps gives the promised answers.** Let any number of ranks take any rounds
and let them take their steps in any order. What a rank has been answered so far are the answers
that the first rounds promise: rank zero has got the values of all ranks in their order, and of no
other round, and everybody has got the buffer that rank zero broadcasts. And however far the ranks
have come, they can all still come to the end, with all answers. -/
theorem answers_as_promised (rounds : List (Round n)) (schedule : List (Fin (n + 1))) :
    (∀ r, (((start rounds).run schedule).ranks r).answers <+: rounds.map (Round.answer r)) ∧
      ∃ more, ∀ r, ((start rounds).run (schedule ++ more)).ranks r
        = ⟨[], .idle, rounds.map (Round.answer r)⟩ := by
  have hsound : ((start rounds).run schedule).Sound rounds := (sound_start rounds).run schedule
  refine ⟨fun r ↦ (hsound.position r).answers_isPrefix, ?_⟩
  obtain ⟨more, hmore⟩ := hsound.exists_run
  refine ⟨more, ?_⟩
  rwa [run_append]

end Cluster

/-! ## In lockstep -/

namespace Round

open Exchange

/-- A round that all processes take together. -/
theorem runs (round : Round n) :
    Runs (List.finRange n) (ask (round.request 0)) (fun p ↦ ask (round.request p.succ))
      (round.answer 0, [round.request 0])
      fun p ↦ (round.answer p.succ, [round.request p.succ]) := by
  have hslots {α : Type} (values : Fin (n + 1) → α) :
      values 0 :: (List.finRange n).map (fun p ↦ values p.succ) = List.ofFn values := by
    rw [List.ofFn_succ, List.ofFn_eq_map]
  cases round with
  | gatherReal values =>
    have hruns : Runs (List.finRange n) (ask (.gatherReal (values 0)))
        (fun p ↦ ask (.gatherReal (values p.succ)))
        (.reals (values 0 :: (List.finRange n).map fun p ↦ values p.succ),
          [.gatherReal (values 0)])
        fun p ↦ (.reals [], [.gatherReal (values p.succ)]) :=
      fun β f g past q ↦ lockstep_gatherReal ..
    exact hruns.congr (by rw [hslots]; rfl) fun p ↦ rfl
  | gatherCount values =>
    have hruns : Runs (List.finRange n) (ask (.gatherCount (values 0)))
        (fun p ↦ ask (.gatherCount (values p.succ)))
        (.counts (values 0 :: (List.finRange n).map fun p ↦ values p.succ),
          [.gatherCount (values 0)])
        fun p ↦ (.counts [], [.gatherCount (values p.succ)]) :=
      fun β f g past q ↦ lockstep_gatherCount ..
    exact hruns.congr (by rw [hslots]; rfl) fun p ↦ rfl
  | gatherBuffer buffers =>
    have hruns : Runs (List.finRange n) (ask (.gatherBuffer (buffers 0)))
        (fun p ↦ ask (.gatherBuffer (buffers p.succ)))
        (.buffers (buffers 0 :: (List.finRange n).map fun p ↦ buffers p.succ),
          [.gatherBuffer (buffers 0)])
        fun p ↦ (.buffers [], [.gatherBuffer (buffers p.succ)]) :=
      fun β f g past q ↦ lockstep_gatherBuffer ..
    exact hruns.congr (by rw [hslots]; rfl) fun p ↦ rfl
  | broadcast buffers => exact fun β f g past q ↦ lockstep_broadcast ..
  | barrier => exact Runs.barrier Response.passed fun _ ↦ Response.passed

end Round

namespace Cluster

open Exchange

/-- The ranks of a job that take some rounds in lockstep. -/
theorem together_rounds (rounds : List (Round n)) :
    together (List.ofFn fun r ↦ sequence (fun round : Round n ↦ ask (round.request r)) rounds)
      = some (List.ofFn fun r ↦ rounds.map (Round.answer r)) := by
  have hruns := (Runs.sequence Round.runs rounds).lockstep_recorded
  rw [← map_fst_together_recorded, List.ofFn_succ, List.ofFn_eq_map, List.map_cons, List.map_map]
  refine (congrArg (Option.map (List.map Prod.fst)) hruns).trans ?_
  rw [Option.map_some, List.map_cons, List.map_map, List.ofFn_succ, List.ofFn_eq_map]
  rfl

/-- **The order does not matter.** Once all ranks are through, whatever the order of their steps
was, they have come to what a job in lockstep comes to. -/
theorem together_eq_answers (rounds : List (Round n)) (schedule : List (Fin (n + 1)))
    (hthrough : ∀ r, ∃ answers,
      ((start rounds).run schedule).ranks r = ⟨[], .idle, answers⟩) :
    together (List.ofFn fun r ↦ sequence (fun round : Round n ↦ ask (round.request r)) rounds)
      = some (List.ofFn fun r ↦ (((start rounds).run schedule).ranks r).answers) := by
  have hanswers (r : Fin (n + 1)) :
      (((start rounds).run schedule).ranks r).answers = rounds.map (Round.answer r) := by
    obtain ⟨answers, hown⟩ := hthrough r
    rw [hown]
    exact (((sound_start rounds).run schedule).answers_eq hown).2
  simp only [hanswers]
  exact together_rounds rounds

end Cluster

end SectionMonitor
