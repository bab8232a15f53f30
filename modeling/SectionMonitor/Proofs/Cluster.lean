import Mathlib.Algebra.BigOperators.Group.List.Basic
import Mathlib.Algebra.GroupWithZero.Nat
import Mathlib.Data.Fintype.EquivFin
import SectionMonitor.Exchange.Cluster

/-!
# What every step of a cluster preserves

The ranks of a cluster reuse the slots of their board in every round, and a fast rank may be through
with a round before a slow one has begun to read. That no value of an earlier or a later round is
ever read rests on the gate: how often a rank has met the others says which round it is in, and it
is never more than one meeting ahead of anybody.

`Position` says where a rank can stand when the gate has opened so many times, and `Sound` that all
ranks stand so and that the gate counts those that wait for it. A rank that is about to read finds
everybody else in its own round (`Sound.shows_all`). `Move` lists the steps, and `Move.sound` shows
that each of them keeps the cluster sound.
-/

namespace SectionMonitor

open Exchange (Request Response)

variable {n : ℕ} {r r' : Fin (n + 1)}

/-! ## Meetings -/

/-- How often the ranks meet in a round. -/
def Round.meetings : Round n → ℕ
  | barrier => 1
  | _ => 2

theorem Round.meetings_pos (round : Round n) : 0 < round.meetings := by
  cases round <;> exact Nat.succ_pos _

/-- In a round with something to read the ranks meet once before it and once after it. -/
theorem Round.meetings_eq_two {round : Round n} (h : round.request r ≠ .barrier) :
    round.meetings = 2 := by
  cases round with
  | barrier => exact absurd rfl h
  | _ => rfl

theorem Round.eq_barrier_of_request {round : Round n} (h : round.request r = .barrier) :
    round = .barrier := by
  cases round with
  | barrier => rfl
  | _ => cases h

/-- How often the ranks meet in several rounds. -/
def meetingsOf (rounds : List (Round n)) : ℕ := (rounds.map Round.meetings).sum

theorem meetingsOf_append (rounds more : List (Round n)) :
    meetingsOf (rounds ++ more) = meetingsOf rounds + meetingsOf more := by
  rw [meetingsOf, List.map_append, List.sum_append]
  rfl

theorem meetingsOf_cons (round : Round n) (later : List (Round n)) :
    meetingsOf (round :: later) = round.meetings + meetingsOf later := by
  rw [meetingsOf, List.map_cons, List.sum_cons]
  rfl

/-- Two places in the same rounds. Either one of them is at least a whole round behind the other, or
they are the same. -/
theorem compare_places {done done' later rest : List (Round n)} {round : Round n}
    (h : done ++ round :: later = done' ++ rest) :
    meetingsOf done + round.meetings ≤ meetingsOf done' ∨
      (done' = done ∧ rest = round :: later) ∨
      ∃ round' later', rest = round' :: later' ∧
        meetingsOf done' + round'.meetings ≤ meetingsOf done := by
  rcases List.append_eq_append_iff.mp h with ⟨ahead, rfl, hrest⟩ | ⟨behind, rfl, hrest⟩
  · cases ahead with
    | nil => exact .inr (.inl ⟨List.append_nil done, hrest.symm⟩)
    | cons x ahead =>
      obtain ⟨rfl, -⟩ := List.cons.inj hrest
      refine .inl ?_
      rw [meetingsOf_append, meetingsOf_cons]
      omega
  · cases behind with
    | nil => exact .inr (.inl ⟨(List.append_nil done').symm, hrest⟩)
    | cons x behind =>
      refine .inr (.inr ⟨x, _, hrest, ?_⟩)
      rw [meetingsOf_append, meetingsOf_cons]
      omega

/-- No round begins while another one is taken. -/
theorem le_of_place {done done' later rest : List (Round n)} {round : Round n}
    (h : done ++ round :: later = done' ++ rest) (hlt : meetingsOf done < meetingsOf done') :
    meetingsOf done + round.meetings ≤ meetingsOf done' := by
  rcases compare_places h with hle | ⟨rfl, -⟩ | ⟨_, _, -, hle⟩ <;> omega

/-- Rounds that go on at the same time are one round. -/
theorem eq_of_places {done done' later later' : List (Round n)} {round round' : Round n}
    (h : done ++ round :: later = done' ++ round' :: later')
    (hahead : meetingsOf done' < meetingsOf done + round.meetings)
    (hbehind : meetingsOf done < meetingsOf done' + round'.meetings) : round' = round := by
  rcases compare_places h with hle | ⟨-, heq⟩ | ⟨_, _, heq, hle⟩
  · omega
  · exact (List.cons.inj heq).1
  · obtain ⟨rfl, -⟩ := List.cons.inj heq
    omega

/-! ## Slots -/

/-- What a rank has handed over stands in its slot. Only rank zero has something to broadcast. -/
def Board.Shows (b : Board n) (r : Fin (n + 1)) : Request → Prop
  | .gatherReal value => b.reals r = value
  | .gatherCount value => b.counts r = value
  | .gatherBuffer buffer => b.buffers r = buffer
  | .broadcast buffer => r.val = 0 → b.buffers r = buffer
  | .barrier => True

theorem Board.shows_publish (b : Board n) (r : Fin (n + 1)) (q : Request) :
    (b.publish r q).Shows r q := by
  cases q with
  | gatherReal value => exact Function.update_self ..
  | gatherCount value => exact Function.update_self ..
  | gatherBuffer buffer => exact Function.update_self ..
  | broadcast buffer =>
    intro hzero
    obtain rfl : r = 0 := Fin.ext hzero
    rw [publish, if_pos rfl]
    exact Function.update_self 0 buffer b.buffers
  | barrier => trivial

/-- Nobody writes into the slot of another rank. -/
theorem Board.publish_of_ne (b : Board n) (hne : r' ≠ r) (q : Request) :
    (b.publish r q).reals r' = b.reals r' ∧ (b.publish r q).counts r' = b.counts r' ∧
      (b.publish r q).buffers r' = b.buffers r' := by
  cases q with
  | gatherReal value => exact ⟨Function.update_of_ne hne .., rfl, rfl⟩
  | gatherCount value => exact ⟨rfl, Function.update_of_ne hne .., rfl⟩
  | gatherBuffer buffer => exact ⟨rfl, rfl, Function.update_of_ne hne ..⟩
  | broadcast buffer =>
    rw [publish]
    split_ifs with hzero
    · subst hzero
      exact ⟨rfl, rfl, Function.update_of_ne hne ..⟩
    · exact ⟨rfl, rfl, rfl⟩
  | barrier => exact ⟨rfl, rfl, rfl⟩

theorem Board.Shows.publish {b : Board n} {p q : Request} (h : b.Shows r' p) (hne : r' ≠ r) :
    (b.publish r q).Shows r' p := by
  obtain ⟨hreals, hcounts, hbuffers⟩ := b.publish_of_ne hne q
  cases p with
  | gatherReal value => exact hreals.trans h
  | gatherCount value => exact hcounts.trans h
  | gatherBuffer buffer => exact hbuffers.trans h
  | broadcast buffer => exact fun hzero ↦ hbuffers.trans (h hzero)
  | barrier => trivial

/-- On a board that shows the values of a round, every rank reads what it is promised. -/
theorem Board.answer_of_shows {b : Board n} {round : Round n}
    (h : ∀ r', b.Shows r' (round.request r')) (r : Fin (n + 1)) :
    b.answer r (round.request r) = round.answer r := by
  cases round with
  | gatherReal values =>
    have hslots : b.reals = values := funext h
    rw [Round.request, answer, hslots, Round.answer]
  | gatherCount values =>
    have hslots : b.counts = values := funext h
    rw [Round.request, answer, hslots, Round.answer]
  | gatherBuffer buffers =>
    have hslots : b.buffers = buffers := funext h
    rw [Round.request, answer, hslots, Round.answer]
  | broadcast buffers => exact congrArg Response.buffer (h 0 rfl)
  | barrier => rfl

/-! ## Where a rank stands -/

/-- The generation of the gate that a rank waits to be over. -/
def Stage.awaits : Stage → Option ℕ
  | meeting _ g => some g
  | parting _ g => some g
  | _ => none

/-- Where a rank can stand, given the rounds of the job, the generation of the gate and the board:
some rounds are done and answered as promised, the rank has met the others as often as the gate has
opened, or once more if it waits for the gate, and its slot shows the round that it is in. -/
inductive Position (rounds : List (Round n)) (generation : ℕ) (board : Board n)
    (r : Fin (n + 1)) : Rank → Prop
  | idle {done later : List (Round n)} (hrounds : done ++ later = rounds)
      (hgate : meetingsOf done = generation) :
      Position rounds generation board r
        ⟨later.map (Round.request r), .idle, done.map (Round.answer r)⟩
  | published {done later : List (Round n)} {round : Round n}
      (hrounds : done ++ round :: later = rounds) (hshows : board.Shows r (round.request r))
      (hgate : meetingsOf done = generation) :
      Position rounds generation board r
        ⟨later.map (Round.request r), .published (round.request r), done.map (Round.answer r)⟩
  | meeting {done later : List (Round n)} {round : Round n} {g : ℕ}
      (hrounds : done ++ round :: later = rounds) (hshows : board.Shows r (round.request r))
      (hmet : meetingsOf done = g) (hgate : g = generation ∨ g + 1 = generation) :
      Position rounds generation board r
        ⟨later.map (Round.request r), .meeting (round.request r) g, done.map (Round.answer r)⟩
  | met {done later : List (Round n)} {round : Round n}
      (hrounds : done ++ round :: later = rounds) (hshows : board.Shows r (round.request r))
      (hgate : meetingsOf done + 1 = generation) :
      Position rounds generation board r
        ⟨later.map (Round.request r), .met (round.request r), done.map (Round.answer r)⟩
  | answered {done later : List (Round n)} {round : Round n}
      (hrounds : done ++ round :: later = rounds) (hshows : board.Shows r (round.request r))
      (htwice : round.meetings = 2) (hgate : meetingsOf done + 1 = generation) :
      Position rounds generation board r
        ⟨later.map (Round.request r), .answered (round.answer r), done.map (Round.answer r)⟩
  | parting {done later : List (Round n)} {round : Round n} {g : ℕ}
      (hrounds : done ++ round :: later = rounds) (hshows : board.Shows r (round.request r))
      (htwice : round.meetings = 2) (hmet : meetingsOf done + 1 = g)
      (hgate : g = generation ∨ g + 1 = generation) :
      Position rounds generation board r
        ⟨later.map (Round.request r), .parting (round.answer r) g, done.map (Round.answer r)⟩

namespace Position

variable {rounds : List (Round n)} {generation : ℕ} {board board' : Board n} {own : Rank}

/-- A rank does not care about the slots of the others. -/
theorem of_board (h : Position rounds generation board r own)
    (hboard : ∀ q, board.Shows r q → board'.Shows r q) :
    Position rounds generation board' r own := by
  cases h with
  | idle hrounds hgate => exact .idle hrounds hgate
  | published hrounds hshows hgate => exact .published hrounds (hboard _ hshows) hgate
  | meeting hrounds hshows hmet hgate => exact .meeting hrounds (hboard _ hshows) hmet hgate
  | met hrounds hshows hgate => exact .met hrounds (hboard _ hshows) hgate
  | answered hrounds hshows htwice hgate => exact .answered hrounds (hboard _ hshows) htwice hgate
  | parting hrounds hshows htwice hmet hgate =>
    exact .parting hrounds (hboard _ hshows) htwice hmet hgate

/-- When the gate opens, those who have waited for it may go on later. -/
theorem opened (h : Position rounds generation board r own)
    (hwaits : own.stage.awaits = some generation) :
    Position rounds (generation + 1) board r own := by
  cases h with
  | meeting hrounds hshows hmet hgate =>
    obtain rfl := Option.some.inj hwaits
    exact .meeting hrounds hshows hmet (.inr rfl)
  | parting hrounds hshows htwice hmet hgate =>
    obtain rfl := Option.some.inj hwaits
    exact .parting hrounds hshows htwice hmet (.inr rfl)
  | idle => cases hwaits
  | published => cases hwaits
  | met => cases hwaits
  | answered => cases hwaits

/-- After the last meeting of a round the rank is done with it. -/
theorem next {done later : List (Round n)} {round : Round n}
    (hrounds : done ++ round :: later = rounds)
    (hgate : meetingsOf done + round.meetings = generation) :
    Position rounds generation board r
      ⟨later.map (Round.request r), .idle, done.map (Round.answer r) ++ [round.answer r]⟩ := by
  have hdone : meetingsOf (done ++ [round]) = generation := by
    rw [meetingsOf_append, meetingsOf_cons]
    exact hgate
  have hidle : Position rounds generation board r
      ⟨later.map (Round.request r), .idle, (done ++ [round]).map (Round.answer r)⟩ :=
    .idle ((List.append_cons ..).symm.trans hrounds) hdone
  rwa [List.map_append] at hidle

/-- The answers are those that were promised. -/
theorem answers_isPrefix (h : Position rounds generation board r own) :
    own.answers <+: rounds.map (Round.answer r) := by
  have hprefix {done rest : List (Round n)} (hrounds : done ++ rest = rounds) :
      done.map (Round.answer r) <+: rounds.map (Round.answer r) :=
    List.IsPrefix.map _ ⟨rest, hrounds⟩
  cases h with
  | idle hrounds => exact hprefix hrounds
  | published hrounds => exact hprefix hrounds
  | meeting hrounds => exact hprefix hrounds
  | met hrounds => exact hprefix hrounds
  | answered hrounds => exact hprefix hrounds
  | parting hrounds => exact hprefix hrounds

/-- Somebody who has met the others once in a round, which has two meetings, is met by all of them
in this round: their values are on the board. -/
theorem shows_of_between {done later : List (Round n)} {round : Round n}
    (h : Position rounds generation board r own) (hrounds : done ++ round :: later = rounds)
    (htwice : round.meetings = 2) (hgate : meetingsOf done + 1 = generation) :
    board.Shows r (round.request r) := by
  -- A rank in the same round has published. A rank in any other round would have to be a meeting
  -- behind the gate without waiting for it, or two meetings ahead.
  have hsame {done' later' : List (Round n)} {round' : Round n}
      (hrounds' : done' ++ round' :: later' = rounds)
      (hshows' : board.Shows r (round'.request r))
      (hahead : meetingsOf done' < meetingsOf done + round.meetings)
      (hbehind : meetingsOf done < meetingsOf done' + round'.meetings) :
      board.Shows r (round.request r) := by
    rwa [← eq_of_places (hrounds.trans hrounds'.symm) hahead hbehind]
  cases h with
  | idle hrounds' hgate' =>
    have hle := le_of_place (hrounds.trans hrounds'.symm) (by omega)
    omega
  | published hrounds' hshows' hgate' =>
    have hle := le_of_place (hrounds.trans hrounds'.symm) (by omega)
    omega
  | @meeting _ _ round' _ hrounds' hshows' hmet' hgate' =>
    have hpos := round'.meetings_pos
    exact hsame hrounds' hshows' (by omega) (by omega)
  | @met _ _ round' hrounds' hshows' hgate' =>
    have hpos := round'.meetings_pos
    exact hsame hrounds' hshows' (by omega) (by omega)
  | answered hrounds' hshows' htwice' hgate' =>
    exact hsame hrounds' hshows' (by omega) (by omega)
  | parting hrounds' hshows' htwice' hmet' hgate' =>
    exact hsame hrounds' hshows' (by omega) (by omega)

end Position

/-! ## The whole cluster -/

namespace Cluster

variable {rounds : List (Round n)} {c c' : Cluster n} {own : Rank}

/-- The ranks that wait for the gate to open. -/
def waiting (c : Cluster n) : Finset (Fin (n + 1)) :=
  Finset.univ.filter fun r ↦ (c.ranks r).stage.awaits = some c.gate.generation

@[simp] theorem mem_waiting :
    r ∈ c.waiting ↔ (c.ranks r).stage.awaits = some c.gate.generation := by
  rw [waiting, Finset.mem_filter, and_iff_right (Finset.mem_univ r)]

/-- Every rank stands where it can, and the gate has counted those that wait for it. They are never
all: the last one to arrive opens it. -/
structure Sound (rounds : List (Round n)) (c : Cluster n) : Prop where
  position : ∀ r, Position rounds c.gate.generation c.board r (c.ranks r)
  arrived : c.gate.arrived = c.waiting.card
  arrived_le : c.gate.arrived ≤ n

/-- In the beginning nothing has happened, whatever stands on the board. -/
theorem sound_start (rounds : List (Round n)) : (start rounds).Sound rounds where
  position r := @Position.idle n rounds 0 _ r [] rounds rfl rfl
  arrived := by
    rw [waiting, Finset.filter_false_of_mem fun r _ ↦ by simp [start, Stage.awaits]]
    rfl
  arrived_le := Nat.zero_le n

theorem ranks_move_self : (c.move r own).ranks r = own := Function.update_self ..

theorem ranks_move_of_ne (hne : r' ≠ r) : (c.move r own).ranks r' = c.ranks r' :=
  Function.update_of_ne hne ..

namespace Sound

/-- A rank that moves on to where it can stand leaves the others where they can. -/
theorem position_move (h : c.Sound rounds)
    (hown : Position rounds c.gate.generation c.board r own) (r' : Fin (n + 1)) :
    Position rounds c.gate.generation c.board r' ((c.move r own).ranks r') := by
  by_cases hr : r' = r
  · rw [hr, ranks_move_self]
    exact hown
  · rw [ranks_move_of_ne hr]
    exact h.position r'

/-- A rank may move on to where it can stand, as long as it does not wait for the gate. -/
theorem move (h : c.Sound rounds) (hout : (c.ranks r).stage.awaits ≠ some c.gate.generation)
    (hstays : own.stage.awaits ≠ some c.gate.generation)
    (hown : Position rounds c.gate.generation c.board r own) : (c.move r own).Sound rounds where
  position := h.position_move hown
  arrived := by
    have hwaiting : (c.move r own).waiting = c.waiting := by
      ext r'
      rw [mem_waiting, mem_waiting]
      by_cases hr : r' = r
      · rw [hr, ranks_move_self]
        exact iff_of_false hstays hout
      · rw [ranks_move_of_ne hr]
        rfl
    rw [hwaiting]
    exact h.arrived
  arrived_le := h.arrived_le

/-- A rank may arrive at the gate, whether this opens it or not. -/
theorem arrive (h : c.Sound rounds) (hout : (c.ranks r).stage.awaits ≠ some c.gate.generation)
    (hwaits : own.stage.awaits = some c.gate.generation)
    (hown : Position rounds c.gate.generation c.board r own) :
    (c.arrive r own).Sound rounds := by
  have hposition := h.position_move hown
  have hcard : (c.move r own).waiting.card = c.gate.arrived + 1 := by
    have hwaiting : (c.move r own).waiting = insert r c.waiting := by
      ext r'
      rw [mem_waiting, Finset.mem_insert, mem_waiting]
      by_cases hr : r' = r
      · rw [hr, ranks_move_self]
        exact iff_of_true hwaits (.inl rfl)
      · rw [ranks_move_of_ne hr, or_iff_right hr]
        rfl
    rw [hwaiting, Finset.card_insert_of_notMem (mt mem_waiting.mp hout), h.arrived]
  by_cases hlast : c.gate.arrived + 1 < n + 1
  · have hgate : c.gate.arrive (n + 1) = { c.gate with arrived := c.gate.arrived + 1 } :=
      if_pos hlast
    rw [Cluster.arrive, hgate]
    exact ⟨hposition, hcard.symm, Nat.le_of_lt_succ hlast⟩
  · -- Everybody waits for the generation that is now over, and nobody for the next one.
    have hgate : c.gate.arrive (n + 1) = { arrived := 0, generation := c.gate.generation + 1 } :=
      if_neg hlast
    have hall : ∀ r', ((c.move r own).ranks r').stage.awaits = some c.gate.generation := by
      have hle := h.arrived_le
      have huniv : (c.move r own).waiting = Finset.univ := by
        rw [← Finset.card_eq_iff_eq_univ, hcard, Fintype.card_fin]
        omega
      exact fun r' ↦ mem_waiting.mp (huniv ▸ Finset.mem_univ r')
    rw [Cluster.arrive, hgate]
    refine ⟨fun r' ↦ (hposition r').opened (hall r'), ?_, Nat.zero_le n⟩
    refine (Finset.card_eq_zero.mpr (Finset.filter_false_of_mem fun r' _ hnext ↦ ?_)).symm
    have hnow : c.gate.generation = c.gate.generation + 1 :=
      Option.some.inj ((hall r').symm.trans hnext)
    omega

/-- A rank that begins a round may put its value on the board. -/
theorem publish {q : Request} {later : List Request} {answers : List Response}
    (h : c.Sound rounds) (hown : c.ranks r = ⟨q :: later, .idle, answers⟩) :
    { c with board := c.board.publish r q }.Sound rounds where
  position r' := by
    by_cases hr : r' = r
    · have hpos := h.position r
      rw [hr]
      dsimp only
      rw [hown] at hpos ⊢
      generalize hcalls : q :: later = calls at hpos
      cases hpos with
      | idle hrounds hgate => exact .idle hrounds hgate
    · exact (h.position r').of_board fun p hshows ↦ hshows.publish hr
  arrived := h.arrived
  arrived_le := h.arrived_le

/-- Whoever is about to read finds the values of its own round in all slots. -/
theorem shows_all {done later : List (Round n)} {round : Round n} (h : c.Sound rounds)
    (hrounds : done ++ round :: later = rounds) (htwice : round.meetings = 2)
    (hgate : meetingsOf done + 1 = c.gate.generation) (r' : Fin (n + 1)) :
    c.board.Shows r' (round.request r') :=
  (h.position r').shows_of_between hrounds htwice hgate

end Sound

/-! ## Steps -/

/-- The steps of a rank, each with where the rank stands before it. -/
inductive Move (c : Cluster n) (r : Fin (n + 1)) : Cluster n → Prop
  | publish {q : Request} {later : List Request} {answers : List Response}
      (hown : c.ranks r = ⟨q :: later, .idle, answers⟩) :
      Move c r { c.move r ⟨later, .published q, answers⟩ with board := c.board.publish r q }
  | meet {q : Request} {later : List Request} {answers : List Response}
      (hown : c.ranks r = ⟨later, .published q, answers⟩) :
      Move c r (c.arrive r ⟨later, .meeting q c.gate.generation, answers⟩)
  | enter {q : Request} {later : List Request} {answers : List Response} {g : ℕ}
      (hown : c.ranks r = ⟨later, .meeting q g, answers⟩) (hopen : g ≠ c.gate.generation) :
      Move c r (c.move r ⟨later, .met q, answers⟩)
  | pass {later : List Request} {answers : List Response}
      (hown : c.ranks r = ⟨later, .met .barrier, answers⟩) :
      Move c r (c.move r ⟨later, .idle, answers ++ [.passed]⟩)
  | read {q : Request} {later : List Request} {answers : List Response}
      (hown : c.ranks r = ⟨later, .met q, answers⟩) (hq : q ≠ .barrier) :
      Move c r (c.move r ⟨later, .answered (c.board.answer r q), answers⟩)
  | part {a : Response} {later : List Request} {answers : List Response}
      (hown : c.ranks r = ⟨later, .answered a, answers⟩) :
      Move c r (c.arrive r ⟨later, .parting a c.gate.generation, answers⟩)
  | leave {a : Response} {later : List Request} {answers : List Response} {g : ℕ}
      (hown : c.ranks r = ⟨later, .parting a g, answers⟩) (hopen : g ≠ c.gate.generation) :
      Move c r (c.move r ⟨later, .idle, answers ++ [a]⟩)

/-- A rank takes one of these steps, or it has nothing left to ask, or it waits for the gate. -/
theorem step_cases (c : Cluster n) (r : Fin (n + 1)) :
    (∃ c', c.step r = some c' ∧ c.Move r c') ∨
      c.step r = none ∧ ((∃ answers, c.ranks r = ⟨[], .idle, answers⟩) ∨
        (c.ranks r).stage.awaits = some c.gate.generation) := by
  rw [step]
  split
  · next answers hown => exact .inr ⟨rfl, .inl ⟨answers, hown⟩⟩
  · next hown => exact .inl ⟨_, rfl, .publish hown⟩
  · next hown => exact .inl ⟨_, rfl, .meet hown⟩
  · next hown =>
    split_ifs with hg
    · exact .inr ⟨rfl, .inr (by rw [hown, hg]; rfl)⟩
    · exact .inl ⟨_, rfl, .enter hown hg⟩
  · next hown => exact .inl ⟨_, rfl, .pass hown⟩
  · next hq hown => exact .inl ⟨_, rfl, .read hown hq⟩
  · next hown => exact .inl ⟨_, rfl, .part hown⟩
  · next hown =>
    split_ifs with hg
    · exact .inr ⟨rfl, .inr (by rw [hown, hg]; rfl)⟩
    · exact .inl ⟨_, rfl, .leave hown hg⟩

/-- A rank that waits for the gate takes no step. -/
theorem Move.awaits_ne (hmove : c.Move r c') :
    (c.ranks r).stage.awaits ≠ some c.gate.generation := by
  cases hmove with
  | enter hown hopen =>
    rw [hown]
    exact fun hg ↦ hopen (Option.some.inj hg)
  | leave hown hopen =>
    rw [hown]
    exact fun hg ↦ hopen (Option.some.inj hg)
  | publish hown | meet hown | pass hown | read hown | part hown =>
    rw [hown]
    nofun

/-- What a step preserves. -/
theorem Move.sound (hmove : c.Move r c') (h : c.Sound rounds) : c'.Sound rounds := by
  have hout := hmove.awaits_ne
  have hpos := h.position r
  -- Where the rank stands before its step is known from its stage, and so is the round.
  cases hmove with
  | @publish q later answers hown =>
    generalize hcalls : q :: later = calls at hown
    rw [hown] at hpos
    cases hpos with
    | @idle done rest hrounds hgate =>
      obtain ⟨round, rest, rfl, rfl, rfl⟩ := List.map_eq_cons_iff.mp hcalls.symm
      exact (h.publish (hown.trans (by rw [List.map_cons]))).move hout nofun
        (.published hrounds (c.board.shows_publish r _) hgate)
  | meet hown =>
    rw [hown] at hpos
    cases hpos with
    | published hrounds hshows hgate =>
      exact h.arrive hout rfl (.meeting hrounds hshows hgate (.inl rfl))
  | enter hown hopen =>
    rw [hown] at hpos
    cases hpos with
    | meeting hrounds hshows hmet hgate =>
      exact h.move hout nofun (.met hrounds hshows (hmet ▸ hgate.resolve_left hopen))
  | pass hown =>
    generalize hq : Request.barrier = q at hown
    rw [hown] at hpos
    cases hpos with
    | met hrounds hshows hgate =>
      obtain rfl := Round.eq_barrier_of_request hq.symm
      exact h.move hout nofun (.next hrounds hgate)
  | read hown hq =>
    rw [hown] at hpos
    cases hpos with
    | met hrounds hshows hgate =>
      have htwice := Round.meetings_eq_two hq
      rw [c.board.answer_of_shows (h.shows_all hrounds htwice hgate)]
      exact h.move hout nofun (.answered hrounds hshows htwice hgate)
  | part hown =>
    rw [hown] at hpos
    cases hpos with
    | answered hrounds hshows htwice hgate =>
      exact h.arrive hout rfl (.parting hrounds hshows htwice hgate (.inl rfl))
  | leave hown hopen =>
    rw [hown] at hpos
    cases hpos with
    | parting hrounds hshows htwice hmet hgate =>
      have hgeneration := hgate.resolve_left hopen
      exact h.move hout nofun (.next hrounds (by omega))

end Cluster

end SectionMonitor
