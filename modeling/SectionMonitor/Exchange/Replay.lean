import SectionMonitor.Exchange.Basic

/-!
# Exchanges with scripted answers

One process alone, while the answers of the others are read from a script: a queue for each kind
of step. When a queue is used up the process hears only itself, as rank zero of a silent job
would, or nothing at all on any other rank.
-/

namespace SectionMonitor

/-- Prepared answers for the steps of one process. -/
structure Script where
  rank : Nat := 0
  size : Nat := 0
  reals : List (List Float) := []
  counts : List (List Count) := []
  buffers : List (List Buffer) := []
  /-- A missing buffer stands for the one that the process itself sends. -/
  broadcasts : List (Option Buffer) := []
  deriving DecidableEq, Repr

/-- What a gather answers when the script has nothing prepared. -/
def Script.silence {α : Type} (s : Script) (own : α) : List α := if s.rank = 0 then [own] else []

namespace Exchange

/-- Runs an exchange on a script. Also lists the steps that were taken. -/
def replay {α : Type} : Exchange α → Script → α × List Request
  | done a, _ => (a, [])
  | gatherReal v next, s =>
    let answer := s.reals.headD (s.silence v)
    let (a, requests) := (next answer).replay { s with reals := s.reals.tail }
    (a, .gatherReal v :: requests)
  | gatherCount v next, s =>
    let answer := s.counts.headD (s.silence v)
    let (a, requests) := (next answer).replay { s with counts := s.counts.tail }
    (a, .gatherCount v :: requests)
  | gatherBuffer b next, s =>
    let answer := s.buffers.headD (s.silence b)
    let (a, requests) := (next answer).replay { s with buffers := s.buffers.tail }
    (a, .gatherBuffer b :: requests)
  | broadcast b next, s =>
    let answer := (s.broadcasts.headD none).getD b
    let (a, requests) := (next answer).replay { s with broadcasts := s.broadcasts.tail }
    (a, .broadcast b :: requests)
  | barrier next, s =>
    let (a, requests) := next.replay s
    (a, .barrier :: requests)

end Exchange

end SectionMonitor
