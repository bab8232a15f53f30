import Mathlib.Data.Nat.Notation
import Mathlib.Logic.Function.Basic
import SectionMonitor.Exchange.Basic

/-!
# Jobs of threads

The processes of a job can be threads that share their memory. Each of them is a rank. They share a
board, on which every rank has slots of its own, and a gate at which they meet.

Nothing says which of the threads goes on next, so a collective step is taken in parts: a rank puts
its value on the board, meets the others, reads the board and meets the others once more. The board
and the gate are locked while a rank uses them, which makes each part one step that no other rank
can look into. `Cluster.run` lets the ranks go on in any order whatsoever.

There is always a rank zero, so that a job of `n + 1` ranks has the ranks `Fin (n + 1)`.
-/

namespace SectionMonitor

open Exchange (Request Response)

variable {n : ℕ}

/-! ## The board -/

/-- The slots of all ranks, for each kind of value. -/
structure Board (n : ℕ) where
  reals : Fin (n + 1) → Float := fun _ ↦ 0
  counts : Fin (n + 1) → Count := fun _ ↦ 0
  buffers : Fin (n + 1) → Buffer := fun _ ↦ []

namespace Board

/-- Puts what a rank hands over into its slot. Broadcasts and gathers of buffers use the same slots,
and of a broadcast only rank zero has something to hand over. -/
def publish (b : Board n) (r : Fin (n + 1)) : Request → Board n
  | .gatherReal value => { b with reals := Function.update b.reals r value }
  | .gatherCount value => { b with counts := Function.update b.counts r value }
  | .gatherBuffer buffer => { b with buffers := Function.update b.buffers r buffer }
  | .broadcast buffer =>
    if r = 0 then { b with buffers := Function.update b.buffers 0 buffer } else b
  | .barrier => b

/-- What a rank reads on the board. Only rank zero reads what has been gathered. -/
def answer (b : Board n) (r : Fin (n + 1)) : Request → Response
  | .gatherReal _ => .reals (if r = 0 then List.ofFn b.reals else [])
  | .gatherCount _ => .counts (if r = 0 then List.ofFn b.counts else [])
  | .gatherBuffer _ => .buffers (if r = 0 then List.ofFn b.buffers else [])
  | .broadcast _ => .buffer (b.buffers 0)
  | .barrier => .passed

end Board

/-! ## The gate -/

/-- Counts the ranks that have arrived since it last opened, and how often it has opened. A rank
that arrives waits until the generation is no longer the one that it has found. -/
structure Gate where
  arrived : ℕ := 0
  generation : ℕ := 0
  deriving DecidableEq, Repr

/-- One rank more. The last one opens the gate for everybody. -/
def Gate.arrive (g : Gate) (size : ℕ) : Gate :=
  if g.arrived + 1 < size then { g with arrived := g.arrived + 1 }
  else { arrived := 0, generation := g.generation + 1 }

/-! ## The ranks -/

/-- How far a rank has come in a collective step. -/
inductive Stage where
  /-- Between two collective steps. -/
  | idle
  /-- Its value is on the board. -/
  | published (request : Request)
  /-- It waits for the gate, which was at this generation when it arrived. -/
  | meeting (request : Request) (generation : ℕ)
  /-- It has met the others. -/
  | met (request : Request)
  /-- It has read the board. -/
  | answered (response : Response)
  /-- It waits for the gate once more. -/
  | parting (response : Response) (generation : ℕ)
  deriving DecidableEq, Repr

/-- What a rank has still to ask and what it has been answered. -/
structure Rank where
  calls : List Request
  stage : Stage := .idle
  answers : List Response := []
  deriving DecidableEq, Repr

/-- All that the ranks share, and where each of them is. -/
structure Cluster (n : ℕ) where
  ranks : Fin (n + 1) → Rank
  board : Board n := {}
  gate : Gate := {}

namespace Cluster

/-- One rank moves on while the others stay where they are. -/
def move (c : Cluster n) (r : Fin (n + 1)) (own : Rank) : Cluster n :=
  { c with ranks := Function.update c.ranks r own }

/-- One rank moves on to wait at the gate. -/
def arrive (c : Cluster n) (r : Fin (n + 1)) (own : Rank) : Cluster n :=
  { c.move r own with gate := c.gate.arrive (n + 1) }

/-- The next step of a rank, unless it waits for the gate or has nothing left to ask. -/
def step (c : Cluster n) (r : Fin (n + 1)) : Option (Cluster n) :=
  match c.ranks r with
  | ⟨[], .idle, _⟩ => none
  | ⟨q :: later, .idle, answers⟩ =>
    some { c.move r ⟨later, .published q, answers⟩ with board := c.board.publish r q }
  | ⟨later, .published q, answers⟩ =>
    some (c.arrive r ⟨later, .meeting q c.gate.generation, answers⟩)
  | ⟨later, .meeting q g, answers⟩ =>
    if g = c.gate.generation then none else some (c.move r ⟨later, .met q, answers⟩)
  -- Ranks that only wait for each other have nothing to read and part at once.
  | ⟨later, .met .barrier, answers⟩ => some (c.move r ⟨later, .idle, answers ++ [.passed]⟩)
  | ⟨later, .met q, answers⟩ => some (c.move r ⟨later, .answered (c.board.answer r q), answers⟩)
  | ⟨later, .answered a, answers⟩ =>
    some (c.arrive r ⟨later, .parting a c.gate.generation, answers⟩)
  | ⟨later, .parting a g, answers⟩ =>
    if g = c.gate.generation then none else some (c.move r ⟨later, .idle, answers ++ [a]⟩)

/-- The ranks take steps in the order of a schedule. A rank that cannot go on is passed over. -/
def run (c : Cluster n) (schedule : List (Fin (n + 1))) : Cluster n :=
  schedule.foldl (fun c r ↦ (c.step r).getD c) c

end Cluster

/-! ## Rounds -/

/-- A collective step of all ranks, with what each of them hands over. -/
inductive Round (n : ℕ) where
  | gatherReal (values : Fin (n + 1) → Float)
  | gatherCount (values : Fin (n + 1) → Count)
  | gatherBuffer (buffers : Fin (n + 1) → Buffer)
  | broadcast (buffers : Fin (n + 1) → Buffer)
  | barrier

namespace Round

/-- What one rank asks in a round. -/
def request (r : Fin (n + 1)) : Round n → Request
  | gatherReal values => .gatherReal (values r)
  | gatherCount values => .gatherCount (values r)
  | gatherBuffer buffers => .gatherBuffer (buffers r)
  | broadcast buffers => .broadcast (buffers r)
  | barrier => .barrier

/-- What one rank is promised in return: rank zero gets what has been gathered, in the order of the
ranks, and everybody gets the buffer that rank zero broadcasts. -/
def answer (r : Fin (n + 1)) : Round n → Response
  | gatherReal values => .reals (if r = 0 then List.ofFn values else [])
  | gatherCount values => .counts (if r = 0 then List.ofFn values else [])
  | gatherBuffer buffers => .buffers (if r = 0 then List.ofFn buffers else [])
  | broadcast buffers => .buffer (buffers 0)
  | barrier => .passed

end Round

/-- Ranks that are about to take the same rounds. -/
def Cluster.start (rounds : List (Round n)) : Cluster n :=
  { ranks := fun r ↦ { calls := rounds.map (Round.request r) } }

end SectionMonitor
