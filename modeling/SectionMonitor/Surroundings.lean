import SectionMonitor.Count
import SectionMonitor.Duration
import SectionMonitor.Volume

/-!
# Surroundings

What an operation of a monitor learns from outside: the time, the thread team, the hardware
counters. An operation asks each question at most once, so the answers it gets are a record of
values and functions, chosen anew for every operation.
-/

namespace SectionMonitor

/-- The threads of a process, as the threading runtime reports them. -/
structure Team where
  /-- How many threads a parallel region may have. -/
  size : Nat
  /-- The number of the thread that asks. -/
  current : Nat
  /-- Whether the thread that asks is inside a parallel region. -/
  inside : Bool
  deriving DecidableEq, Repr

namespace Team

/-- A process without threads. -/
def serial : Team := ⟨1, 0, false⟩

/-- A team of fixed size, seen from outside of any region. -/
def fixed (size : Nat) : Team := ⟨size, 0, false⟩

/-- How many threads run a parallel region: never none. -/
def threads (team : Team) : Nat := max 1 team.size

end Team

/-- The answers to one operation. -/
structure Surroundings where
  /-- The time since the monitor was built. -/
  now : Duration
  team : Team
  /-- The counters of a thread. -/
  read : Nat → Reading
  /-- What the counters of a thread advanced by since a reading. -/
  advance : Nat → Reading → Reading
  /-- The volume that counted events amount to. -/
  derive : CounterMode → Reading → Float

end SectionMonitor
