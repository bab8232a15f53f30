import SectionMonitor.Surroundings
import SectionMonitor.Monitor.Basic

/-!
# Test benches

A bench replaces what a monitor learns from outside: a clock that moves only when it is told to,
a thread team that reports what it was set up with, and counters that show the readings they were
given. On a bench every measurement can be repeated exactly.
-/

namespace SectionMonitor

/-! ## Counters -/

/-- A counter adapter that shows prepared readings. -/
structure Adapter where
  /-- The events that it counts. -/
  events : List String := []
  /-- What one event of each kind adds to a derived volume; a missing weight is one. -/
  weights : List Float := []
  /-- What is added to every derived volume. -/
  offset : Float := 0
  /-- The readings by thread, the latest first. -/
  readings : List (Nat × Reading) := []
  deriving DecidableEq, Repr

namespace Adapter

/-- What the counters of a thread show; before anything was set, nothing. -/
def read (a : Adapter) (thread : Nat) : Reading := (a.readings.lookup thread).getD []

/-- Sets what the counters of a thread show. -/
def expose (a : Adapter) (thread : Nat) (reading : Reading) : Adapter :=
  { a with readings := (thread, reading) :: a.readings.filter fun r ↦ r.1 ≠ thread }

/-- The advance from one reading to another. Events that were not read before count from zero. -/
def difference : Reading → Reading → Reading
  | [], _ => []
  | now, [] => now
  | n :: now, b :: before => n.saturatingSub b :: difference now before

/-- The weighted sum of counted events, added from left to right. -/
def weigh : Float → List Float → Reading → Float
  | volume, _, [] => volume
  | volume, [], n :: counted => weigh (volume + 1 * n.toFloat) [] counted
  | volume, w :: weights, n :: counted => weigh (volume + w * n.toFloat) weights counted

/-- The volume that counted events amount to. -/
def volume (a : Adapter) (counted : Reading) : Float := weigh a.offset a.weights counted

end Adapter

/-! ## The clock -/

/-- A clock reading in nanoseconds. -/
abbrev Instant := Nat

/-- The latest time that the clock can show: its seconds fill 63 bits. -/
def Instant.limit : Nat := 9223372036854775808 * Duration.nanosPerSecond - 1

/-- A change of the clock. -/
inductive ClockMove where
  | advance (nanos : Nat)
  /-- Sets the clock, also to an earlier time. -/
  | set (nanos : Nat)
  deriving DecidableEq, Repr

/-- The time after a change. The clock stops at its latest time. -/
def ClockMove.apply (clock : Instant) : ClockMove → Instant
  | advance nanos => min (clock + nanos) Instant.limit
  | set nanos => min nanos Instant.limit

/-! ## The bench -/

/-- The clock of a thread, and the adapters that all threads share. -/
structure Bench where
  clock : Instant := 0
  adapters : List Adapter := []
  deriving DecidableEq, Repr

/-- A monitor on a bench. -/
structure Station where
  monitor : Monitor
  /-- The clock reading when the monitor was built. Replicas count from there too. -/
  epoch : Instant
  team : Team
  /-- The position of the monitor's adapter on the bench. -/
  adapter : Option Nat
  deriving DecidableEq, Repr

namespace Station

/-- The adapter of the monitor. -/
def adapterOn (st : Station) (bench : Bench) : Adapter :=
  (st.adapter.bind fun i ↦ bench.adapters[i]?).getD {}

/-- The time since the monitor was built, or zero if the clock was set back behind that. -/
def now (st : Station) (bench : Bench) : Duration := ⟨bench.clock - st.epoch⟩

/-- What an operation of the monitor learns from the bench. -/
def surroundings (st : Station) (bench : Bench) : Surroundings :=
  let adapter := st.adapterOn bench
  { now := st.now bench
    team := st.team
    read := adapter.read
    advance := fun thread before ↦ Adapter.difference (adapter.read thread) before
    derive := fun _ counted ↦ adapter.volume counted }

/-- Sets the counters of a thread. Without an adapter there is nothing to set. -/
def setCounters (st : Station) (bench : Bench) (thread : Nat) (reading : Reading) : Bench :=
  match st.adapter with
  | none => bench
  | some i => { bench with adapters := bench.adapters.modify i fun a ↦ a.expose thread reading }

end Station

end SectionMonitor
