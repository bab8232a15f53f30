import SectionMonitor.Count
import SectionMonitor.Duration
import SectionMonitor.Volume

/-!
# Sections

A section is a named part of a program whose time, volume and hardware events are measured. It is
idle or running; every interval from a start to the stop after it is added to its totals. Its
properties say what it measures and whether it may overlap others.
-/

namespace SectionMonitor

/-- The handle of a section: its place in the order of registration. Zero is the root section,
which spans the life of the monitor. -/
structure Index where
  place : Nat
  deriving DecidableEq, Repr

namespace Index

/-- The handle of the root section. -/
def root : Index := ⟨0⟩

/-- The written form of a handle. -/
def render (i : Index) : String := "#" ++ Nat.repr i.place

end Index

/-! ## What is known about a section -/

/-- How a section came by its properties. -/
inductive Binding where
  /-- By default, when its label was first used. -/
  | implicit
  /-- By a request that names them. -/
  | explicit
  deriving DecidableEq, Repr

/-- What a section measures, and whether it excludes other exclusive sections while it runs. -/
structure Properties where
  kind : Kind := .computation
  exclusive : Bool := true
  deriving DecidableEq, Repr

namespace Properties

/-- The written form of the exclusivity. -/
def exclusiveName (p : Properties) : String := if p.exclusive then "true" else "false"

/-- The written form of all properties. -/
def render (p : Properties) : String :=
  p.kind.name ++ " (exclusive: " ++ p.exclusiveName ++ ")"

end Properties

/-- The counters of one thread when an interval began. -/
structure Snapshot where
  thread : Nat
  reading : Reading
  deriving DecidableEq, Repr

/-- Whether an interval is open. -/
inductive Phase where
  | idle
  /-- Open since a point in time, with one snapshot per measured thread. -/
  | running (since : Duration) (snapshots : List Snapshot)
  deriving DecidableEq, Repr

/-- The sums over all finished intervals of a section. -/
structure Totals where
  elapsed : Duration := .zero
  volume : Float := 0
  calls : Count := 0
  counters : Reading := []
  deriving DecidableEq, Repr

/-- Adds one finished interval. The calls stop at the largest count, as all counts do; that a program
is aborted instead when it finishes one interval more than can be counted is left out. -/
def Totals.record (t : Totals) (elapsed : Duration) (volume : Float) (counters : Reading) :
    Totals where
  elapsed := t.elapsed.saturatingAdd elapsed
  volume := t.volume + volume
  calls := t.calls.saturatingAdd 1
  counters := t.counters.accumulate counters

/-- A named part of a program and all that was measured of it. -/
structure Section where
  label : String
  properties : Properties := {}
  binding : Binding := .implicit
  source : VolumeSource
  totals : Totals := {}
  phase : Phase := .idle
  deriving DecidableEq, Repr

namespace Section

/-- What the section measures. -/
def kind (s : Section) : Kind := s.properties.kind

/-- Whether the section excludes other exclusive sections. -/
def exclusive (s : Section) : Bool := s.properties.exclusive

/-- Whether an interval of the section is open. -/
def isRunning (s : Section) : Bool :=
  match s.phase with
  | .idle => false
  | .running _ _ => true

/-- The root section: it overlaps everything, has no volume and cannot be redefined. -/
def root (phase : Phase) : Section where
  label := "Root"
  properties := ⟨.computation, false⟩
  binding := .explicit
  source := .timeOnly
  phase := phase

/-- Forgets all finished intervals, but not what the section is. -/
def clear (s : Section) : Section := { s with totals := {} }

/-- Adds a finished interval and closes it. -/
def finish (s : Section) (elapsed : Duration) (volume : Float) (counters : Reading) : Section :=
  { s with totals := s.totals.record elapsed volume counters, phase := .idle }

/-- Whether properties may still be chosen: nobody named them and no interval depends on them. -/
def isOpenToBinding (s : Section) : Bool :=
  s.binding = .implicit && s.totals.calls == 0 && !s.isRunning

/-- Gives the section the properties, or refuses if it has others that are no longer open. -/
def bind? (s : Section) (properties : Properties) : Option Section :=
  if s.properties = properties || s.isOpenToBinding then
    some { s with properties := properties, binding := .explicit }
  else none

end Section

/-! ## Shares of a parallel region

The threads of a parallel region measure the same section separately. The region counts as one
stretch of time as long as its longest share, while the work of all threads adds up. -/

/-- The share with the longest time, the most intervals and the work of both. -/
def Totals.besides (t share : Totals) : Totals where
  elapsed := t.elapsed.longer share.elapsed
  volume := t.volume + share.volume
  calls := if t.calls < share.calls then share.calls else t.calls
  counters := t.counters.accumulate share.counters

/-- Adds what a region took and did. -/
def Totals.absorb (t region : Totals) : Totals where
  elapsed := t.elapsed.saturatingAdd region.elapsed
  volume := t.volume + region.volume
  calls := t.calls.saturatingAdd region.calls
  counters := t.counters.accumulate region.counters

/-- Adds the region that several shares make up; without a share nothing changes. -/
def Section.absorb (s : Section) (shares : List Totals) : Section :=
  if shares.isEmpty then s
  else { s with totals := s.totals.absorb (shares.foldl Totals.besides {}) }

namespace Section

variable (s : Section) (shares : List Totals)

/-- Shares change nothing but the sums. -/
theorem absorb_eq_with_totals :
    s.absorb shares = { s with totals := (s.absorb shares).totals } := by
  rw [absorb]
  split <;> rfl

@[simp] theorem label_absorb : (s.absorb shares).label = s.label := by
  rw [absorb_eq_with_totals]

@[simp] theorem properties_absorb : (s.absorb shares).properties = s.properties := by
  rw [absorb_eq_with_totals]

@[simp] theorem binding_absorb : (s.absorb shares).binding = s.binding := by
  rw [absorb_eq_with_totals]

@[simp] theorem source_absorb : (s.absorb shares).source = s.source := by
  rw [absorb_eq_with_totals]

@[simp] theorem phase_absorb : (s.absorb shares).phase = s.phase := by
  rw [absorb_eq_with_totals]

end Section

end SectionMonitor
