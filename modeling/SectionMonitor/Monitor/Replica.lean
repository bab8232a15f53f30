import SectionMonitor.Monitor.Properties

/-!
# Replicas

A replica is a monitor for one thread: it knows the labels of its parent with the same properties,
but measures on its own. Replicas are folded back into the parent section by section: the time of
a section grows by its longest share and its work by all shares.
-/

namespace SectionMonitor

/-! ## Making a replica -/

/-- A section with what it measured, but in all else like the section of its parent. -/
def Section.imitate (s parent : Section) : Section :=
  { s with
    properties := parent.properties
    binding := parent.binding
    source := parent.source }

namespace Monitor

/-- Makes a section of a parent known to its replica. -/
def adopt (r : Monitor) (parent : Section) : Monitor :=
  (r.register parent.label).modifySection (r.indexOf parent.label) fun s ↦ s.imitate parent

/-- Makes all sections of a parent known, in order, with what is written to the log. -/
def adoptAll : Monitor → List Section → Monitor × List Notice
  | r, [] => (r, [])
  | r, parent :: rest =>
    let (r', notices) := adoptAll (r.adopt parent) rest
    (r', r.registration parent.label ++ notices)

/-- A replica for a thread. It keeps no timeline, and its root section does not run. An exclusive
section that runs in the parent bars the replica from starting another one. -/
def replicate (m : Monitor) (thread : Nat) : Monitor × List Notice :=
  let (r, notices) := adoptAll (blank m.settings m.events (.thread thread) .idle) m.sections
  -- Both registries list the same labels in the same order, so the handle keeps its meaning.
  ({ r with token := m.token }, notices)

/-- The replica for a thread. -/
def replica (m : Monitor) (thread : Nat) : Monitor := (m.replicate thread).1

/-! ## Folding replicas back -/

/-- Registers every section of the replicas in turn and takes over the properties that a replica
bound by name. Stops where these are in conflict with what is known by then. -/
def reconcile : Monitor → List Section → Outcome Unit
  | m, [] => .success () m []
  | m, s :: rest =>
    let notices := m.registration s.label
    let m₁ := m.register s.label
    let bound := if s.binding = .explicit then m₁.bind (m.indexOf s.label) s.properties else .ok m₁
    match bound with
    | .error v => .refusal v m₁ notices
    | .ok m₂ =>
      let later := reconcile m₂ rest
      { later with log := notices.map .notice ++ later.log }

/-- What the replicas measured under a label, in their order. -/
def sharesOf (shares : List Section) (label : String) : List Totals :=
  (shares.filter fun s ↦ s.label = label).map Section.totals

/-- Adds to every section what the replicas measured under its label. -/
def absorb (m : Monitor) (shares : List Section) : Monitor :=
  { m with sections := m.sections.map fun s ↦ s.absorb (sharesOf shares s.label) }

/-- Folds replicas into a monitor. -/
def merge (m : Monitor) (replicas : List Monitor) : Outcome Unit :=
  match replicas.findSome? running? with
  | some s => .refusal (.runningDuringMerge s.label) m []
  | none =>
    let shares := replicas.flatMap Monitor.sections
    let reconciled := m.reconcile shares
    match reconciled.result with
    -- Labels and bindings that came before the conflict stay; no time or work is added.
    | .error v => { reconciled with result := .error v }
    | .ok () =>
      { result := .ok ()
        monitor := reconciled.monitor.absorb shares
        log := reconciled.log ++ [.notice (.merged replicas.length)] }

end Monitor

end SectionMonitor
