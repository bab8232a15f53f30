import SectionMonitor.Monitor.Basic

/-!
# Binding properties

A section is bound to its properties by name, at most once. Until then it has the defaults, and
these may be replaced as long as the section has not been used.
-/

namespace SectionMonitor

namespace Monitor

/-- Binds the section with a handle to properties. -/
def bind (m : Monitor) (i : Index) (requested : Properties) : Except Violation Monitor :=
  let s := m.sectionAt i
  match s.bind? requested with
  | some bound => .ok (m.modifySection i fun _ ↦ bound)
  | none => .error (.conflictingProperties s.label s.properties requested)

/-- Binds a label to properties. The label is registered if it is new. -/
def setProperties (m : Monitor) (label : String) (requested : Properties) : Outcome Index :=
  let i := m.indexOf label
  let m₁ := m.register label
  match m₁.bind i requested with
  | .error v => .refusal v m₁ (m.registration label)
  | .ok m₂ => .success i m₂ (m.registration label ++ [.bound label requested])

end Monitor

end SectionMonitor
