import SectionMonitor.Section

/-!
# Labels and handles

A registry hands out handles for labels: one, two, three and so on in the order of first use. The
root section has the handle zero and a label of its own, which no look-up leads to; a label that
happens to be spelled the same is a label like any other.

Both ways between labels and handles are kept: the labels in the order of their handles, and a table
that look-ups go through.
-/

namespace SectionMonitor

/-- The labels that have handles. -/
structure Registry where
  /-- In the order of their handles. -/
  labels : List String := []
  /-- Every label with its handle. -/
  handles : List (String × Index) := []
  deriving DecidableEq, Repr

namespace Registry

/-- How many handles there are, with that of the root section. -/
def size (r : Registry) : Nat := r.labels.length + 1

/-- The handle of a label. -/
def lookup (r : Registry) (label : String) : Option Index := r.handles.lookup label

/-- The label of a handle. -/
def label? (r : Registry) : Index → Option String
  | ⟨0⟩ => some "Root"
  | ⟨i + 1⟩ => r.labels[i]?

/-- The handle that a label has, or will have once it is added. -/
def indexOf (r : Registry) (label : String) : Index := (r.lookup label).getD ⟨r.size⟩

/-- Gives a label a handle if it has none. -/
def add (r : Registry) (label : String) : Registry :=
  if (r.lookup label).isSome then r
  else ⟨r.labels ++ [label], r.handles ++ [(label, ⟨r.size⟩)]⟩

end Registry

end SectionMonitor
