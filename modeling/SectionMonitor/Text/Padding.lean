/-!
# Columns

A column of a table has a width in characters. A text that is too long is not cut; it pushes the
rest of its line to the right.
-/

namespace SectionMonitor.Text

/-- Fills up with blanks on the right, so that the text stands at the left of its column. -/
def alignLeft (width : Nat) (s : String) : String := s.pushn ' ' (width - s.length)

/-- Fills up with blanks on the left, so that the text stands at the right of its column. -/
def alignRight (width : Nat) (s : String) : String := "".pushn ' ' (width - s.length) ++ s

end SectionMonitor.Text
