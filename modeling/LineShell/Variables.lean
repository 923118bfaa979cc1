import LineShell.OrderedMap
import LineShell.Value

/-!
# Variables

The variables of a session, in the order in which they were first assigned.
-/

namespace LineShell

/-- The variables of a session. -/
abbrev Variables := OrderedMap String Value

namespace Variables

/-- One line of a listing of variables: the name and the value's literal form. -/
def row (b : String × Value) : String := b.1 ++ " = " ++ b.2.literal

end Variables

end LineShell
