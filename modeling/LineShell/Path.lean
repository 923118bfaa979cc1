import LineShell.Text.Pieces

/-!
# Paths

A path is kept as its text, because that is how it is shown and saved. What it means is the list of
the steps between its slashes. A single point is a step that stays where it is, so it only says that
there is a directory.
-/

namespace LineShell

/-- A path in a file system. -/
structure Path where
  text : String
deriving DecidableEq, Repr

namespace Path

/-- Whether the path starts at the root. -/
def isAbsolute (p : Path) : Bool := p.text.toList.head? = some '/'

/-- Whether the path ends in a slash, as only that of a directory may. -/
def endsInSlash (p : Path) : Bool := p.text.toList.getLast? = some '/'

/-- The steps from the start of the path to its end. -/
def steps (p : Path) : List String :=
  ((Text.pieces '/' p.text.toList).filter (· ≠ [])).map String.ofList

/-- The names on the way. -/
def names (p : Path) : List String := p.steps.filter (· ≠ ".")

/-- The path through names, from the root or not. -/
def ofNames (absolute : Bool) (ns : List String) : Path :=
  let cs := Text.joinPieces '/' (ns.map String.toList)
  ⟨String.ofList (if absolute then '/' :: cs else cs)⟩

/-- The path that a second one stands for when it is taken relative to the first. -/
def join (base p : Path) : Path :=
  if p.isAbsolute || base.text.isEmpty then p
  else if base.text.toList.getLast? = some '/' then ⟨base.text ++ p.text⟩
  else ⟨base.text ++ "/" ++ p.text⟩

/-- The path without its last name, if it has one. -/
def parent? (p : Path) : Option Path :=
  match p.names with
  | [] => none
  | ns => some (ofNames p.isAbsolute ns.dropLast)

end Path

end LineShell
