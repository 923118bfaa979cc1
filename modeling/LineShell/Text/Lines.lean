import LineShell.Text.Pieces

/-!
# Lines

A text as the pieces between its line feeds, and as the lines of a file. Main statement: joining
the pieces gives the text back.
-/

namespace LineShell.Text

/-- A line without the carriage return at its end, if it has one. -/
def dropReturn (cs : List Char) : List Char :=
  if cs.getLast? = some '\r' then cs.dropLast else cs

/-- The lines among the pieces: every piece but the last was ended by a line feed, perhaps after a
carriage return, and the last is a line only if there is something in it. -/
def linesOfPieces : List (List Char) → List (List Char)
  | [] => []
  | [p] => if p = [] then [] else [p]
  | p :: q :: ps => dropReturn p :: linesOfPieces (q :: ps)

/-- The lines of a file. -/
def lines (s : String) : List String :=
  (linesOfPieces (pieces '\n' s.toList)).map String.ofList

/-- The text cut at its line feeds. -/
def splitLines (s : String) : List String :=
  (pieces '\n' s.toList).map String.ofList

/-- Lines put together into one text. -/
def joinLines (ls : List String) : String :=
  String.ofList (joinPieces '\n' (ls.map String.toList))

@[simp] theorem joinLines_splitLines (s : String) : joinLines (splitLines s) = s := by
  simp [joinLines, splitLines, Function.comp_def, joinPieces_pieces]

end LineShell.Text
