import LineShell.Json.Lexeme

/-!
# From lexemes to JSON values

A machine that holds the containers that are open and what may come next. It looks at each lexeme
once, so nothing limits how deeply containers may be nested.
-/

namespace LineShell.Json

/-- A container that is open, with what it holds so far, newest first. -/
inductive Frame
  | array (items : List Raw)
  /-- An object, and the key of the member whose value is being read. -/
  | object (members : List (List Piece × Raw)) (key : List Piece)

/-- What may come next, inside the containers that are open, innermost first. -/
inductive Reading
  /-- A value. -/
  | value (frames : List Frame)
  /-- The first item of an array, or its end. -/
  | firstItem (frames : List Frame)
  /-- The first key of an object, or its end. -/
  | firstKey (frames : List Frame)
  /-- A key of an object that holds members already. -/
  | key (members : List (List Piece × Raw)) (frames : List Frame)
  /-- The colon behind a key. -/
  | colon (members : List (List Piece × Raw)) (key : List Piece) (frames : List Frame)
  /-- A comma or the end of the array. -/
  | moreItems (items : List Raw) (frames : List Frame)
  /-- A comma or the end of the object. -/
  | moreMembers (members : List (List Piece × Raw)) (frames : List Frame)
  /-- Nothing. -/
  | done (v : Raw)

namespace Reading

/-- The reading goes on behind a value. -/
def complete (v : Raw) : List Frame → Reading
  | [] => .done v
  | .array items :: frames => .moreItems (v :: items) frames
  | .object members k :: frames => .moreMembers ((k, v) :: members) frames

/-- The reading goes on behind a lexeme that begins a value. -/
def begin (frames : List Frame) : Lexeme → Option Reading
  | .openArray => some (.firstItem frames)
  | .openObject => some (.firstKey frames)
  | .text ps => some (complete (.text ps) frames)
  | .atom v => some (complete v frames)
  | _ => none

/-- The reading goes on behind a lexeme. -/
def step : Reading → Lexeme → Option Reading
  | .value frames, l => begin frames l
  | .firstItem frames, .closeArray => some (complete (.array []) frames)
  | .firstItem frames, l => begin (.array [] :: frames) l
  | .firstKey frames, .closeObject => some (complete (.object []) frames)
  | .firstKey frames, .text k => some (.colon [] k frames)
  | .key members frames, .text k => some (.colon members k frames)
  | .colon members k frames, .colon => some (.value (.object members k :: frames))
  | .moreItems items frames, .comma => some (.value (.array items :: frames))
  | .moreItems items frames, .closeArray => some (complete (.array items.reverse) frames)
  | .moreMembers members frames, .comma => some (.key members frames)
  | .moreMembers members frames, .closeObject => some (complete (.object members.reverse) frames)
  | _, _ => none

end Reading

/-- The value that a text holds and nothing else. -/
def Raw.ofChars? (cs : List Char) : Option Raw := do
  let ls ← lexemes cs
  match ← ls.foldlM Reading.step (.value []) with
  | .done v => some v
  | _ => none

end LineShell.Json
