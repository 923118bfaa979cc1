import LineShell.LineBuffer
import LineShell.Session
import LineShell.Skin

/-!
# The console

A session that is worked with key by key, and the lines of its transcript as they are drawn.
-/

namespace LineShell

/-- The keys that have a meaning. -/
inductive KeyCode
  | enter
  | up
  | down
  | left
  | right
  | home
  | «end»
  | backspace
  | delete
  | char (c : Char)
  | other
deriving DecidableEq, Repr

/-- A key and what is held down with it. -/
structure Key where
  code : KeyCode
  ctrl : Bool
  alt : Bool
deriving DecidableEq, Repr

/-- What a key comes to. -/
inductive KeyAction
  /-- Nothing has changed. -/
  | ignored
  /-- The input line may have changed. -/
  | edited
  | submitted (o : Outcome)
  | exit
deriving DecidableEq

/-- A session with an input line, and how its transcript is drawn. -/
structure Console where
  prompt : String
  skin : Skin
  session : Session
  input : LineBuffer

namespace Console

/-- A console whose input line is empty. -/
def start (prompt : String) (skin : Skin) (session : Session) : Console :=
  { prompt, skin, session, input := .empty }

/-- Submits a line. -/
def submit (c : Console) (line : String) : Console × KeyAction :=
  let (session, o) := c.session.submit line
  ({ c with session }, .submitted o)

/-- Shows a recalled line, if there is one. -/
def showRecalled (c : Console) (step : Session → Session × Option String) : Console × KeyAction :=
  match step c.session with
  | (session, some text) => ({ c with session, input := c.input.set text }, .edited)
  | (session, none) => ({ c with session }, .ignored)

/-- Edits the input line. -/
def edit (c : Console) (f : LineBuffer → LineBuffer) : Console × KeyAction :=
  ({ c with input := f c.input }, .edited)

/-- Leaves an empty line with `exit`, and does something else with another one. -/
def exitOr (c : Console) (other : Console × KeyAction) : Console × KeyAction :=
  if c.input.isEmpty then (c, .exit) else other

/-- A character that is pressed together with the control key. -/
def control (c : Console) (k : Char) : Console × KeyAction :=
  if k = 'c' then c.exitOr (c.edit fun _ => .empty)
  else if k = 'd' then c.exitOr (c, .ignored)
  else if k = 'l' then c.submit "clear"
  else (c, .ignored)

/-- Presses a key. -/
def press (c : Console) (k : Key) : Console × KeyAction :=
  match k.code with
  | .enter =>
    let (input, line) := c.input.take
    { c with input }.submit line
  | .up => c.showRecalled Session.older
  | .down => c.showRecalled Session.newer
  | .left => c.edit LineBuffer.left
  | .right => c.edit LineBuffer.right
  | .home => c.edit LineBuffer.toStart
  | .end => c.edit LineBuffer.toEnd
  | .backspace => c.edit LineBuffer.backspace
  | .delete => c.edit LineBuffer.delete
  | .char ch =>
    if k.ctrl then c.control ch
    else if k.alt then (c, .ignored)
    else c.edit fun b => b.insert ch
  | .other => (c, .ignored)

/-! ## The transcript -/

/-- The lines of an entry as they are drawn. -/
def entryLines (c : Console) (e : Entry) : List String :=
  (Text.splitLines e.text).map fun line => c.skin.renderEntry c.prompt { e with text := line }

/-- All lines of the transcript. -/
def allLines (c : Console) : List String := c.session.entries.flatMap c.entryLines

/-- The last `n` lines of the transcript. -/
def transcriptLines (c : Console) (n : Nat) : List String := History.lastN n c.allLines

end Console

end LineShell
