import LineShell.Entry
import LineShell.History
import LineShell.Outcome.OfLine

/-!
# Sessions

The state of one run of the shell: its variables, the transcript, and the history of lines. Lines
are submitted one after the other, and each is recorded before its outcome is carried out.
-/

namespace LineShell

/-- A session. -/
structure Session where
  vars : Variables
  entries : List Entry
  history : History

namespace Session

/-- A session in which nothing was submitted yet. -/
def start (history : History) : Session := { vars := ∅, entries := [], history }

instance : Inhabited Session := ⟨start default⟩

/-- Puts a line that is not blank into the history and the transcript. -/
def record (s : Session) (line : String) : Session :=
  { s with
    history := s.history.push line
    entries := s.entries ++ [{ kind := .input, text := line }] }

/-- Carries an outcome out: an assignment is kept, and the transcript is cleared or shows the
outcome. -/
def carryOut (s : Session) (o : Outcome) : Session :=
  let s := match o with
    | .assigned name value => { s with vars := s.vars.insert name value }
    | .cleared => { s with entries := [] }
    | _ => s
  { s with entries := s.entries ++ (Entry.ofOutcome? o).toList }

/-- The outcome of a line in a session. -/
def outcome (s : Session) (line : String) : Outcome :=
  .ofLine Commands.builtin s.vars line

/-- Submits a line. Of a blank line nothing is left. -/
def submit (s : Session) (line : String) : Session × Outcome :=
  match s.outcome line with
  | .empty => (s, .empty)
  | o => ((s.record (Text.trim line)).carryOut o, o)

/-- Recalls an older line. -/
def older (s : Session) : Session × Option String :=
  let (history, text) := s.history.older
  ({ s with history }, text)

/-- Recalls a newer line. -/
def newer (s : Session) : Session × Option String :=
  let (history, text) := s.history.newer
  ({ s with history }, text)

end Session

end LineShell
