import LineShell.Json
import LineShell.Outcome

/-!
# Entries of the transcript

The transcript shows the lines that were entered and what they came to.
-/

namespace LineShell

/-- The prompt, as long as no other is configured. -/
def defaultPrompt : String := "$ "

/-- The kinds of entry. -/
inductive EntryKind
  | input
  | output
  | error
deriving DecidableEq, Repr

namespace EntryKind

/-- The word for a kind. -/
def name : EntryKind → String
  | .input => "input"
  | .output => "output"
  | .error => "error"

/-- The kind that a word stands for. -/
def ofName? (s : String) : Option EntryKind :=
  [EntryKind.input, .output, .error].find? fun k => k.name = s

@[simp] theorem ofName?_name (k : EntryKind) : ofName? k.name = some k := by
  cases k <;> decide

end EntryKind

/-- One entry of the transcript. -/
structure Entry where
  kind : EntryKind
  text : String
deriving DecidableEq, Repr

namespace Entry

/-- The plain text of an entry. An input stands behind the prompt. -/
def display (e : Entry) : String :=
  match e.kind with
  | .input => defaultPrompt ++ e.text
  | .output | .error => e.text

/-- The entry that shows an outcome, if anything does. -/
def ofOutcome? (o : Outcome) : Option Entry :=
  o.text?.map fun text => { kind := if o.isError then .error else .output, text }

/-- An entry as a JSON object. -/
def toJson (e : Entry) : Json :=
  .object [("kind", .text e.kind.name), ("text", .text e.text)]

end Entry

end LineShell
