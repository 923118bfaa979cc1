import LineShell.Error
import LineShell.Value.Json

/-!
# Outcomes

What a line of input comes to, the text that shows it, and its form in JSON.
-/

namespace LineShell

/-- What a line comes to. -/
inductive Outcome
  /-- The line is blank. -/
  | empty
  | assigned (name : String) (value : Value)
  | output (text : String)
  | failed (e : ShellError)
  /-- The transcript is to be cleared. -/
  | cleared
deriving DecidableEq

namespace Outcome

/-- The text that shows an outcome. -/
def text? : Outcome → Option String
  | .assigned name value => some (name ++ " = " ++ value.literal)
  | .output text => some text
  | .failed e => some e.message
  | .empty | .cleared => none

@[simp] theorem text?_assigned (name : String) (v : Value) :
    (assigned name v).text? = some (name ++ " = " ++ v.literal) := rfl

@[simp] theorem text?_output (s : String) : (output s).text? = some s := rfl

@[simp] theorem text?_failed (e : ShellError) : (failed e).text? = some e.message := rfl

/-- Every outcome is shown but those of a blank line and of one that clears. -/
theorem text?_eq_none_iff {o : Outcome} : o.text? = none ↔ o = .empty ∨ o = .cleared := by
  cases o <;> simp [text?]

example : (assigned "x" (.text "it's")).text? = some "x = 'it's'" := by decide

def isError : Outcome → Bool
  | .failed _ => true
  | _ => false

/-- The word for the kind of an outcome. -/
def kindName : Outcome → String
  | .empty => "empty"
  | .assigned _ _ => "assigned"
  | .output _ => "output"
  | .failed _ => "error"
  | .cleared => "cleared"

/-- What an outcome says besides its kind. -/
def fields : Outcome → List (String × Json)
  | .assigned name value => [("name", .text name), ("value", value.toJson)]
  | .output text => [("text", .text text)]
  | .failed e => [("text", .text e.message)]
  | .empty | .cleared => []

/-- An outcome as a JSON object. -/
def toJson (o : Outcome) : Json := .object (("outcome", .text o.kindName) :: o.fields)

end Outcome

end LineShell
