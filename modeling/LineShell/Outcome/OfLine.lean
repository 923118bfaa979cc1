import LineShell.Assignment
import LineShell.Command
import LineShell.Expr.Eval
import LineShell.Expr.Parser
import LineShell.Outcome

/-!
# The outcome of a line

A line is taken as the first of these that it is: blank, an assignment, a command, the name of a
variable, an expression that has a value. Any other line is unknown. The variables are only looked
at; it is for the session to carry an assignment out.
-/

namespace LineShell

/-- The value of a text as an expression. -/
def Expr.evalText (vars : Variables) (s : String) : Except ShellError Value :=
  match Expr.ofText vars.contains s with
  | .error e => .error (.parse e)
  | .ok e =>
    match e.eval vars with
    | .error e => .error (.eval e)
    | .ok v => .ok v

namespace Outcome

/-- The outcome of a command's response. -/
def ofResponse (commands : Commands) : Response → Outcome
  | .text s => .output s
  | .clear => .cleared
  | .help => .output commands.helpText

/-- The outcome of a name that is no command. -/
def ofName (vars : Variables) (name : String) : Outcome :=
  match vars.get? name with
  | some v => .output v.literal
  | none => .failed (.eval (.unbound name))

/-- The outcome of a line that can be nothing but an expression. -/
def ofExpression (vars : Variables) (line : String) : Outcome :=
  if looksLikeExpression line.toList then
    match Expr.evalText vars line with
    | .ok v => .output v.display
    | .error _ => .failed (.unknownLine line)
  else .failed (.unknownLine line)

/-- The outcome of a line without blanks at its ends. -/
def ofTrimmed (commands : Commands) (vars : Variables) (line : String) : Outcome :=
  if line.isEmpty then .empty
  else
    match assignment? line with
    | some (name, v) => .assigned name v
    | none =>
      match commands.run? line vars with
      | some r => ofResponse commands r
      | none =>
        if isWord line.toList then ofName vars line else ofExpression vars line

/-- The outcome of a line. -/
def ofLine (commands : Commands) (vars : Variables) (line : String) : Outcome :=
  ofTrimmed commands vars (Text.trim line)

end Outcome

end LineShell
