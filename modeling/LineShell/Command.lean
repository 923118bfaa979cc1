import LineShell.Text.Lines
import LineShell.Text.Lowercase
import LineShell.Variables

/-!
# Commands

The named commands of the shell, in the order in which they were registered. A name is found in any
case. Main statement: registering a command under the name of another one puts it in the other
one's place.
-/

namespace LineShell

/-- What a command asks for. -/
inductive Response
  | text (s : String)
  | clear
  /-- The listing of all commands. -/
  | help
deriving DecidableEq, Repr

/-- A command. -/
structure Command where
  name : String
  description : String
  run : Variables → Response

/-- Commands by their name in lowercase. -/
abbrev Commands := OrderedMap String Command

namespace Commands

/-- Adds a command, in the place of the one of the same name if there is one. -/
def register (cs : Commands) (c : Command) : Commands :=
  cs.insert (Text.lowercase c.name) c

/-- The command of a name. -/
def find? (cs : Commands) (name : String) : Option Command :=
  cs.get? (Text.lowercase name)

/-- What the command of a name asks for. -/
def run? (cs : Commands) (name : String) (vars : Variables) : Option Response :=
  (cs.find? name).map fun c => c.run vars

/-- The commands in order. -/
def list (cs : Commands) : List Command := cs.toList.map Prod.snd

/-! ## The listing -/

/-- Blanks behind a text up to a width of `n` characters. -/
def pad (n : Nat) (s : String) : String :=
  s ++ String.ofList (List.replicate (n - s.length) ' ')

/-- A row of the listing. -/
def helpRow (usage description : String) : String :=
  pad 19 usage ++ "- " ++ description

/-- What can be entered besides commands. -/
def usage : List (String × String) :=
  [("<var> = <value>", "Declare variable (e.g., name = 'John', age = 25, active = True)"),
    ("<var>", "Display variable value"),
    ("<expression>", "Evaluate math expression (e.g., 2 + 3 * 4)")]

/-- The lines of the listing of all commands. -/
def helpLines (cs : Commands) : List String :=
  "Available commands:"
    :: usage.map (fun (u, d) => helpRow u d) ++ cs.list.map fun c => helpRow c.name c.description

/-- The listing of all commands. -/
def helpText (cs : Commands) : String := Text.joinLines cs.helpLines

/-! ## The commands of every shell -/

/-- Lists the variables. -/
def vars : Command where
  name := "vars"
  description := "List all declared variables"
  run := fun vars =>
    if vars.isEmpty then .text "No variables declared"
    else .text (Text.joinLines (vars.toList.map Variables.row))

/-- Clears the transcript. -/
def clear : Command where
  name := "clear"
  description := "Clear terminal output"
  run := fun _ => .clear

/-- Lists the commands. -/
def help : Command where
  name := "help"
  description := "Show this help message"
  run := fun _ => .help

/-- The commands of every shell. -/
def builtin : Commands := [vars, clear, help].foldl register ∅

/-- A command is found under its name in any case, and takes no other name away. -/
theorem find?_register (cs : Commands) (c : Command) (name : String) :
    (cs.register c).find? name =
      if Text.lowercase name = Text.lowercase c.name then some c else cs.find? name :=
  OrderedMap.get?_insert ..

end Commands

end LineShell
