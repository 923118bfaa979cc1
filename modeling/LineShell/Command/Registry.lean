import LineShell.Command
import LineShell.IndexedMap

/-!
# Registries of commands

The commands of a shell that can be extended: a table of commands by their name in lowercase, and
the names in the order in which they were registered.
-/

namespace LineShell

/-- Commands by their name in lowercase, as a table and a list of the names. -/
abbrev Registry := IndexedMap String Command

namespace Registry

/-- Adds a command, in the place of the one of the same name if there is one. -/
def register (r : Registry) (c : Command) : Registry := r.insert (Text.lowercase c.name) c

/-- Adds commands one after the other. -/
def registerAll (r : Registry) (cs : List Command) : Registry := cs.foldl register r

/-- The commands of every shell. -/
def builtin : List Command := [Commands.vars, Commands.clear, Commands.help]

/-- The registry of a shell that was not extended. -/
def start : Registry := registerAll ∅ builtin

/-- Whether there is a command of a name. -/
def has (r : Registry) (name : String) : Bool := r.contains (Text.lowercase name)

/-- What the command of a name asks for. -/
def run? (r : Registry) (name : String) (vars : Variables) : Option Response :=
  (r.get? (Text.lowercase name)).map fun c => c.run vars

/-- The commands of the listed names that the table holds. -/
def list (r : Registry) : List Command := r.order.filterMap fun k => r.get? k

/-- The lines of the listing of all commands. -/
def helpLines (r : Registry) : List String :=
  "Available commands:"
    :: Commands.usage.map (fun (u, d) => Commands.helpRow u d)
      ++ r.list.map fun c => Commands.helpRow c.name c.description

/-- The listing of all commands. -/
def helpText (r : Registry) : String := Text.joinLines r.helpLines

end Registry

end LineShell
