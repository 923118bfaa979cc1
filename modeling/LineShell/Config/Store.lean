import LineShell.Config
import LineShell.Host
import LineShell.Path.Expansion
import LineShell.Text.Lines
import LineShell.Text.Blank
import LineShell.Toml.Document

/-!
# Stored configuration and history

Reading and writing the configuration file and the file of submitted lines.
-/

namespace LineShell.Config

variable {m : Type → Type} [Monad m] [Host m]

/-! ## The configuration file -/

/-- The configuration in the text of a file, with the settings of `c` where the file has none. -/
def ofText? (s : String) (c : Config) : Option Config :=
  (Toml.ofChars? s.toList).bind fun members => ofDocument? members c

/-- The configuration in a file, or the default one if there is no file. Without a path it is the
file in the default directory. -/
def load (p? : Option Path) : ExceptT ShellError m Config := do
  let env ← (Host.environment : m _)
  let file := match p? with
    | some p => p.expand env
    | none => env.configDirectory.join ⟨configFileName⟩
  if ← (Host.pathExists file : m _) then
    let s ← Host.readText file
    match ofText? s (Config.default env) with
    | some c => return c
    | none => throw (.config .malformed)
  else return Config.default env

/-- The file that a configuration is written to: the one that is asked for, or the one in its own
directory. -/
def target (env : Environment) (c : Config) (p? : Option Path) : Path :=
  match p? with
  | some p => p.expand env
  | none => c.configDirectory.join ⟨configFileName⟩

/-- Writes a configuration to a file, in a directory that is made if it is missing. -/
def save (c : Config) (p? : Option Path) : ExceptT ShellError m Unit := do
  let env ← (Host.environment : m _)
  let file := c.target env p?
  Host.makeParent file
  match c.toToml? with
  | none => throw (.config .tooLarge)
  | some s => Host.orFail (Host.write file s.toUTF8)

/-- Writes a configuration to a file, which must not be there yet unless it is forced, and gives
back the file. -/
def init (c : Config) (p? : Option Path) (force : Bool) : ExceptT ShellError m Path := do
  let env ← (Host.environment : m _)
  let file := c.target env p?
  if (← (Host.pathExists file : m _)) && !force then throw (.config .alreadyExists)
  c.save (some file)
  return file

/-! ## The history file -/

/-- The lines in the text of a history file, trimmed and without those that are blank. -/
def historyLines (s : String) : List String :=
  ((Text.lines s).map Text.trim).filter fun l => !l.isEmpty

/-- The lines that were kept, the newest ones up to the size of the history. -/
def loadHistory (c : Config) : ExceptT ShellError m (List String) := do
  if !c.persistHistory then return []
  if !(← (Host.pathExists c.historyFile : m _)) then return []
  let s ← Host.readText c.historyFile
  return History.lastN c.maxHistorySize (historyLines s)

/-- Keeps a line. -/
def appendHistory (c : Config) (line : String) : ExceptT ShellError m Unit := do
  if !c.persistHistory then return ()
  Host.makeParent c.historyFile
  Host.orFail (Host.append c.historyFile (line ++ "\n").toUTF8)

/-- Forgets the lines that were kept. -/
def clearHistory (c : Config) : ExceptT ShellError m Unit := do
  if ← (Host.pathExists c.historyFile : m _) then
    Host.orFail (Host.remove c.historyFile)

end LineShell.Config
