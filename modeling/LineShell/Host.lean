import LineShell.Environment
import LineShell.FileSystem

/-!
# The computer that the shell runs on

What the shell asks of its surroundings is a short list of operations. They are given for a machine
that is a value, so that what the shell does with files can be computed and reasoned about.
-/

namespace LineShell

/-- The operations of the surroundings. -/
class Host (m : Type → Type) where
  /-- The environment that the shell is started with. -/
  environment : m Environment
  /-- Whether a path leads to anything. -/
  pathExists : Path → m Bool
  /-- The contents of a file. -/
  read : Path → m (Except FileError ByteArray)
  /-- Makes a directory and those on the way to it that are missing. -/
  makeDirectories : Path → m (Except FileError Unit)
  /-- Gives a file new contents. -/
  write : Path → ByteArray → m (Except FileError Unit)
  /-- Appends to a file. -/
  append : Path → ByteArray → m (Except FileError Unit)
  /-- Removes a file. -/
  remove : Path → m (Except FileError Unit)

/-- A machine: its files, the directory in which the shell runs, and the environment. -/
structure Machine where
  files : FileSystem
  directory : Place
  environment : Environment

namespace Machine

/-- Changes the files of a machine. -/
def change (f : FileSystem → Place → Except FileError Unit × FileSystem) :
    StateM Machine (Except FileError Unit) := fun mc =>
  let (r, files) := f mc.files mc.directory
  (r, { mc with files })

instance : Host (StateM Machine) where
  environment := fun mc => (mc.environment, mc)
  pathExists p := fun mc => (mc.files.pathExists mc.directory p, mc)
  read p := fun mc => (mc.files.read mc.directory p, mc)
  makeDirectories p := change fun fs here => fs.makeDirectories here p
  write p b := change fun fs here => fs.after (fs.write here p b)
  append p b := change fun fs here => fs.after (fs.append here p b)
  remove p := change fun fs here => fs.after (fs.remove here p)

end Machine

namespace Host

variable {m : Type → Type} [Monad m] [Host m]

/-- An operation on files as a step that may end the work with an error. -/
def orFail {α : Type} (act : m (Except FileError α)) : ExceptT ShellError m α := do
  match ← (act : m _) with
  | .ok a => return a
  | .error e => throw (.file e)

/-- The contents of a file as text. -/
def readText (p : Path) : ExceptT ShellError m String := do
  let bytes ← orFail (Host.read p)
  match String.fromUTF8? bytes with
  | some s => return s
  | none => throw (.file .invalidText)

/-- Makes the directory that a path is in. -/
def makeParent (p : Path) : ExceptT ShellError m Unit :=
  match p.parent? with
  | some parent => orFail (Host.makeDirectories parent)
  | none => return ()

end Host

end LineShell
