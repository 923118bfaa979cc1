import LineShell.Program
import LineShell.Text.Utf8

/-!
# The executable

The real computer as a host, and the entry point.
-/

namespace LineShell

/-- What an error of the operating system says about a file. -/
def FileError.ofIO : IO.Error → FileError
  | .noFileOrDirectory .. => .notFound
  | .alreadyExists .. => .alreadyExists
  | .inappropriateType .. => .isADirectory
  | .unsatisfiedConstraints .. => .notADirectory
  | .invalidArgument .. => .invalidPath
  | _ => .other

/-- An operation on files whose errors are values. -/
def attempt {α : Type} (act : IO α) : IO (Except FileError α) := do
  try return .ok (← act)
  catch e => return .error (.ofIO e)

/-- The contents of a file of the system, or nothing if it cannot be read. -/
def contents (file : String) : IO String := do
  match ← attempt (IO.FS.readBinFile file) with
  | .ok bytes => return Text.Utf8.decodeLossy bytes
  | .error _ => return ""

/-- The variables in the text of an environment, each of which ends with a zero. -/
def variablesOf (s : String) : List (String × String) :=
  (Text.pieces '\x00' s.toList).filterMap fun cs =>
    match Text.splitFirst '=' cs with
    | (_, none) => none
    | (name, some value) => some (String.ofList name, String.ofList value)

/-- The number of the user in the status of a process. -/
def userOf (status : String) : String :=
  ((Text.pieces '\n' status.toList).findSome? fun line =>
    match (Text.pieces '\t' line).map String.ofList with
    | "Uid:" :: user :: _ => some user
    | _ => none).getD ""

instance : Host IO where
  environment := do
    let vars := variablesOf (← contents "/proc/self/environ")
    let user := userOf (← contents "/proc/self/status")
    let account? := Environment.directoryOnRecord? user (← contents "/etc/passwd")
    return { Environment.ofList vars with account? }
  pathExists p := do
    match ← attempt (IO.FS.Handle.mk p.text .read) with
    | .ok _ | .error .isADirectory => return true
    | .error _ => return false
  read p := attempt (IO.FS.readBinFile p.text)
  makeDirectories p := attempt (IO.FS.createDirAll p.text)
  write p bytes := attempt (IO.FS.writeBinFile p.text bytes)
  append p bytes := attempt do
    let h ← IO.FS.Handle.mk p.text .append
    h.write bytes
  remove p := attempt (IO.FS.removeFile p.text)

end LineShell

/-- Runs the program on the computer. -/
def main (args : List String) : IO UInt32 := do
  let r ← (LineShell.Program.run args : IO LineShell.Run)
  IO.print r.printed
  if let some complaint := r.complaint then IO.eprintln complaint
  return r.exitCode.toUInt32
