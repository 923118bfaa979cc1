import LineShell.Config.Store
import LineShell.Session

/-!
# The shell

A session under a configuration, for lines that are given to the program and for scripts. Lines are
submitted to the session, the entries that they add are printed, and lines that are given one by
one are kept in the history file.
-/

namespace LineShell

/-- How entries are printed. -/
inductive OutputFormat
  /-- In the colours of the skin. -/
  | text
  /-- As JSON, one object a line. -/
  | json
deriving DecidableEq, Repr

/-- A session under a configuration. -/
structure Shell where
  config : Config
  session : Session
  format : OutputFormat

namespace Shell

/-! ## Printing -/

/-- An entry as it is printed. -/
def renderEntry (sh : Shell) (e : Entry) : String :=
  match sh.format with
  | .text => sh.config.skin.renderEntry sh.config.prompt e
  | .json => e.toJson.render

theorem renderEntry_of_text {sh : Shell} (h : sh.format = .text) (e : Entry) :
    sh.renderEntry e = sh.config.skin.renderEntry sh.config.prompt e := by
  rw [renderEntry, h]

theorem renderEntry_of_json {sh : Shell} (h : sh.format = .json) (e : Entry) :
    sh.renderEntry e = e.toJson.render := by
  rw [renderEntry, h]

/-- Entries as they are printed. -/
def renderEntries (sh : Shell) (es : List Entry) : List String := es.map sh.renderEntry

/-! ## Submitting lines -/

/-- Submits a line, and gives back its outcome and the entries that it added. -/
def submit (sh : Shell) (line : String) : Shell × Outcome × List Entry :=
  let before := sh.session.entries.length
  let (session, o) := sh.session.submit line
  let added := match o with
    | .empty | .cleared => []
    | _ => session.entries.drop before
  ({ sh with session }, o, added)

/-- The lines of a script that are submitted: trimmed, and neither blank nor comments. -/
def scriptLines (s : String) : List String :=
  ((Text.lines s).map Text.trim).filter fun l =>
    l.toList.head? ≠ none ∧ l.toList.head? ≠ some '#'

/-- What came of running some lines. -/
structure Report where
  /-- How many lines failed. -/
  errors : Nat
  /-- What was printed, line by line. -/
  printed : List String
deriving DecidableEq, Repr

/-- Submits lines one after the other, and prints all entries. -/
def runLines (sh : Shell) : List String → Shell × Report
  | [] => (sh, { errors := 0, printed := [] })
  | line :: lines =>
    let (sh', o, added) := sh.submit line
    let (sh'', report) := sh'.runLines lines
    (sh'', { errors := report.errors + if o.isError then 1 else 0
             printed := sh.renderEntries added ++ report.printed })

variable {m : Type → Type} [Monad m] [Host m]

/-- A shell that remembers the lines that were kept. -/
def start (config : Config) (format : OutputFormat) : ExceptT ShellError m Shell := do
  let lines ← config.loadHistory
  let history := (History.empty config.maxHistorySize).pushAll lines
  return { config, session := Session.start history, format }

/-- Runs a line and prints what it comes to. The line is kept, unless it is blank; if that fails,
nothing is printed, but the line has been submitted. -/
def execute (sh : Shell) (line : String) :
    m (Shell × Except ShellError (Outcome × List String)) := do
  let (sh', o, added) := sh.submit line
  let printed := sh'.renderEntries (added.filter fun e => e.kind ≠ .input)
  match o with
  | .empty => return (sh', .ok (o, printed))
  | _ =>
    match ← (sh.config.appendHistory (Text.trim line)).run with
    | .ok () => return (sh', .ok (o, printed))
    | .error e => return (sh', .error e)

/-- Runs the lines of a script and prints all entries. -/
def runScript (sh : Shell) (p : Path) : m (Shell × Except ShellError Report) := do
  let env ← (Host.environment : m _)
  match ← (Host.readText (p.expand env) : ExceptT ShellError m String).run with
  | .error e => return (sh, .error e)
  | .ok s =>
    let (sh', report) := sh.runLines (scriptLines s)
    return (sh', .ok report)

end Shell

end LineShell
