import LineShell.CommandLine

/-!
# The program

What a run of the program prints and how it ends. A run that fails ends with 1, and one whose
arguments are wrong with 2.
-/

namespace LineShell

/-- The name and the version of the program. -/
def programName : String := "voidshell"

def version : String := "0.1.0"

/-- How a run ends, and what it prints. -/
structure Run where
  exitCode : Nat
  printed : String
  /-- What it says about a failure. -/
  complaint : Option String := none
deriving DecidableEq, Repr

namespace Run

/-- A run that succeeds. -/
def success (printed : String) : Run := { exitCode := 0, printed }

/-- A run that fails with an error. -/
def failure (e : ShellError) : Run :=
  { exitCode := 1, printed := "", complaint := some e.message }

/-- Each line with a line break behind it. -/
def lines (ls : List String) : String := String.join (ls.map (· ++ "\n"))

end Run

namespace Program

/-- How the arguments are to be given. -/
def usage : String :=
  Run.lines
    ["Usage: voidshell [OPTIONS] [COMMAND]", "", "Commands:",
      "  init           Write the default configuration file",
      "  config         Show configuration information",
      "  clear-history  Clear persisted command history", "", "Options:",
      "      --config <CONFIG>                  Configuration file path",
      "  -v, --verbose                          Enable verbose logging",
      "  -c, --command-string <COMMAND_STRING>  Run a single line and exit",
      "  -s, --script <SCRIPT>                  Execute a script file",
      "      --skin <SKIN>                      Override the configured colour skin",
      "      --json                             Print entries as JSON lines",
      "  -h, --help                             Print help",
      "  -V, --version                          Print version"]

variable {m : Type → Type} [Monad m] [Host m]

/-- Carries out what is asked for besides running lines. -/
def act (config : Config) (p? : Option Path) : Action → ExceptT ShellError m String
  | .init force => do
    let file ← config.init p? force
    return "✓ Configuration initialized at " ++ file.text ++ "\n"
  | .showConfig => return config.toJson.renderIndented ++ "\n"
  | .clearHistory => do
    config.clearHistory
    return "✓ Command history cleared\n"

/-- Runs a line or a script. Without either there would have to be a terminal. -/
def runShell (sh : Shell) (a : Arguments) : m Run := do
  match a.line?, a.script? with
  | some line, _ =>
    match (← sh.execute line).2 with
    | .ok (o, printed) =>
      return { exitCode := if o.isError then 1 else 0, printed := Run.lines printed }
    | .error e => return .failure e
  | none, some p =>
    match (← sh.runScript p).2 with
    | .ok report =>
      return { exitCode := if report.errors = 0 then 0 else 1
               printed := Run.lines report.printed }
    | .error e => return .failure e
  | none, none => return .failure .noTerminal

/-- Carries the arguments out. -/
def runArguments (a : Arguments) : ExceptT ShellError m Run := do
  let config ← Config.load a.config?
  let config := match a.skin? with
    | some k => { config with skin := k }
    | none => config
  match a.action? with
  | some action => return .success (← act config a.config? action)
  | none =>
    let sh ← Shell.start config (if a.json then .json else .text)
    let r ← (runShell sh a : m Run)
    return r

/-- Runs the program with the given arguments. -/
def run (args : List String) : m Run := do
  match Arguments.ofList args with
  | .error .version => return .success (programName ++ " " ++ version ++ "\n")
  | .error .help => return .success usage
  | .error .misuse => return { exitCode := 2, printed := "", complaint := some usage }
  | .ok a =>
    match ← (runArguments a : ExceptT ShellError m Run).run with
    | .ok r => return r
    | .error e => return .failure e

end Program

end LineShell
