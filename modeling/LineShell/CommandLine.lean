import LineShell.Path
import LineShell.Shell

/-!
# The command line

The options and subcommands of the program. Arguments are read from left to right, and the first
that asks for help or the version, or that is wrong, decides; what stands behind it is not read.
-/

namespace LineShell

/-- What the program is asked to do besides running lines. -/
inductive Action
  /-- Write the configuration file. -/
  | init (force : Bool)
  /-- Show the configuration. -/
  | showConfig
  /-- Forget the lines that were kept. -/
  | clearHistory
deriving DecidableEq, Repr

/-- What the arguments say. -/
structure Arguments where
  config? : Option Path := none
  verbose : Bool := false
  line? : Option String := none
  script? : Option Path := none
  skin? : Option Skin := none
  json : Bool := false
  action? : Option Action := none
deriving DecidableEq, Repr

namespace CommandLine

/-- Why the arguments are not carried out. -/
inductive Stop
  | help
  | version
  /-- The arguments are wrong. -/
  | misuse
deriving DecidableEq, Repr

/-! ## Options -/

/-- The options that have a value. -/
inductive Valued
  | config
  | line
  | script
  | skin
deriving DecidableEq, Repr

/-- The options that have none. -/
inductive Flag
  | verbose
  | json
  | help
  | version
deriving DecidableEq, Repr

/-- An option. -/
inductive Switch
  | valued (v : Valued)
  | flag (f : Flag)
deriving DecidableEq, Repr

/-- The option of a long name. -/
def long? (name : String) : Option Switch :=
  match name with
  | "config" => some (.valued .config)
  | "command-string" => some (.valued .line)
  | "script" => some (.valued .script)
  | "skin" => some (.valued .skin)
  | "verbose" => some (.flag .verbose)
  | "json" => some (.flag .json)
  | "help" => some (.flag .help)
  | "version" => some (.flag .version)
  | _ => none

/-- The option of a letter. -/
def short? : Char → Option Switch
  | 'c' => some (.valued .line)
  | 's' => some (.valued .script)
  | 'v' => some (.flag .verbose)
  | 'h' => some (.flag .help)
  | 'V' => some (.flag .version)
  | _ => none

/-- The path of a value, which must not be empty. -/
def path? (s : String) : Option Path := if s.isEmpty then none else some ⟨s⟩

/-- Sets an option, unless it is set already or the value is none for it. -/
def set (a : Arguments) (v : Valued) (s : String) : Except Stop Arguments :=
  let changed := match v with
    | .config =>
      if a.config?.isSome then none else (path? s).map fun p => { a with config? := some p }
    | .line => if a.line?.isSome then none else some { a with line? := some s }
    | .script =>
      if a.script?.isSome then none else (path? s).map fun p => { a with script? := some p }
    | .skin =>
      if a.skin?.isSome then none else (Skin.ofName? s).map fun k => { a with skin? := some k }
  match changed with
  | some a => .ok a
  | none => .error .misuse

/-- Sets a flag, unless it is set already. -/
def raise (a : Arguments) : Flag → Except Stop Arguments
  | .verbose => if a.verbose then .error .misuse else .ok { a with verbose := true }
  | .json => if a.json then .error .misuse else .ok { a with json := true }
  | .help => .error .help
  | .version => .error .version

/-! ## Clusters of letters -/

/-- What the letters of an argument come to: the arguments, and the option whose value is the next
argument, if there is one. -/
def letters (a : Arguments) : List Char → Except Stop (Arguments × Option Valued)
  | [] => .ok (a, none)
  | c :: cs =>
    match short? c with
    | none => .error .misuse
    | some (.flag f) => do letters (← raise a f) cs
    | some (.valued v) =>
      match cs with
      | [] => .ok (a, some v)
      | '=' :: cs => do return (← set a v (String.ofList cs), none)
      | cs => do return (← set a v (String.ofList cs), none)

/-! ## Subcommands -/

/-- Whether an argument asks for help. -/
def isHelp (s : String) : Bool := s = "--help" || s = "-h"

/-- Reads the arguments of a subcommand that has no options of its own. -/
def noOptions : List String → Except Stop Unit
  | [] => .ok ()
  | s :: rest =>
    if isHelp s then .error .help
    else if s = "--" ∧ rest = [] then .ok ()
    else .error .misuse

/-- Reads the arguments of the subcommand that writes the configuration file. -/
def initOptions (force : Bool) : List String → Except Stop Bool
  | [] => .ok force
  | s :: rest =>
    if isHelp s then .error .help
    else if s = "--force" then if force then .error .misuse else initOptions true rest
    else if s = "--" ∧ rest = [] then .ok force
    else .error .misuse

/-- The names of the subcommands. -/
def subcommands : List String := ["init", "config", "clear-history", "help"]

/-- Reads a subcommand and its arguments. -/
def subcommand (name : String) (rest : List String) : Except Stop Action :=
  match name with
  | "init" => (initOptions false rest).map .init
  | "config" => (noOptions rest).map fun _ => .showConfig
  | "clear-history" => (noOptions rest).map fun _ => .clearHistory
  | "help" =>
    match rest with
    | [] => .error .help
    | [s] => if s ∈ subcommands then .error .help else .error .misuse
    | _ => .error .misuse
  | _ => .error .misuse

/-! ## Arguments -/

/-- Reads arguments from left to right. A long name and its value may be joined by an equals
sign. -/
def read (a : Arguments) : List String → Except Stop Arguments
  | [] => .ok a
  | s :: rest =>
    match s.toList with
    | ['-', '-'] => if rest = [] then .ok a else .error .misuse
    | '-' :: '-' :: cs =>
      let (name, value?) := Text.splitFirst '=' cs
      match long? (String.ofList name), value? with
      | none, _ | some (.flag _), some _ => .error .misuse
      | some (.flag f), none => do read (← raise a f) rest
      | some (.valued v), some value => do read (← set a v (String.ofList value)) rest
      | some (.valued v), none => valued a v rest
    | '-' :: c :: cs =>
      match letters a (c :: cs) with
      | .error e => .error e
      | .ok (a, none) => read a rest
      | .ok (a, some v) => valued a v rest
    | _ => do return { a with action? := some (← subcommand s rest) }
where
  /-- Reads the value of an option, and the arguments behind it. What begins with a dash is no
  value, unless it is the dash alone. -/
  valued (a : Arguments) (v : Valued) : List String → Except Stop Arguments
    | [] => .error .misuse
    | s :: rest =>
      if s.toList.head? = some '-' ∧ s ≠ "-" then .error .misuse
      else do read (← set a v s) rest

end CommandLine

/-- What the arguments of the program say. -/
def Arguments.ofList (args : List String) : Except CommandLine.Stop Arguments :=
  CommandLine.read {} args

end LineShell
