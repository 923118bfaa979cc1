import LineShell.Expr.Error

/-!
# What can go wrong

The errors of the shell as their causes, the kinds they fall into, and the wording of each kind. An
error that a line of input causes is recoverable: the session reports it and goes on.
-/

namespace LineShell

/-- The kinds of error. -/
inductive ErrorKind
  | io
  | data
  | config
  | terminal
  | parse
  | eval
  | type
  | lookup
  | notFound
deriving DecidableEq, Repr

namespace ErrorKind

/-- The message of an error of the given kind. Of a lookup the detail is the name. -/
def message (kind : ErrorKind) (detail : String) : String :=
  match kind with
  | .io => "IO error: " ++ detail
  | .data => "Serialization error: " ++ detail
  | .config => "Configuration error: " ++ detail
  | .terminal => "Terminal error: " ++ detail
  | .parse => "Parse error: " ++ detail
  | .eval => "Evaluation error: " ++ detail
  | .type => "Type error: " ++ detail
  | .lookup => "Variable \"" ++ detail ++ "\" not found"
  | .notFound => "Command not found: " ++ detail

/-- Whether a line of input is the cause. -/
def isRecoverable : ErrorKind → Bool
  | .parse | .eval | .type | .lookup | .notFound => true
  | .io | .data | .config | .terminal => false

end ErrorKind

/-- The kind of error that an expression without a value makes. -/
def EvalError.errorKind : EvalError → ErrorKind
  | .divisionByZero | .moduloByZero => .eval
  | .notNumeric _ | .notOperands .. | .incomparable .. => .type
  | .unbound _ => .lookup

/-- Why a file could not be used. -/
inductive FileError
  | notFound
  | alreadyExists
  | isADirectory
  | notADirectory
  /-- The contents are no text. -/
  | invalidText
  /-- The path holds a character that no path may hold. -/
  | invalidPath
  /-- The path or a name in it is too long. -/
  | nameTooLong
  | other
deriving DecidableEq, Repr

/-- The wording of the reason. -/
def FileError.detail : FileError → String
  | .notFound => "no such file or directory"
  | .alreadyExists => "file exists"
  | .isADirectory => "is a directory"
  | .notADirectory => "not a directory"
  | .invalidText => "the file is not valid text"
  | .invalidPath => "the path holds a null character"
  | .nameTooLong => "file name too long"
  | .other => "the file cannot be used"

/-- Why a configuration could not be read or written. -/
inductive ConfigError
  /-- The file holds no configuration. -/
  | malformed
  /-- There is a file already, and it may not be overwritten. -/
  | alreadyExists
  /-- A number is too large for the file. -/
  | tooLarge
deriving DecidableEq, Repr

/-- The wording of the reason. -/
def ConfigError.detail : ConfigError → String
  | .malformed => "Failed to parse config"
  | .alreadyExists => "Configuration file already exists. Use --force to overwrite."
  | .tooLarge => "Failed to serialize config: out-of-range value for u64 type"

/-- An error of the shell. -/
inductive ShellError
  | parse (e : ParseError)
  | eval (e : EvalError)
  /-- The line is none that the shell knows. -/
  | unknownLine (line : String)
  | file (e : FileError)
  | config (e : ConfigError)
  /-- There is no terminal to talk to. -/
  | noTerminal
deriving DecidableEq, Repr

namespace ShellError

def kind : ShellError → ErrorKind
  | .parse _ => .parse
  | .eval e => e.errorKind
  | .unknownLine _ => .notFound
  | .file _ => .io
  | .config _ => .config
  | .noTerminal => .terminal

/-- What the message says of the cause. -/
def detail : ShellError → String
  | .parse e => e.detail
  | .eval e => e.detail
  | .unknownLine line => line
  | .file e => e.detail
  | .config e => e.detail
  | .noTerminal => "no terminal"

/-- The message of an error. -/
def message (e : ShellError) : String := e.kind.message e.detail

/-- Whether a line of input is the cause. -/
def isRecoverable (e : ShellError) : Bool := e.kind.isRecoverable

end ShellError

end LineShell
