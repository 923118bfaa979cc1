import LineShell.OrderedMap
import LineShell.Path

/-!
# The environment

The variables that the shell is started with, and the directories that follow from them.
-/

namespace LineShell

/-- What the shell is started with. -/
structure Environment where
  /-- The environment variables. -/
  vars : OrderedMap String String
  /-- The user's directory on record, for when no variable gives one. -/
  account? : Option Path := none

namespace Environment

/-- The environment with the given variables and no directory on record. -/
def ofList (vars : List (String × String)) : Environment := { vars := .ofList vars }

/-- The directory of a user in the records of a system. A record is a line of fields between colons,
of which the third is the number of the user and the sixth is the directory. -/
def directoryOnRecord? (user : String) (records : String) : Option Path :=
  (Text.pieces '\n' records.toList).findSome? fun record =>
    match (Text.pieces ':' record).map String.ofList with
    | _ :: _ :: number :: _ :: _ :: directory :: _ =>
      if number = user ∧ directory ≠ "" then some ⟨directory⟩ else none
    | _ => none

/-- The value of a variable. The environment is a list of texts that are a name, an equals sign and
a value, and what is looked up is the text in front of some equals sign: so `A=B` stands for the
rest of the value of `A`, if that begins with `B` and an equals sign. -/
def value? (env : Environment) (name : String) : Option String :=
  match Text.splitFirst '=' name.toList with
  | (_, none) => env.vars.get? name
  | (first, some more) => do
    let v ← env.vars.get? (String.ofList first)
    let rest ← (more ++ ['=']).isPrefixOf? v.toList
    return String.ofList rest

/-- The user's directory. -/
def home? (env : Environment) : Option Path :=
  match env.vars.get? "HOME" with
  | none => env.account?
  | some s => if s.isEmpty then env.account? else some ⟨s⟩

/-- The directory that a variable gives, if it gives an absolute one, and one in the user's
directory otherwise. -/
def baseDirectory (env : Environment) (name : String) (inHome : Path) : Path :=
  match env.vars.get? name with
  | some s => if Path.isAbsolute ⟨s⟩ then ⟨s⟩ else fallback
  | none => fallback
where
  /-- The directory in the user's directory. -/
  fallback : Path :=
    match env.home? with
    | some home => home.join inHome
    | none => ⟨"."⟩

/-- The directory for configuration. -/
def configDirectory (env : Environment) : Path :=
  (env.baseDirectory "XDG_CONFIG_HOME" ⟨".config"⟩).join ⟨"voidshell"⟩

/-- The directory for data. -/
def dataDirectory (env : Environment) : Path :=
  (env.baseDirectory "XDG_DATA_HOME" ⟨".local/share"⟩).join ⟨"voidshell"⟩

end Environment

end LineShell
