import LineShell.Environment
import LineShell.History
import LineShell.Json
import LineShell.Skin
import LineShell.Toml
import LineShell.Toml.Quoted

/-!
# Configuration

What a user can configure. Every setting is described once, by its section and key, by the value
that is written for it, and by how a value that is read changes the configuration; both written
forms and the reader follow these descriptions.
-/

namespace LineShell

/-- The name of the configuration file. -/
def configFileName : String := "config.toml"

/-- The name of the history file, as long as no other is configured. -/
def historyFileName : String := "history.txt"

/-- The header, as long as no other is configured. -/
def defaultHeader : String := "Terminal v1.0 - Type 'help' for commands"

/-- A configuration. -/
structure Config where
  prompt : String
  header : String
  /-- Where submitted lines are kept. -/
  historyFile : Path
  /-- How many submitted lines are remembered. -/
  maxHistorySize : Nat
  /-- Whether submitted lines are kept for later sessions. -/
  persistHistory : Bool
  skin : Skin
  showHeader : Bool
  configDirectory : Path
  dataDirectory : Path
deriving DecidableEq, Repr

/-- The configuration of a user who has configured nothing. -/
def Config.default (env : Environment) : Config where
  prompt := defaultPrompt
  header := defaultHeader
  historyFile := env.dataDirectory.join ⟨historyFileName⟩
  maxHistorySize := defaultHistorySize
  persistHistory := false
  skin := .classic
  showHeader := true
  configDirectory := env.configDirectory
  dataDirectory := env.dataDirectory

/-! ## Settings -/

/-- The value of a setting. -/
inductive Setting.Value
  | text (s : String)
  | count (n : Nat)
  | boolean (b : Bool)
deriving DecidableEq, Repr

/-- A setting: its key, the value that is written, and how a value that is read is put in. -/
structure Setting where
  key : String
  get : Config → Setting.Value
  set? : Toml → Config → Option Config

namespace Setting

/-- The value as JSON. -/
def Value.toJson : Value → Json
  | .text s => .text s
  | .count n => .integer n
  | .boolean b => .boolean b

/-- The value as TOML, where integers have 64 bits. -/
def Value.toToml? : Value → Option (List Char)
  | .text s => some (Toml.Quoted.write s.toList)
  | .count n => if n ≤ Int64.maxValue.toNatClampNeg then some (Decimal.digits n) else none
  | .boolean true => some "true".toList
  | .boolean false => some "false".toList

/-- The text of a value that is a text. -/
def text? : Toml → Option String
  | .text s => some s
  | _ => none

/-- The number of a value that is a count. -/
def count? : Toml → Option Nat
  | .integer n => if 0 ≤ n then some n.toNat else none
  | _ => none

/-- The boolean of a value that is one. -/
def boolean? : Toml → Option Bool
  | .boolean b => some b
  | _ => none

/-- The skin of a value: a name, or a table whose only key is the name and holds nothing. -/
def skin? : Toml → Option Skin
  | .text s => Skin.ofName? s
  | .table [(s, .table [])] | .table [(s, .array [])] => Skin.ofName? s
  | _ => none

def prompt : Setting where
  key := "prompt"
  get c := .text c.prompt
  set? v c := (text? v).map fun s => { c with prompt := s }

def header : Setting where
  key := "header"
  get c := .text c.header
  set? v c := (text? v).map fun s => { c with header := s }

def historyFile : Setting where
  key := "history_file"
  get c := .text c.historyFile.text
  set? v c := (text? v).map fun s => { c with historyFile := ⟨s⟩ }

def maxHistorySize : Setting where
  key := "max_history_size"
  get c := .count c.maxHistorySize
  set? v c := (count? v).map fun n => { c with maxHistorySize := n }

def persistHistory : Setting where
  key := "persist_history"
  get c := .boolean c.persistHistory
  set? v c := (boolean? v).map fun b => { c with persistHistory := b }

def skin : Setting where
  key := "skin"
  get c := .text c.skin.name
  set? v c := (skin? v).map fun k => { c with skin := k }

def showHeader : Setting where
  key := "show_header"
  get c := .boolean c.showHeader
  set? v c := (boolean? v).map fun b => { c with showHeader := b }

def configDirectory : Setting where
  key := "config_dir"
  get c := .text c.configDirectory.text
  set? v c := (text? v).map fun s => { c with configDirectory := ⟨s⟩ }

def dataDirectory : Setting where
  key := "data_dir"
  get c := .text c.dataDirectory.text
  set? v c := (text? v).map fun s => { c with dataDirectory := ⟨s⟩ }

end Setting

namespace Config

/-- The sections with their settings, in the order in which they are written. -/
def sections : List (String × List Setting) :=
  [("shell", [Setting.prompt, Setting.header, Setting.historyFile, Setting.maxHistorySize,
      Setting.persistHistory]),
    ("display", [Setting.skin, Setting.showHeader]),
    ("paths", [Setting.configDirectory, Setting.dataDirectory])]

/-! ## Written forms -/

/-- A configuration as a JSON object. -/
def toJson (c : Config) : Json :=
  .object (sections.map fun (name, settings) =>
    (name, .object (settings.map fun s => (s.key, (s.get c).toJson))))

/-- The line of a setting in a configuration file. -/
def settingLine? (c : Config) (s : Setting) : Option (List Char) :=
  (s.get c).toToml?.map fun v => s.key.toList ++ " = ".toList ++ v ++ ['\n']

/-- The text of a section with some of its settings. -/
def sectionText? (c : Config) (name : String) (settings : List Setting) : Option (List Char) :=
  (settings.mapM (settingLine? c)).map fun ls => '[' :: name.toList ++ "]\n".toList ++ ls.flatten

/-- The text of a configuration file with the given sections, between which a line is left out. -/
def textOf? (c : Config) (sections : List (String × List Setting)) : Option (List Char) :=
  (sections.mapM fun (name, settings) => c.sectionText? name settings).map
    fun ts => List.intercalate ['\n'] ts

/-- The text of the configuration file. -/
def toToml? (c : Config) : Option String := (c.textOf? sections).map String.ofList

/-! ## Reading -/

/-- Puts the values of a table in. -/
def setMembers? (members : List (String × Toml)) (settings : List Setting) (c : Config) :
    Option Config :=
  settings.foldlM (fun c s =>
    match Toml.lookup? s.key members with
    | some v => s.set? v c
    | none => some c) c

/-- Puts the values of a section in. A section is a table of settings or an array of the first of
them in order; a date or time gives none. -/
def setSection? (v : Toml) (settings : List Setting) (c : Config) : Option Config :=
  match v with
  | .table members => setMembers? members settings c
  | .array vs => (settings.zip vs).foldlM (fun c (s, v) => s.set? v c) c
  | .moment => some c
  | _ => none

/-- The configuration that has the settings of a document, and those of `c` where it has none. -/
def ofDocument? (members : List (String × Toml)) (c : Config) : Option Config :=
  sections.foldlM (fun c (name, settings) =>
    match Toml.lookup? name members with
    | some v => setSection? v settings c
    | none => some c) c

end Config

end LineShell
