import LineShell.Entry

/-!
# Skins

The colours in which the transcript is drawn. A style is a list of codes that the terminal knows; a
style without codes leaves the text as it is.
-/

namespace LineShell

/-- The codes that switch a style on. -/
abbrev Style := List Nat

namespace Style

/-- The sequence that sends codes to the terminal. -/
def sequence (codes : List Nat) : List Char :=
  '\x1b' :: '[' :: (List.intercalate [';'] (codes.map (Nat.toDigits 10)) ++ ['m'])

/-- The text in a style, which is switched off behind it. -/
def paint (st : Style) (s : String) : String :=
  if st.isEmpty then s
  else String.ofList (sequence st ++ s.toList ++ sequence [0])

def bold : Style := [1]

def dimmed : Style := [2]

def red : Style := [31]

def green : Style := [32]

def lightRed : Style := [91]

def lightGreen : Style := [92]

def underlinedGreen : Style := [4, 32]

def boldGreen : Style := [1, 32]

def boldCyan : Style := [1, 36]

end Style

/-- The skins. -/
inductive Skin
  /-- Neutral text with red errors. -/
  | classic
  /-- All in green but the errors. -/
  | minimalist
  /-- No colours at all. -/
  | plain
deriving DecidableEq, Repr, Inhabited

namespace Skin

/-- The name of a skin. -/
def name : Skin → String
  | .classic => "classic"
  | .minimalist => "minimalist"
  | .plain => "plain"

/-- The skin of a name. -/
def ofName? (s : String) : Option Skin :=
  [Skin.classic, .minimalist, .plain].find? fun k => k.name = s

@[simp] theorem ofName?_name (k : Skin) : ofName? k.name = some k := by
  cases k <;> decide

/-- The style of the entries of a kind. -/
def entryStyle : Skin → EntryKind → Style
  | .plain, _ => []
  | .classic, .input => Style.bold
  | .classic, .output => []
  | .classic, .error => Style.red
  | .minimalist, .input => Style.green
  | .minimalist, .output => Style.lightGreen
  | .minimalist, .error => Style.lightRed

def headerStyle : Skin → Style
  | .plain => []
  | .classic => Style.dimmed
  | .minimalist => Style.underlinedGreen

def promptStyle : Skin → Style
  | .plain => []
  | .classic => Style.boldCyan
  | .minimalist => Style.boldGreen

/-- An entry as it is drawn. An input stands behind the prompt. -/
def renderEntry (k : Skin) (prompt : String) (e : Entry) : String :=
  let text := (k.entryStyle e.kind).paint e.text
  match e.kind with
  | .input => k.promptStyle.paint prompt ++ text
  | .output | .error => text

example : classic.renderEntry "> " ⟨.input, "x"⟩ = "\x1b[1;36m> \x1b[0m\x1b[1mx\x1b[0m" := by
  decide

/-- The header as it is drawn. -/
def renderHeader (k : Skin) (header : String) : String := k.headerStyle.paint header

end Skin

end LineShell
