/-!
# TOML values

The values of a TOML document.
-/

namespace LineShell

/-- A TOML value. Nobody asks for the value of a float, or for which moment a date or time is. -/
inductive Toml
  | text (s : String)
  | integer (n : Int)
  | float
  | boolean (b : Bool)
  | moment
  | array (items : List Toml)
  | table (members : List (String × Toml))

namespace Toml

/-- The value of a key among the members of a table. -/
def lookup? (key : String) (members : List (String × Toml)) : Option Toml :=
  members.lookup key

/-! ## Characters -/

/-- The blanks within a line. -/
def isBlank (c : Char) : Bool := c == ' ' || c == '\t'

/-- Whether a character may stand in text and comments: anything but control characters, and the
tabulator. -/
def isPrinted (c : Char) : Bool := c == '\t' || (0x20 ≤ c.toNat && c.toNat != 0x7f)

/-- Whether a character may stand in a key without quotes. -/
def isBareKeyChar (c : Char) : Bool := c.isAlphanum || c == '_' || c == '-'

/-- What is behind a line break, if the text begins with one. -/
def afterBreak? : List Char → Option (List Char)
  | '\n' :: cs => some cs
  | '\r' :: '\n' :: cs => some cs
  | _ => none

theorem length_afterBreak? {cs rest : List Char} (h : afterBreak? cs = some rest) :
    rest.length < cs.length := by
  unfold afterBreak? at h
  split at h <;> simp at h <;> subst h <;> simp only [List.length_cons] <;> omega

end Toml

end LineShell
