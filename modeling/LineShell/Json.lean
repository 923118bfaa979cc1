import LineShell.Decimal.Style

/-!
# JSON that is written

A tree of the values that appear in output, and its two layouts: on one line, and indented by two
blanks a level. Text is written as it stands but for quotes, backslashes and control characters, so
no written text holds a line break.
-/

namespace LineShell

/-- A JSON value. The members of an object have an order. -/
inductive Json
  | boolean (b : Bool)
  | integer (n : Int)
  | float (x : Float)
  | text (s : String)
  | object (members : List (String × Json))

namespace Json

/-! ## Text -/

/-- The escape of a character by its code point, which is below 256. -/
def codePoint (c : Char) : List Char :=
  ['\\', 'u', '0', '0', Nat.digitChar (c.toNat / 16), Nat.digitChar (c.toNat % 16)]

/-- The characters that stand for `c` between the quotes. -/
def escape (c : Char) : List Char :=
  match c with
  | '\x22' => ['\\', '\x22']
  | '\\' => ['\\', '\\']
  | '\x08' => ['\\', 'b']
  | '\x0c' => ['\\', 'f']
  | '\n' => ['\\', 'n']
  | '\r' => ['\\', 'r']
  | '\t' => ['\\', 't']
  | c => if c.toNat < 0x20 then codePoint c else [c]

/-- A text in quotes. -/
def quoted (s : String) : List Char :=
  '\x22' :: s.toList.flatMap escape ++ ['\x22']

/-! ## Layouts -/

mutual

/-- A value on one line. -/
def compact : Json → List Char
  | .boolean true => "true".toList
  | .boolean false => "false".toList
  | .integer n => Decimal.signedDigits n
  | .float x => Decimal.interchanged.chars x
  | .text s => quoted s
  | .object [] => ['\x7b', '\x7d']
  | .object (m :: ms) => '\x7b' :: compactMember m ++ compactTail ms

/-- A member of an object on one line. -/
def compactMember : String × Json → List Char
  | (k, v) => quoted k ++ ':' :: compact v

/-- The members behind the first, and the end of the object. -/
def compactTail : List (String × Json) → List Char
  | [] => ['\x7d']
  | m :: ms => ',' :: compactMember m ++ compactTail ms

end

/-- A new line that is indented by the given number of levels. -/
def newLine (level : Nat) : List Char := '\n' :: List.replicate (2 * level) ' '

mutual

/-- A value on several lines, at the given level. -/
def indented (level : Nat) : Json → List Char
  | .boolean b => compact (.boolean b)
  | .integer n => compact (.integer n)
  | .float x => compact (.float x)
  | .text s => compact (.text s)
  | .object [] => compact (.object [])
  | .object (m :: ms) => '\x7b' :: indentedMember (level + 1) m ++ indentedTail level ms

/-- A member of an object on a line of its own. -/
def indentedMember (level : Nat) : String × Json → List Char
  | (k, v) => newLine level ++ quoted k ++ ':' :: ' ' :: indented level v

/-- The members behind the first, and the end of the object. -/
def indentedTail (level : Nat) : List (String × Json) → List Char
  | [] => newLine level ++ ['\x7d']
  | m :: ms => ',' :: indentedMember (level + 1) m ++ indentedTail level ms

end

/-- A value on one line. -/
def render (j : Json) : String := String.ofList j.compact

/-- A value on several lines. -/
def renderIndented (j : Json) : String := String.ofList (j.indented 0)

end Json

end LineShell
