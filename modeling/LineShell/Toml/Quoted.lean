import LineShell.Toml

/-!
# Text in TOML documents

How a text is written: of five forms the first that fits is chosen, and only the last writes
everything that cannot stand for itself as an escape.
-/

namespace LineShell.Toml.Quoted

/-! ## What a text holds -/

/-- Whether a character is a control character other than the tabulator and the line feed. -/
def isControl (c : Char) : Bool :=
  (c.toNat < 0x20 && c != '\n' && c != '\t') || c.toNat == 0x7f

/-- Whether a text has three of `q` in a row, where `n` have come just before it. -/
def hasRun (q : Char) (n : Nat) : List Char → Bool
  | [] => false
  | c :: cs => if c = q then n == 2 || hasRun q (n + 1) cs else hasRun q 0 cs

/-- The forms of a text. The long ones have three quotes at each end and may hold line breaks; the
literal ones know no escapes. -/
inductive Form
  | basic
  | literal
  | longBasic
  | longLiteral
deriving DecidableEq, Repr

/-- The first form that fits. -/
def formOf (cs : List Char) : Form :=
  let control := cs.any isControl
  if !(control || cs.contains '\x22' || cs.contains '\\' || cs.contains '\n') then .basic
  else if !(control || cs.contains '\x27' || cs.contains '\n') then .literal
  else if !(control || cs.contains '\\' || hasRun '\x22' 0 cs) then .longBasic
  else if !(control || hasRun '\x27' 0 cs) then .longLiteral
  else if cs.contains '\n' then .longBasic
  else .basic

/-! ## Escapes -/

/-- A digit of a code point. -/
def upperHexDigit (n : Nat) : Char := if n < 10 then Nat.digitChar n else Char.ofNat (n + 55)

/-- The escape of a control character by its code point, which is below 256. -/
def codePoint (c : Char) : List Char :=
  ['\\', 'u', '0', '0', upperHexDigit (c.toNat / 16), upperHexDigit (c.toNat % 16)]

/-- The characters that stand for `c`, which is no quote and no line feed. -/
def escape (c : Char) : List Char :=
  match c with
  | '\x08' => ['\\', 'b']
  | '\t' => ['\\', 't']
  | '\x0c' => ['\\', 'f']
  | '\r' => ['\\', 'r']
  | '\\' => ['\\', '\\']
  | c => if isControl c then codePoint c else [c]

/-- The characters of a text between single quotes. -/
def escapeBasic : List Char → List Char
  | [] => []
  | c :: cs =>
    (if c = '\x22' then ['\\', '\x22'] else if c = '\n' then ['\\', 'n'] else escape c)
      ++ escapeBasic cs

/-- The characters of a text between three quotes, where `n` quotes have been written just before
it. Line feeds stand for themselves, and of three quotes the last is escaped. -/
def escapeLong (n : Nat) : List Char → List Char
  | [] => []
  | c :: cs =>
    if c = '\x22' then
      if n = 2 then '\\' :: '\x22' :: escapeLong 0 cs else '\x22' :: escapeLong (n + 1) cs
    else (if c = '\n' then ['\n'] else escape c) ++ escapeLong 0 cs

/-! ## The written text -/

/-- Three times `q`. -/
def long (q : Char) : List Char := [q, q, q]

/-- The line break behind the opening quotes of a text that has several lines. -/
def opening (cs : List Char) : List Char := if cs.contains '\n' then ['\n'] else []

/-- A text as it is written. -/
def write (cs : List Char) : List Char :=
  match formOf cs with
  | .basic => '\x22' :: escapeBasic cs ++ ['\x22']
  | .literal => '\x27' :: cs ++ ['\x27']
  | .longBasic => long '\x22' ++ opening cs ++ escapeLong 0 cs ++ long '\x22'
  | .longLiteral => long '\x27' ++ opening cs ++ cs ++ long '\x27'

end LineShell.Toml.Quoted
