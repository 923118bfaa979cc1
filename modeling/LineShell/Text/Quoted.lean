import LineShell.Text.CharClass

/-!
# Quoted text in messages

How an error message shows a piece of the input: in double quotes, with the quote, the backslash
and everything that leaves no mark of its own written as an escape.
-/

namespace LineShell.Text.Quoted

/-- The escape of a character by its code point in hexadecimal. -/
def codePoint (c : Char) : List Char :=
  '\\' :: 'u' :: '\x7b' :: (Nat.toDigits 16 c.toNat ++ ['\x7d'])

/-- The characters that stand for `c` between the quotes. -/
def escape (c : Char) : List Char :=
  match c with
  | '\x00' => ['\\', '0']
  | '\t' => ['\\', 't']
  | '\n' => ['\\', 'n']
  | '\r' => ['\\', 'r']
  | '\x22' => ['\\', '\x22']
  | '\\' => ['\\', '\\']
  | c => if isInvisible c then codePoint c else [c]

/-- The text in double quotes. -/
def quote (s : String) : String :=
  String.ofList ('\x22' :: s.toList.flatMap escape ++ ['\x22'])

end LineShell.Text.Quoted
