/-!
# JSON that is read

The values of a JSON text before anything is made of them: numerals are kept as their digits, and
text as its characters and escapes, because what nobody asks for is not checked any further.
-/

namespace LineShell.Json

/-- A numeral. -/
structure Numeral where
  negative : Bool
  /-- The digits in front of the point. -/
  whole : List Char
  /-- The digits behind the point. -/
  fraction : List Char
  /-- Whether the exponent is negative, and its digits. -/
  exponent : Option (Bool × List Char)
deriving DecidableEq, Repr

/-- A piece of a text between quotes. -/
inductive Piece
  | char (c : Char)
  /-- An escape by a unit of sixteen bits, perhaps one half of a pair. -/
  | unit (n : Nat)
deriving DecidableEq, Repr

/-- A JSON value as it is read. -/
inductive Raw
  | null
  | boolean (b : Bool)
  | numeral (n : Numeral)
  | text (pieces : List Piece)
  | array (items : List Raw)
  | object (members : List (List Piece × Raw))

/-! ## The characters of a text -/

/-- The character of a pair of units that are the halves of one. -/
def pair? (high low : Nat) : Option Char :=
  if 0xD800 ≤ high ∧ high < 0xDC00 ∧ 0xDC00 ≤ low ∧ low < 0xE000 then
    some (Char.ofNat (0x10000 + (high - 0xD800) * 0x400 + (low - 0xDC00)))
  else none

/-- The characters of the pieces, unless half of a pair stands alone. -/
def Piece.chars? : List Piece → Option (List Char)
  | [] => some []
  | .char c :: ps => (Piece.chars? ps).map (c :: ·)
  | .unit n :: ps =>
    if n < 0xD800 ∨ 0xE000 ≤ n then (Piece.chars? ps).map (Char.ofNat n :: ·)
    else
      match ps with
      | .unit n' :: ps => do
        let c ← pair? n n'
        let cs ← Piece.chars? ps
        return c :: cs
      | _ => none

/-- The text of the pieces. -/
def Piece.text? (ps : List Piece) : Option String :=
  (Piece.chars? ps).map String.ofList

end LineShell.Json
