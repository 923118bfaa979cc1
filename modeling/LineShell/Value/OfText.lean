import LineShell.Text.Blank
import LineShell.Value

/-!
# Values from text

How the right-hand side of an assignment becomes a value. Text in matching quotes is taken
literally, `True` and `False` are the booleans, digits with an optional sign and point are numbers,
and everything else is text as it stands.
-/

namespace LineShell.Value

/-- The contents of a text in matching quotes. Nothing between the quotes is special. -/
def unquote? : List Char → Option (List Char)
  | [] => none
  | q :: cs =>
    if (q = '\x27' ∨ q = '\x22') ∧ cs.getLast? = some q then some cs.dropLast else none

/-- The number whose digits are `whole`, as an integer if it fits and as a float if not. -/
def ofNumeral (negative : Bool) (whole : List Char) : Value :=
  let n : Int := Decimal.ofDigits whole
  match Number.ofInt? (if negative then -n else n) with
  | some i => .integer i
  | none =>
    let x := Decimal.toFloat whole []
    .float (if negative then -x else x)

/-- The number with the digits `whole` in front of the point and `fraction` behind it. -/
def ofPointed (negative : Bool) (whole fraction : List Char) : Value :=
  let x := Decimal.toFloat whole fraction
  .float (if negative then -x else x)

/-- The number that an unsigned numeral with an optional point stands for. Digits must follow the
point, but need not stand in front of it. -/
def ofUnsigned? (negative : Bool) (cs : List Char) : Option Value :=
  let whole := cs.takeWhile Char.isDigit
  match cs.dropWhile Char.isDigit with
  | [] => if whole.isEmpty then none else some (ofNumeral negative whole)
  | c :: fraction =>
    if c = '.' ∧ Decimal.IsNumeral fraction then some (ofPointed negative whole fraction) else none

/-- The number that a numeral with an optional minus sign and point stands for. -/
def ofSigned? : List Char → Option Value
  | '-' :: cs => ofUnsigned? true cs
  | cs => ofUnsigned? false cs

/-- The value of a text without blanks at its ends. -/
def ofTrimmed (cs : List Char) : Value :=
  match unquote? cs with
  | some inner => .text (String.ofList inner)
  | none =>
    if cs = "True".toList then .boolean true
    else if cs = "False".toList then .boolean false
    else (ofSigned? cs).getD (.text (String.ofList cs))

/-- The value of a text. -/
def ofText (s : String) : Value :=
  ofTrimmed (Text.trimChars s.toList)

end LineShell.Value
