import LineShell.Decimal.Style
import LineShell.Text.Quoted

/-!
# Tokens

The words of an expression, and how a message names one.
-/

namespace LineShell

/-- A word of an expression. -/
inductive Token
  | integer (n : Int64)
  | float (x : Float)
  | text (s : String)
  | word (w : String)
  | plus
  | minus
  | star
  | slash
  | percent
  | bang
  | openParen
  | closeParen
  | equal
  | notEqual
  | less
  | lessEqual
  | greater
  | greaterEqual
deriving DecidableEq, Repr

namespace Token

/-- The name of a token in messages. -/
def shown : Token → String
  | .integer n => "Number(Integer(" ++ String.ofList (Decimal.signedDigits n.toInt) ++ "))"
  | .float x => "Number(Float(" ++ Decimal.quoted.render x ++ "))"
  | .text s => "Str(" ++ Text.Quoted.quote s ++ ")"
  | .word w => "Word(" ++ Text.Quoted.quote w ++ ")"
  | .plus => "Plus"
  | .minus => "Minus"
  | .star => "Star"
  | .slash => "Slash"
  | .percent => "Percent"
  | .bang => "Bang"
  | .openParen => "LParen"
  | .closeParen => "RParen"
  | .equal => "EqEq"
  | .notEqual => "NotEq"
  | .less => "Lt"
  | .lessEqual => "Le"
  | .greater => "Gt"
  | .greaterEqual => "Ge"

end Token

end LineShell
