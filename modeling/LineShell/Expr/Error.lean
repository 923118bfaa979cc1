import LineShell.Expr.Token
import LineShell.Value

/-!
# What can be wrong with an expression

The reasons why a text is no expression and why an expression has no value.
-/

namespace LineShell

/-- Why a text is no expression. -/
inductive ParseError
  | unexpectedCharacter (c : Char)
  | lonePoint
  | unterminatedText
  | assignment
  | empty
  | tooDeep
  | unexpectedToken (t : Token)
  | unexpectedKeyword (w : String)
  | unclosedParen
  | unexpectedEnd
deriving DecidableEq, Repr

/-- The wording of the reason. -/
def ParseError.detail : ParseError → String
  | .unexpectedCharacter c => "unexpected character '" ++ c.toString ++ "'"
  | .lonePoint => "unexpected '.'"
  | .unterminatedText => "unterminated string literal"
  | .assignment => "assignment is not an expression"
  | .empty => "empty expression"
  | .tooDeep => "expression nested too deeply"
  | .unexpectedToken t => "unexpected token " ++ t.shown
  | .unexpectedKeyword w => "unexpected keyword '" ++ w ++ "'"
  | .unclosedParen => "expected ')'"
  | .unexpectedEnd => "unexpected end of expression"

/-- Why an expression has no value. -/
inductive EvalError
  | divisionByZero
  | moduloByZero
  /-- The operand of a sign is of a kind that has none. -/
  | notNumeric (found : Value.Kind)
  /-- The operands of an arithmetic operator are not both numeric. -/
  | notOperands (left : Value.Kind) (symbol : String) (right : Value.Kind)
  /-- The operands have no order. -/
  | incomparable (left right : Value.Kind)
  | unbound (name : String)
deriving DecidableEq, Repr

/-- How a value of the wrong type is reported. -/
def typeDetail (expected found : String) : String :=
  "expected " ++ expected ++ ", found " ++ found

/-- The wording of the reason; of an unbound name, the name. -/
def EvalError.detail : EvalError → String
  | .divisionByZero => "division by zero"
  | .moduloByZero => "modulo by zero"
  | .notNumeric found => typeDetail "numeric" found.name
  | .notOperands l symbol r =>
    typeDetail "numeric operands" (l.name ++ " " ++ symbol ++ " " ++ r.name)
  | .incomparable l r => typeDetail "comparable types" (l.name ++ " and " ++ r.name)
  | .unbound name => name

end LineShell
