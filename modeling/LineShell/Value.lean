import LineShell.Decimal.Style
import LineShell.Number

/-!
# Values

The values of variables and of expressions, how they are shown, and the views under which
operators see them.
-/

namespace LineShell

/-- A value. -/
inductive Value
  | text (s : String)
  | integer (n : Int64)
  | float (x : Float)
  | boolean (b : Bool)
deriving DecidableEq, Repr

namespace Value

/-- The kinds of value. -/
inductive Kind
  | text
  | integer
  | float
  | boolean
deriving DecidableEq, Repr

/-- The name of a kind in messages. -/
def Kind.name : Kind → String
  | .text => "String"
  | .integer => "Integer"
  | .float => "Float"
  | .boolean => "Boolean"

def kind : Value → Kind
  | .text _ => .text
  | .integer _ => .integer
  | .float _ => .float
  | .boolean _ => .boolean

/-- The plain text of a value, as an expression's result is shown. -/
def display : Value → String
  | .text s => s
  | .integer n => String.ofList (Decimal.signedDigits n.toInt)
  | .float x => Decimal.displayed.render x
  | .boolean true => "True"
  | .boolean false => "False"

/-- The text of a value as a variable's contents are shown: text stands in single quotes. -/
def literal : Value → String
  | .text s => "'" ++ s ++ "'"
  | v => v.display

/-- Whether a value counts as true: text that is not empty, a number other than zero, or truth. -/
def isTruthy : Value → Bool
  | .text s => !s.isEmpty
  | .integer n => n != 0
  | .float x => x != 0.0 && !x.isNaN
  | .boolean b => b

/-- The whole number that an integer or a boolean stands for. -/
def integer? : Value → Option Int64
  | .integer n => some n
  | .boolean b => some (if b then 1 else 0)
  | _ => none

/-- The float that a number or a boolean stands for. -/
def float? : Value → Option Float
  | .integer n => some (Number.toFloat n)
  | .float x => some x
  | .boolean b => some (if b then 1.0 else 0.0)
  | .text _ => none

/-- Integers and floats are numbers. -/
def isNumber : Value → Bool
  | .integer _ | .float _ => true
  | _ => false

end Value

end LineShell
