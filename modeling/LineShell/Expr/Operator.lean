import LineShell.Expr
import LineShell.Expr.Error

/-!
# What operators do to values

Arithmetic on whole numbers is exact, and a result that does not fit becomes a float. Booleans
count as one and zero. Text can be joined and compared with text, and nothing else.
-/

namespace LineShell

/-! ## Arithmetic -/

/-- The whole number that an operation makes of two values, if both are whole and the result
fits. -/
def wholeResult? (f : Int64 → Int64 → Option Int64) (l r : Value) : Option Int64 :=
  match l.integer?, r.integer? with
  | some a, some b => f a b
  | _, _ => none

/-- An arithmetic operation: on whole numbers if the result fits, and on floats otherwise. -/
def arithmetic (op : BinaryOp) (whole : Int64 → Int64 → Option Int64)
    (float : Float → Float → Float) (l r : Value) : Except EvalError Value :=
  match wholeResult? whole l r with
  | some n => .ok (.integer n)
  | none =>
    match l.float?, r.float? with
    | some a, some b => .ok (.float (float a b))
    | _, _ => .error (.notOperands l.kind op.symbol r.kind)

namespace UnaryOp

/-- The negated value. The least integer has no whole opposite. -/
def negate (v : Value) : Except EvalError Value :=
  match v with
  | .float x => .ok (.float (-x))
  | v =>
    match v.integer? with
    | some n =>
      match Number.ofInt? (-n.toInt) with
      | some m => .ok (.integer m)
      | none => .ok (.float (-(Number.toFloat n)))
    | none => .error (.notNumeric v.kind)

/-- The value of an operator in front of an operand. -/
def apply : UnaryOp → Value → Except EvalError Value
  | .not, v => .ok (.boolean !v.isTruthy)
  | .neg, v => negate v
  | .plus, .text _ => .error (.notNumeric .text)
  | .plus, .boolean b => .ok (.integer (if b then 1 else 0))
  | .plus, v => .ok v

end UnaryOp

namespace BinaryOp

/-- The sum of two values, or the one text behind the other. -/
def plus (l r : Value) : Except EvalError Value :=
  match l, r with
  | .text a, .text b => .ok (.text (a ++ b))
  | l, r => arithmetic .add (Number.lift₂ (· + ·)) (· + ·) l r

/-- The quotient, always a float. -/
def divide (l r : Value) : Except EvalError Value :=
  match l.float?, r.float? with
  | some a, some b => if b == 0.0 then .error .divisionByZero else .ok (.float (a / b))
  | _, _ => .error (.notOperands l.kind BinaryOp.div.symbol r.kind)

/-- The remainder. Whether the divisor is zero is asked first, whatever the dividend. -/
def remainder (l r : Value) : Except EvalError Value :=
  if r.float?.any (· == 0.0) then .error .moduloByZero
  else arithmetic .rem Number.remainder? Number.floatRemainder l r

/-- The value of an operator between two operands. -/
def apply : BinaryOp → Value → Value → Except EvalError Value
  | .add => plus
  | .sub => arithmetic .sub (Number.lift₂ (· - ·)) (· - ·)
  | .mul => arithmetic .mul (Number.lift₂ (· * ·)) (· * ·)
  | .div => divide
  | .rem => remainder

end BinaryOp

/-! ## Comparison -/

namespace Value

/-- Equality of values: text equals the same text only, and numbers and booleans are compared as
numbers. -/
def equals (l r : Value) : Bool :=
  match l, r with
  | .text a, .text b => a == b
  | .text _, _ | _, .text _ => false
  | l, r =>
    match l.integer?, r.integer? with
    | some a, some b => a == b
    | _, _ =>
      match l.float?, r.float? with
      | some a, some b => a == b
      | _, _ => false

/-- Whether two values are the same thing: of one kind, where numbers count as one kind, and
equal. -/
def isSame (l r : Value) : Bool :=
  match l, r with
  | .boolean a, .boolean b => a == b
  | .text a, .text b => a == b
  | l, r => l.isNumber && r.isNumber && l.equals r

/-- The order of two floats. What is no number has none. -/
def floatOrder (a b : Float) : Option Ordering :=
  if a < b then some .lt else if b < a then some .gt else if a == b then some .eq else none

/-- The order of two texts by their code points. -/
def textOrder (a b : String) : Ordering :=
  if a < b then .lt else if a = b then .eq else .gt

/-- The order of two values, `none` if one of them is no number. -/
def order (l r : Value) : Except EvalError (Option Ordering) :=
  match l, r with
  | .text a, .text b => .ok (some (textOrder a b))
  | l, r =>
    match l.integer?, r.integer? with
    | some a, some b => .ok (some (compare a.toInt b.toInt))
    | _, _ =>
      match l.float?, r.float? with
      | some a, some b => .ok (floatOrder a b)
      | _, _ => .error (.incomparable l.kind r.kind)

end Value

namespace CompareOp

/-- Whether an order found between two values satisfies an operator. -/
def accepts (op : CompareOp) (o : Option Ordering) : Bool :=
  match op, o with
  | .lt, some .lt => true
  | .le, some .lt | .le, some .eq => true
  | .gt, some .gt => true
  | .ge, some .gt | .ge, some .eq => true
  | _, _ => false

/-- Whether a comparison holds. -/
def holds (op : CompareOp) (l r : Value) : Except EvalError Bool :=
  match op with
  | .eq => .ok (l.equals r)
  | .ne => .ok !(l.equals r)
  | .is => .ok (l.isSame r)
  | .isNot => .ok !(l.isSame r)
  | op => (l.order r).map op.accepts

end CompareOp

end LineShell
