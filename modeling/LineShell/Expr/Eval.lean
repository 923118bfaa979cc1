import LineShell.Expr.Operator
import LineShell.Variables

/-!
# The value of an expression

Expressions are evaluated from left to right. `and` and `or` give the operand that decides, and a
chain of comparisons stops at the first that fails; what they skip is not evaluated.
-/

namespace LineShell.Expr

mutual

/-- The value of an expression among the given variables. -/
def eval (vars : Variables) : Expr → Except EvalError Value
  | .literal v => .ok v
  | .variable name =>
    match vars.get? name with
    | some v => .ok v
    | none => .error (.unbound name)
  | .unary op e => do op.apply (← e.eval vars)
  | .binary op l r => do
    let a ← l.eval vars
    let b ← r.eval vars
    op.apply a b
  | .compare first links => do
    let left ← first.eval vars
    evalLinks vars left links
  | .and l r => do
    let a ← l.eval vars
    if a.isTruthy then r.eval vars else return a
  | .or l r => do
    let a ← l.eval vars
    if a.isTruthy then return a else r.eval vars

/-- The value of the comparisons that are left, where `left` is the value of the operand in front
of them. -/
def evalLinks (vars : Variables) (left : Value) :
    List (CompareOp × Expr) → Except EvalError Value
  | [] => .ok (.boolean true)
  | (op, e) :: links => do
    let right ← e.eval vars
    if ← op.holds left right then evalLinks vars right links else return .boolean false

end

end LineShell.Expr
