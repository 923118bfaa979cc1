import LineShell.Value

/-!
# Expressions

The trees that expressions are read into, and how deeply operators are nested in one.
-/

namespace LineShell

inductive UnaryOp
  | neg
  | plus
  | not
deriving DecidableEq, Repr

inductive BinaryOp
  | add
  | sub
  | mul
  | div
  | rem
deriving DecidableEq, Repr

/-- The sign of an operator in messages. -/
def BinaryOp.symbol : BinaryOp → String
  | .add => "+"
  | .sub => "-"
  | .mul => "*"
  | .div => "/"
  | .rem => "%"

inductive CompareOp
  | eq
  | ne
  | lt
  | le
  | gt
  | ge
  | is
  | isNot
deriving DecidableEq, Repr

/-- An expression. A comparison keeps all its operands, so that each is evaluated once:
`a < b <= c` compares `a` with `b` and `b` with `c`. -/
inductive Expr
  | literal (v : Value)
  | variable (name : String)
  | unary (op : UnaryOp) (operand : Expr)
  | binary (op : BinaryOp) (left right : Expr)
  | compare (first : Expr) (links : List (CompareOp × Expr))
  | and (left right : Expr)
  | or (left right : Expr)
deriving Repr

namespace Expr

/-- The greatest number of operators on a path from the root to a leaf. -/
def height : Expr → Nat
  | .literal _ | .variable _ => 0
  | .unary _ e => e.height + 1
  | .binary _ l r | .and l r | .or l r => max l.height r.height + 1
  | .compare e links => max e.height (heightOfLinks links) + 1
where
  /-- The greatest height among the operands of the links. -/
  heightOfLinks : List (CompareOp × Expr) → Nat
    | [] => 0
    | (_, e) :: links => max e.height (heightOfLinks links)

end Expr

end LineShell
