import LineShell.Expr
import LineShell.Expr.Lexer

/-!
# From tokens to expressions

Expressions are read by levels of precedence: `or`, `and`, `not`, comparisons, sums, products,
signs, and primaries. The word operators count as such only while no variable bears their name,
and so do `True` and `False`.

How deep an expression may go is a budget. Every bracket, every operator in front of its operand
and every step along a chain of operators takes one from the budget of what follows it, and what is
read next at the same place starts again from the budget of that place. So the readers with a budget
are made from those with one less, and within a budget each level calls only tighter ones.
-/

namespace LineShell

/-- The greatest depth of an expression. -/
def maxDepth : Nat := 200

/-- The levels of precedence, loosest first. -/
inductive Level
  | or
  | and
  | not
  | comparison
  | sum
  | product
  | sign
  | primary
deriving DecidableEq, Repr

namespace Parser

/-- Whether a token is the word operator `keyword`. -/
def isKeyword (bound : String → Bool) (keyword : String) : Token → Bool
  | .word w => w == keyword && !bound w
  | _ => false

/-- The operator of a chain of the given level that a token stands for. -/
def joint? (bound : String → Bool) : Level → Token → Option (Expr → Expr → Expr)
  | .or, t => if isKeyword bound "or" t then some .or else none
  | .and, t => if isKeyword bound "and" t then some .and else none
  | .sum, .plus => some (.binary .add)
  | .sum, .minus => some (.binary .sub)
  | .product, .star => some (.binary .mul)
  | .product, .slash => some (.binary .div)
  | .product, .percent => some (.binary .rem)
  | _, _ => none

/-- The operator that a token in front of its operand stands for. -/
def sign? : Token → Option UnaryOp
  | .minus => some .neg
  | .plus => some .plus
  | .bang => some .not
  | _ => none

/-- The comparison that a symbol stands for. -/
def comparison? : Token → Option CompareOp
  | .equal => some .eq
  | .notEqual => some .ne
  | .less => some .lt
  | .lessEqual => some .le
  | .greater => some .gt
  | .greaterEqual => some .ge
  | _ => none

/-- The comparison at the head of the tokens, and the rest. The words `is` and `not` next to each
other are one. -/
def compare? (bound : String → Bool) : List Token → Option (CompareOp × List Token)
  | [] => none
  | t :: ts =>
    if isKeyword bound "is" t then
      match ts with
      | u :: us => if isKeyword bound "not" u then some (.isNot, us) else some (.is, ts)
      | [] => some (.is, [])
    else (comparison? t).map fun op => (op, ts)

/-- What a word stands for as an operand. -/
def ofWord (bound : String → Bool) (w : String) : Except ParseError Expr :=
  if bound w then .ok (.variable w)
  else if w = "True" then .ok (.literal (.boolean true))
  else if w = "False" then .ok (.literal (.boolean false))
  else if w = "and" ∨ w = "or" ∨ w = "not" ∨ w = "is" then .error (.unexpectedKeyword w)
  else .ok (.variable w)

/-- Reads what is at the head of the tokens, and gives the rest. -/
abbrev Reader (α : Type) := List Token → Except ParseError (α × List Token)

/-- The readers that share a budget: of an expression of a level, of what goes on with a chain of a
level, given the level of its operands and what they amount to so far, and of the comparisons behind
a first operand. -/
structure Readers where
  expr : Level → Reader Expr
  chain : Level → Level → Expr → Reader Expr
  links : Reader (List (CompareOp × Expr))

/-- The readers one step further down, if the budget has that step. -/
def descend : Option Readers → Except ParseError Readers
  | none => .error .tooDeep
  | some readers => .ok readers

section AtBudget

variable (bound : String → Bool) (deeper : Option Readers)

/-- Goes on with a chain of operators of one level behind its operands so far, which are in `left`;
its operands are of the level `operand`. -/
def chain (level operand : Level) (left : Expr) : Reader Expr
  | [] => .ok (left, [])
  | t :: ts =>
    match joint? bound level t with
    | none => .ok (left, t :: ts)
    | some join => do
      let readers ← descend deeper
      let (right, rest) ← readers.expr operand ts
      readers.chain level operand (join left right) rest

/-- The comparisons behind the first operand, each with its own operand. -/
def links : Reader (List (CompareOp × Expr)) := fun ts =>
  match compare? bound ts with
  | none => .ok ([], ts)
  | some (op, ts) => do
    let readers ← descend deeper
    let (operand, rest) ← readers.expr .sum ts
    let (links, rest) ← readers.links rest
    return ((op, operand) :: links, rest)

/-- A constant, a name, or an expression in brackets. -/
def primary : Reader Expr
  | [] => .error .unexpectedEnd
  | .integer n :: ts => .ok (.literal (.integer n), ts)
  | .float x :: ts => .ok (.literal (.float x), ts)
  | .text s :: ts => .ok (.literal (.text s), ts)
  | .word w :: ts => do
    let e ← ofWord bound w
    return (e, ts)
  | .openParen :: ts => do
    let readers ← descend deeper
    let (inner, rest) ← readers.expr .or ts
    match rest with
    | .closeParen :: rest => .ok (inner, rest)
    | _ => .error .unclosedParen
  | t :: _ => .error (.unexpectedToken t)

/-- A primary with any number of signs in front of it. -/
def signed : Reader Expr
  | [] => primary bound deeper []
  | t :: ts =>
    match sign? t with
    | none => primary bound deeper (t :: ts)
    | some op => do
      let readers ← descend deeper
      let (operand, rest) ← readers.expr .sign ts
      return (.unary op operand, rest)

def product : Reader Expr := fun ts => do
  let (left, rest) ← signed bound deeper ts
  chain bound deeper .product .sign left rest

def sum : Reader Expr := fun ts => do
  let (left, rest) ← product bound deeper ts
  chain bound deeper .sum .product left rest

/-- A sum, or a comparison of sums. -/
def comparison : Reader Expr := fun ts => do
  let (first, rest) ← sum bound deeper ts
  let (links, rest) ← links bound deeper rest
  return (if links.isEmpty then first else .compare first links, rest)

/-- A comparison with any number of negations in front of it. -/
def negated : Reader Expr
  | [] => comparison bound deeper []
  | t :: ts =>
    if isKeyword bound "not" t then do
      let readers ← descend deeper
      let (operand, rest) ← readers.expr .not ts
      return (.unary .not operand, rest)
    else comparison bound deeper (t :: ts)

def conjunction : Reader Expr := fun ts => do
  let (left, rest) ← negated bound deeper ts
  chain bound deeper .and .not left rest

def disjunction : Reader Expr := fun ts => do
  let (left, rest) ← conjunction bound deeper ts
  chain bound deeper .or .and left rest

/-- The expression of the given level. -/
def expr : Level → Reader Expr
  | .or => disjunction bound deeper
  | .and => conjunction bound deeper
  | .not => negated bound deeper
  | .comparison => comparison bound deeper
  | .sum => sum bound deeper
  | .product => product bound deeper
  | .sign => signed bound deeper
  | .primary => primary bound deeper

/-- The readers one step above the given ones. -/
def ascend : Readers := ⟨expr bound deeper, chain bound deeper, links bound deeper⟩

end AtBudget

/-- The readers with the given budget. -/
def readers (bound : String → Bool) : Nat → Readers
  | 0 => ascend bound none
  | budget + 1 => ascend bound (some (readers bound budget))

end Parser

namespace Expr

/-- The expression of a list of tokens. -/
def ofTokens (bound : String → Bool) (ts : List Token) : Except ParseError Expr :=
  match ts with
  | [] => .error .empty
  | _ :: _ =>
    match (Parser.readers bound maxDepth).expr .or ts with
    | .error e => .error e
    | .ok (e, []) => .ok e
    | .ok (_, t :: _) => .error (.unexpectedToken t)

/-- The expression of a text, among variables with the bound names. -/
def ofText (bound : String → Bool) (s : String) : Except ParseError Expr :=
  match Token.ofChars s.toList with
  | .error e => .error e
  | .ok ts => ofTokens bound ts

end Expr

end LineShell
