import LineShell.Expr.Parser

/-!
# From tokens to expressions, step by step

The same grammar, read by a walk along the tokens. The walk is at a place among them and at a depth,
and it changes both as it goes: what it looks at is the token at its place, and a bracket, an
operator in front of its operand and every step along a chain take it one deeper. Behind a bracket
and behind an operand it goes up by one, and behind a chain it goes back to the depth that the chain
began at. It may have gone too deep, and then it ends; to go up from depth zero would be a fault.

Nothing in the definitions bounds the walk: one that never ended would have no result. The calls of
the levels are written down as they are made, each with the depth that it is made at.
-/

namespace LineShell

/-- Why a walk ends early. -/
inductive Walk.Stop
  | refused (e : ParseError)
  /-- The depth would fall below zero. -/
  | underflow
deriving DecidableEq, Repr

/-- Where a walk is. -/
structure Walk.State where
  place : Nat
  depth : Nat
  /-- The levels that were called and the depths that they were called at, newest first. -/
  calls : List (Level × Nat)
deriving DecidableEq, Repr

/-- A walk that gives something, unless it ends early or never. -/
abbrev Walk := ExceptT Walk.Stop (StateT Walk.State Option)

namespace Walk

/-! ## Steps -/

section

variable (bound : String → Bool) (ts : List Token)

/-- The token at the place. -/
def peek : Walk (Option Token) := do
  let s ← get
  return ts[s.place]?

/-- Goes on by one place. -/
def skip : Walk Unit := modify fun s => { s with place := s.place + 1 }

/-- The token at the place, which is left behind even if there is none. -/
def advance : Walk (Option Token) := do
  let t ← peek ts
  skip
  return t

/-- Whether the word operator `keyword` is at a place. -/
def isKeywordAt (place : Nat) (keyword : String) : Bool :=
  ts[place]?.any (Parser.isKeyword bound keyword)

/-- Leaves a word operator behind if it is at the place. -/
def eatKeyword (keyword : String) : Walk Bool := do
  let s ← get
  if isKeywordAt bound ts s.place keyword then
    skip
    return true
  else return false

/-- The comparison at the place, the last token of which is left to be passed. -/
def comparisonAt : Walk (Option CompareOp) := do
  let s ← get
  if isKeywordAt bound ts s.place "is" then
    if isKeywordAt bound ts (s.place + 1) "not" then
      skip
      return some .isNot
    else return some .is
  else return ts[s.place]?.bind Parser.comparison?

end

def refuse {α : Type} (e : ParseError) : Walk α := throw (.refused e)

/-- Goes one deeper. -/
def descend : Walk Unit := do
  modify fun s => { s with depth := s.depth + 1 }
  let s ← get
  if maxDepth < s.depth then refuse .tooDeep

/-- Goes up by one. -/
def ascend : Walk Unit := do
  let s ← get
  if s.depth = 0 then throw .underflow
  else set { s with depth := s.depth - 1 }

/-- Goes back to a depth. -/
def restore (depth : Nat) : Walk Unit := modify fun s => { s with depth }

/-- What was left behind, as an operand of its own. -/
def leaf (bound : String → Bool) : Option Token → Walk Expr
  | some (.integer n) => return .literal (.integer n)
  | some (.float x) => return .literal (.float x)
  | some (.text s) => return .literal (.text s)
  | some (.word w) =>
    match Parser.ofWord bound w with
    | .ok e => return e
    | .error e => refuse e
  | some t => refuse (.unexpectedToken t)
  | none => refuse .unexpectedEnd

/-- Writes the call of a level down. -/
def enter (level : Level) : Walk Unit :=
  modify fun s => { s with calls := (level, s.depth) :: s.calls }

/-- What a walk comes to from a state, and where it ends. -/
def run {α : Type} (walk : Walk α) (s : State) : Option (Except Stop α × State) :=
  StateT.run (ExceptT.run walk) s

/-- A walk that begins at the first token. -/
def State.start : State := ⟨0, 0, []⟩

end Walk

/-! ## Levels -/

section

open Walk

variable (bound : String → Bool) (ts : List Token)

mutual

/-- The expression of the level. -/
def Level.read (level : Level) : Walk Expr := do
  enter level
  match level with
  | .or => Level.or |>.readChain .and
  | .and => Level.and |>.readChain .not
  | .sum => Level.sum |>.readChain .product
  | .product => Level.product |>.readChain .sign
  | .not =>
    if ← eatKeyword bound ts "not" then
      descend
      let operand ← Level.not |>.read
      ascend
      return .unary .not operand
    else Level.comparison |>.read
  | .comparison =>
    let s ← get
    let first ← Level.sum |>.read
    let links ← Level.sum |>.readLinks
    restore s.depth
    return if links.isEmpty then first else .compare first links
  | .sign =>
    match (← peek ts).bind Parser.sign? with
    | some op =>
      skip
      descend
      let operand ← Level.sign |>.read
      ascend
      return .unary op operand
    | none => Level.primary |>.read
  | .primary =>
    match ← advance ts with
    | some .openParen =>
      descend
      let inner ← Level.or |>.read
      ascend
      match ← advance ts with
      | some .closeParen => return inner
      | _ => refuse .unclosedParen
    | t => leaf bound t
partial_fixpoint

/-- A chain of operators of the level, with operands of another. -/
def Level.readChain (level operand : Level) : Walk Expr := do
  let s ← get
  let left ← operand |>.read
  let e ← level |>.goOn operand left
  restore s.depth
  return e
partial_fixpoint

/-- Goes on with a chain behind its operands so far, which are in `left`. -/
def Level.goOn (level operand : Level) (left : Expr) : Walk Expr := do
  match (← peek ts).bind (Parser.joint? bound level) with
  | some join =>
    skip
    descend
    let right ← operand |>.read
    level |>.goOn operand (join left right)
  | none => return left
partial_fixpoint

/-- The comparisons behind a first operand, each with its own operand of the level. -/
def Level.readLinks (operand : Level) : Walk (List (CompareOp × Expr)) := do
  match ← comparisonAt bound ts with
  | some op =>
    skip
    descend
    let e ← operand |>.read
    let links ← operand |>.readLinks
    return (op, e) :: links
  | none => return []
partial_fixpoint

end

/-- All tokens as one expression. -/
def Walk.readAll : Walk Expr := do
  if ts.isEmpty then refuse .empty
  let e ← Level.or.read bound ts
  match ← peek ts with
  | none => return e
  | some t => refuse (.unexpectedToken t)

end

end LineShell
