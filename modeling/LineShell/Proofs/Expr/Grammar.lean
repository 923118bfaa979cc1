import LineShell.Expr.Parser

/-!
# The grammar of expressions

What an expression is spelled like, level by level, without a word on how it is read. A text of
tokens *derives* a tree at a level of precedence: `Grammar.Derives bound level ts e`. The grammar
depends on the names that are bound, because the words `and`, `or`, `not` and `is` are operators,
and `True` and `False` constants, only while no variable bears their name.

The levels, loosest first:

- chains of `or`, of `and`, of `+ -` and of `* / %`, which lean to the left (`Derives.chain`);
- `not` in front of what it negates, and comparisons, which keep all their operands side by side
  (`Derives.compare`);
- the signs `- + !` in front of their operand, and primaries.

Below the grammar stand the facts about it that a reader of tokens relies on: no derivation is
empty, none of a comparison or of anything tighter begins with `not`, and none of a primary begins
with a sign.
-/

namespace LineShell

namespace Grammar

/-! ## Operators -/

/-- The words that are operators while they are not bound. -/
def operatorWords : List String := ["and", "or", "not", "is"]

/-- The words that are constants while they are not bound. -/
def constantWords : List String := ["True", "False"]

/-- Expressions of the first level are chains of operands of the second. -/
inductive Chained : Level → Level → Prop
  | or : Chained .or .and
  | and : Chained .and .not
  | sum : Chained .sum .product
  | product : Chained .product .sign

/-- In a chain of the level, the token joins what stands on its two sides. -/
inductive Joins (bound : String → Bool) : Level → Token → (Expr → Expr → Expr) → Prop
  | or : bound "or" = false → Joins bound .or (.word "or") .or
  | and : bound "and" = false → Joins bound .and (.word "and") .and
  | add : Joins bound .sum .plus (.binary .add)
  | sub : Joins bound .sum .minus (.binary .sub)
  | mul : Joins bound .product .star (.binary .mul)
  | div : Joins bound .product .slash (.binary .div)
  | rem : Joins bound .product .percent (.binary .rem)

/-- The tokens are one comparison operator. -/
inductive Compares (bound : String → Bool) : List Token → CompareOp → Prop
  | eq : Compares bound [.equal] .eq
  | ne : Compares bound [.notEqual] .ne
  | lt : Compares bound [.less] .lt
  | le : Compares bound [.lessEqual] .le
  | gt : Compares bound [.greater] .gt
  | ge : Compares bound [.greaterEqual] .ge
  | is : bound "is" = false → Compares bound [.word "is"] .is
  | isNot : bound "is" = false → bound "not" = false →
      Compares bound [.word "is", .word "not"] .isNot

/-- The token is a sign in front of an operand. -/
inductive Signs : Token → UnaryOp → Prop
  | neg : Signs .minus .neg
  | plus : Signs .plus .plus
  | not : Signs .bang .not

/-- The token is a bracket, a sign or an operator. -/
def isOperator (bound : String → Bool) : Token → Bool
  | .integer _ | .float _ | .text _ => false
  | .word w => !bound w && operatorWords.contains w
  | _ => true

/-- How many of the tokens are brackets, signs or operators. -/
def operatorCount (bound : String → Bool) (ts : List Token) : Nat := ts.countP (isOperator bound)

/-- One link of a chain of comparisons: an operator and an operand, and how they are spelled. -/
structure Link where
  sign : List Token
  op : CompareOp
  spelled : List Token
  operand : Expr

/-- The tokens of a link. -/
def Link.tokens (l : Link) : List Token := l.sign ++ l.spelled

/-- What a link adds to the tree. -/
def Link.entry (l : Link) : CompareOp × Expr := (l.op, l.operand)

/-! ## Derivations -/

/-- The tokens derive the expression at the level. -/
inductive Derives (bound : String → Bool) : Level → List Token → Expr → Prop
  /-- A chain may be a single operand. -/
  | operand {level operand : Level} {ts : List Token} {e : Expr} :
      Chained level operand → Derives bound operand ts e → Derives bound level ts e
  /-- A chain goes on with one more operand, and all that was there becomes its left side. -/
  | chain {level operand : Level} {t : Token} {join : Expr → Expr → Expr} {ls rs : List Token}
      {l r : Expr} :
      Chained level operand → Joins bound level t join → Derives bound level ls l →
        Derives bound operand rs r → Derives bound level (ls ++ t :: rs) (join l r)
  | not {ts : List Token} {e : Expr} :
      bound "not" = false → Derives bound .not ts e →
        Derives bound .not (.word "not" :: ts) (.unary .not e)
  | comparison {ts : List Token} {e : Expr} :
      Derives bound .comparison ts e → Derives bound .not ts e
  /-- A comparison has one link at least. -/
  | compare {ts : List Token} {e : Expr} (links : List Link) :
      links ≠ [] → Derives bound .sum ts e → (∀ l ∈ links, Compares bound l.sign l.op) →
        (∀ l ∈ links, Derives bound .sum l.spelled l.operand) →
          Derives bound .comparison (ts ++ links.flatMap Link.tokens)
            (.compare e (links.map Link.entry))
  | sum {ts : List Token} {e : Expr} :
      Derives bound .sum ts e → Derives bound .comparison ts e
  | sign {t : Token} {op : UnaryOp} {ts : List Token} {e : Expr} :
      Signs t op → Derives bound .sign ts e → Derives bound .sign (t :: ts) (.unary op e)
  | primary {ts : List Token} {e : Expr} :
      Derives bound .primary ts e → Derives bound .sign ts e
  | brackets {ts : List Token} {e : Expr} :
      Derives bound .or ts e → Derives bound .primary (.openParen :: ts ++ [.closeParen]) e
  | integer (n : Int64) : Derives bound .primary [.integer n] (.literal (.integer n))
  | float (x : Float) : Derives bound .primary [.float x] (.literal (.float x))
  | text (s : String) : Derives bound .primary [.text s] (.literal (.text s))
  | trueWord : bound "True" = false →
      Derives bound .primary [.word "True"] (.literal (.boolean true))
  | falseWord : bound "False" = false →
      Derives bound .primary [.word "False"] (.literal (.boolean false))
  /-- A bound word is a variable whatever it is, and so is any word that has no other use. -/
  | name {w : String} :
      bound w = true ∨ w ∉ operatorWords ++ constantWords →
        Derives bound .primary [.word w] (.variable w)

/-! ## How derivations begin -/

variable {bound : String → Bool}

/-- How tightly a level binds. -/
def tightness : Level → Nat
  | .or => 0
  | .and => 1
  | .not => 2
  | .comparison => 3
  | .sum => 4
  | .product => 5
  | .sign => 6
  | .primary => 7

theorem Chained.tightness_lt {level operand : Level} (h : Chained level operand) :
    tightness level < tightness operand := by
  cases h <;> decide

/-- Whatever is derived has a first token, which is no `not` from comparisons on. -/
theorem Derives.exists_cons {level : Level} {ts : List Token} {e : Expr}
    (h : Derives bound level ts e) :
    ∃ t us, ts = t :: us ∧
      (tightness .comparison ≤ tightness level → Parser.isKeyword bound "not" t = false) := by
  induction h with
  | operand hc _ ih =>
      obtain ⟨t, us, rfl, hn⟩ := ih
      exact ⟨t, us, rfl, fun hl => hn (Nat.le_trans hl (Nat.le_of_lt hc.tightness_lt))⟩
  | chain _ _ _ _ ihl _ =>
      obtain ⟨t, us, rfl, hn⟩ := ihl
      exact ⟨t, _, rfl, hn⟩
  | not _ _ _ => exact ⟨_, _, rfl, fun hl => absurd hl (by decide)⟩
  | comparison _ ih =>
      obtain ⟨t, us, rfl, -⟩ := ih
      exact ⟨t, us, rfl, fun hl => absurd hl (by decide)⟩
  | compare links _ _ _ _ ih _ =>
      obtain ⟨t, us, rfl, hn⟩ := ih
      exact ⟨t, _, rfl, fun _ => hn (by decide)⟩
  | sum _ ih | primary _ ih =>
      obtain ⟨t, us, rfl, hn⟩ := ih
      exact ⟨t, us, rfl, fun _ => hn (by decide)⟩
  | sign hs _ _ => exact ⟨_, _, rfl, fun _ => by cases hs <;> rfl⟩
  | brackets _ _ => exact ⟨_, _, rfl, fun _ => rfl⟩
  | integer _ | float _ | text _ => exact ⟨_, _, rfl, fun _ => rfl⟩
  | trueWord _ | falseWord _ => exact ⟨_, _, rfl, fun _ => by simp [Parser.isKeyword]⟩
  | @name w hw =>
      refine ⟨_, _, rfl, fun _ => ?_⟩
      rcases hw with hb | hw
      · simp [Parser.isKeyword, hb]
      · have hne : w ≠ "not" := by
          rintro rfl
          exact hw (by decide)
        simp [Parser.isKeyword, hne]

/-- A primary begins with no sign. -/
theorem Derives.exists_cons_primary {ts : List Token} {e : Expr}
    (h : Derives bound .primary ts e) : ∃ t us, ts = t :: us ∧ Parser.sign? t = none := by
  cases h with
  | operand hc _ => cases hc
  | chain hc _ _ _ => cases hc
  | brackets | integer | float | text | trueWord | falseWord | name => exact ⟨_, _, rfl, rfl⟩

end Grammar

end LineShell
