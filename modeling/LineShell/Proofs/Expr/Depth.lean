import LineShell.Proofs.Expr.Grammar
import Mathlib.Tactic.Choose

/-!
# How deep derivations nest

A derivation with its depth counted: `Grammar.DerivesIn bound level steps depth ts e`. A bracket, a
sign and a `not` are one deeper than what they stand in front of. So is every step of a chain, but
only for its right operand: the operand behind the second operator is two deeper than the first one,
which is as deep as the chain itself. The depth takes nothing away: what derives at all derives at
some depth (`derives_iff_exists_derivesIn`).
-/

namespace LineShell

namespace Grammar

/-- The depth of links with operands of the given depths, each one deeper than the one before. -/
def linksDepth : List Nat → Nat
  | [] => 0
  | d :: ds => max d (linksDepth ds) + 1

/-- The tokens derive the expression at the level, by a chain of so many steps if it is a level of
chains, and nest so deep. -/
inductive DerivesIn (bound : String → Bool) : Level → Nat → Nat → List Token → Expr → Prop
  | operand {level operand : Level} {k d : Nat} {ts : List Token} {e : Expr} :
      Chained level operand → DerivesIn bound operand k d ts e → DerivesIn bound level 0 d ts e
  | chain {level operand : Level} {t : Token} {join : Expr → Expr → Expr} {k d k' d' : Nat}
      {ls rs : List Token} {l r : Expr} :
      Chained level operand → Joins bound level t join → DerivesIn bound level k d ls l →
        DerivesIn bound operand k' d' rs r →
          DerivesIn bound level (k + 1) (max d (k + 1 + d')) (ls ++ t :: rs) (join l r)
  | not {k d : Nat} {ts : List Token} {e : Expr} :
      bound "not" = false → DerivesIn bound .not k d ts e →
        DerivesIn bound .not 0 (d + 1) (.word "not" :: ts) (.unary .not e)
  | comparison {k d : Nat} {ts : List Token} {e : Expr} :
      DerivesIn bound .comparison k d ts e → DerivesIn bound .not 0 d ts e
  | compare {k d : Nat} {ts : List Token} {e : Expr} (links : List Link)
      (steps depth : Link → Nat) :
      links ≠ [] → DerivesIn bound .sum k d ts e → (∀ l ∈ links, Compares bound l.sign l.op) →
        (∀ l ∈ links, DerivesIn bound .sum (steps l) (depth l) l.spelled l.operand) →
          DerivesIn bound .comparison 0 (max d (linksDepth (links.map depth)))
            (ts ++ links.flatMap Link.tokens) (.compare e (links.map Link.entry))
  | sum {k d : Nat} {ts : List Token} {e : Expr} :
      DerivesIn bound .sum k d ts e → DerivesIn bound .comparison 0 d ts e
  | sign {t : Token} {op : UnaryOp} {k d : Nat} {ts : List Token} {e : Expr} :
      Signs t op → DerivesIn bound .sign k d ts e →
        DerivesIn bound .sign 0 (d + 1) (t :: ts) (.unary op e)
  | primary {k d : Nat} {ts : List Token} {e : Expr} :
      DerivesIn bound .primary k d ts e → DerivesIn bound .sign 0 d ts e
  | brackets {k d : Nat} {ts : List Token} {e : Expr} :
      DerivesIn bound .or k d ts e →
        DerivesIn bound .primary 0 (d + 1) (.openParen :: ts ++ [.closeParen]) e
  /-- A primary that is a single token. -/
  | atom {t : Token} {e : Expr} :
      Derives bound .primary [t] e → DerivesIn bound .primary 0 0 [t] e

variable {bound : String → Bool}

theorem DerivesIn.derives {level : Level} {k d : Nat} {ts : List Token} {e : Expr}
    (h : DerivesIn bound level k d ts e) : Derives bound level ts e := by
  induction h with
  | operand hc _ ih => exact .operand hc ih
  | chain hc hj _ _ ihl ihr => exact .chain hc hj ihl ihr
  | not hb _ ih => exact .not hb ih
  | comparison _ ih => exact .comparison ih
  | compare links _ _ hne _ hcs _ ih ihs => exact .compare links hne ih hcs ihs
  | sum _ ih => exact .sum ih
  | sign hs _ ih => exact .sign hs ih
  | primary _ ih => exact .primary ih
  | brackets _ ih => exact .brackets ih
  | atom h => exact h

theorem Derives.exists_derivesIn {level : Level} {ts : List Token} {e : Expr}
    (h : Derives bound level ts e) : ∃ k d, DerivesIn bound level k d ts e := by
  induction h with
  | operand hc _ ih =>
      obtain ⟨k, d, h⟩ := ih
      exact ⟨_, _, .operand hc h⟩
  | chain hc hj _ _ ihl ihr =>
      obtain ⟨k, d, hl⟩ := ihl
      obtain ⟨k', d', hr⟩ := ihr
      exact ⟨_, _, .chain hc hj hl hr⟩
  | not hb _ ih =>
      obtain ⟨k, d, h⟩ := ih
      exact ⟨_, _, .not hb h⟩
  | comparison _ ih =>
      obtain ⟨k, d, h⟩ := ih
      exact ⟨_, _, .comparison h⟩
  | compare links hne _ hcs _ ih ihs =>
      obtain ⟨k, d, h⟩ := ih
      choose! steps depth hs using ihs
      exact ⟨_, _, .compare links steps depth hne h hcs hs⟩
  | sum _ ih =>
      obtain ⟨k, d, h⟩ := ih
      exact ⟨_, _, .sum h⟩
  | sign hs _ ih =>
      obtain ⟨k, d, h⟩ := ih
      exact ⟨_, _, .sign hs h⟩
  | primary _ ih =>
      obtain ⟨k, d, h⟩ := ih
      exact ⟨_, _, .primary h⟩
  | brackets _ ih =>
      obtain ⟨k, d, h⟩ := ih
      exact ⟨_, _, .brackets h⟩
  | integer n => exact ⟨_, _, .atom (.integer n)⟩
  | float x => exact ⟨_, _, .atom (.float x)⟩
  | text s => exact ⟨_, _, .atom (.text s)⟩
  | trueWord hb => exact ⟨_, _, .atom (.trueWord hb)⟩
  | falseWord hb => exact ⟨_, _, .atom (.falseWord hb)⟩
  | name hw => exact ⟨_, _, .atom (.name hw)⟩

theorem derives_iff_exists_derivesIn {level : Level} {ts : List Token} {e : Expr} :
    Derives bound level ts e ↔ ∃ k d, DerivesIn bound level k d ts e :=
  ⟨Derives.exists_derivesIn, fun ⟨_, _, h⟩ => h.derives⟩

end Grammar

end LineShell
