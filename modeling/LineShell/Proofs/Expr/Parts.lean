import LineShell.Expr.Eval
import LineShell.Proofs.Expr.Paths

/-!
# Parts of expressions

The expressions that stand in an expression (`Expr.HasPart`), and what follows from them for its
value (`Expr.Settles.comesTo`). Let the literals and the variables of an expression have values of
some sort, and let its operators make only such values of such values, or fail for one of some
reasons. Then the expression comes to a value of that sort, or fails for one of these reasons.
-/

namespace LineShell

/-! ## What steps come to -/

section

variable {α β : Type} {V : α → Prop} {W : β → Prop} {F G : EvalError → Prop}

/-- A result with `V`, or a failure with `F`. -/
def ComesTo (V : α → Prop) (F : EvalError → Prop) : Except EvalError α → Prop
  | .ok a => V a
  | .error err => F err

theorem ComesTo.bind {x : Except EvalError α} {f : α → Except EvalError β} (h : ComesTo V F x)
    (hf : ∀ a, V a → ComesTo W F (f a)) : ComesTo W F (x >>= f) := by
  cases x with
  | ok a => exact hf a h
  | error err => exact h

theorem ComesTo.mono {W : α → Prop} {x : Except EvalError α} (h : ComesTo V F x)
    (hV : ∀ a, V a → W a) (hF : ∀ err, F err → G err) : ComesTo W G x := by
  cases x with
  | ok a => exact hV a h
  | error err => exact hF err h

end

namespace Expr

/-! ## Parts -/

/-- The other expression is this one, or stands somewhere in it. -/
inductive HasPart : Expr → Expr → Prop
  | self (e : Expr) : HasPart e e
  | unary {op : UnaryOp} {e s : Expr} : HasPart e s → HasPart (.unary op e) s
  | binaryLeft {op : BinaryOp} {l r s : Expr} : HasPart l s → HasPart (.binary op l r) s
  | binaryRight {op : BinaryOp} {l r s : Expr} : HasPart r s → HasPart (.binary op l r) s
  | compareFirst {e s : Expr} {links : List (CompareOp × Expr)} :
      HasPart e s → HasPart (.compare e links) s
  | compareOther {e s : Expr} {links : List (CompareOp × Expr)} {l : CompareOp × Expr} :
      l ∈ links → HasPart l.2 s → HasPart (.compare e links) s
  | andLeft {l r s : Expr} : HasPart l s → HasPart (.and l r) s
  | andRight {l r s : Expr} : HasPart r s → HasPart (.and l r) s
  | orLeft {l r s : Expr} : HasPart l s → HasPart (.or l r) s
  | orRight {l r s : Expr} : HasPart r s → HasPart (.or l r) s

/-! ## Values from the values of the parts -/

variable {vars : Variables} {V : Value → Prop} {F : EvalError → Prop} {e s : Expr}

/-- Values with `V` are what the leaves of the expression have and its operators keep, and failures
with `F` are all that they fail with. -/
structure Settles (vars : Variables) (V : Value → Prop) (F : EvalError → Prop) (e : Expr) :
    Prop where
  literals : ∀ v, e.HasPart (.literal v) → V v
  names : ∀ w, e.HasPart (.variable w) → ComesTo V F ((Expr.variable w).eval vars)
  unary : ∀ op s v, e.HasPart (.unary op s) → V v → ComesTo V F (op.apply v)
  binary : ∀ op l r a b, e.HasPart (.binary op l r) → V a → V b → ComesTo V F (op.apply a b)
  comparisons : ∀ (op : CompareOp) a b, V a → V b → ComesTo (fun _ => True) F (op.holds a b)
  booleans : ∀ b, V (.boolean b)

theorem Settles.of_parts (h : e.Settles vars V F) (hparts : ∀ p, s.HasPart p → e.HasPart p) :
    s.Settles vars V F where
  literals v hv := h.literals v (hparts _ hv)
  names w hw := h.names w (hparts _ hw)
  unary op s v hs := h.unary op s v (hparts _ hs)
  binary op l r a b hs := h.binary op l r a b (hparts _ hs)
  comparisons := h.comparisons
  booleans := h.booleans

theorem Settles.evalLinks (h : e.Settles vars V F) {links : List (CompareOp × Expr)}
    (hlinks : ∀ l ∈ links, ComesTo V F (l.2.eval vars)) {left : Value} (hleft : V left) :
    ComesTo V F (evalLinks vars left links) := by
  induction links generalizing left with
  | nil => exact h.booleans true
  | cons l links ih =>
      obtain ⟨op, s⟩ := l
      obtain ⟨hs, hlinks⟩ := List.forall_mem_cons.mp hlinks
      rw [Expr.evalLinks]
      refine hs.bind fun right hright => ?_
      refine (h.comparisons op left right hleft hright).bind fun b _ => ?_
      cases b with
      | true => exact ih hlinks hright
      | false => exact h.booleans false

theorem Settles.comesTo (h : e.Settles vars V F) : ComesTo V F (e.eval vars) := by
  induction e using Expr.induction with
  | literal v =>
      rw [eval]
      exact h.literals v (.self _)
  | name w => exact h.names w (.self _)
  | unary op e ih =>
      rw [eval]
      exact (ih (h.of_parts fun p => .unary)).bind fun v hv => h.unary op e v (.self _) hv
  | binary op l r ihl ihr =>
      rw [eval]
      refine (ihl (h.of_parts fun p => .binaryLeft)).bind fun a ha => ?_
      refine (ihr (h.of_parts fun p => .binaryRight)).bind fun b hb => ?_
      exact h.binary op l r a b (.self _) ha hb
  | compare e links ih ihs =>
      rw [eval]
      refine (ih (h.of_parts fun p => .compareFirst)).bind fun v hv => ?_
      exact h.evalLinks (fun l hl => ihs l hl (h.of_parts fun p => .compareOther hl)) hv
  | and l r ihl ihr =>
      rw [eval]
      refine (ihl (h.of_parts fun p => .andLeft)).bind fun v hv => ?_
      split
      · exact ihr (h.of_parts fun p => .andRight)
      · exact hv
  | or l r ihl ihr =>
      rw [eval]
      refine (ihl (h.of_parts fun p => .orLeft)).bind fun v hv => ?_
      split
      · exact hv
      · exact ihr (h.of_parts fun p => .orRight)

end Expr

end LineShell
