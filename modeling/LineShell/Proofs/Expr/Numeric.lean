import LineShell.Proofs.Expr.Parts

/-!
# Numeric expressions

What operators do to values that are no text. They make no text of them, and the only thing that can
go wrong is a zero on the right of `/` or `%`. So an expression whose variables are bound and that
holds no text has a value that is no text, unless it divides by zero (`Expr.Numeric.settles`).
-/

namespace LineShell

/-! ## Values that are no text -/

namespace Value

variable {v : Value}

theorem exists_float? (h : v.kind ≠ .text) : ∃ x, v.float? = some x := by
  cases v with
  | text s => exact absurd rfl h
  | integer n | float x | boolean b => exact ⟨_, rfl⟩

theorem exists_eq_float (h : v.kind ≠ .text) (hwhole : v.integer? = none) : ∃ x, v = .float x := by
  cases v with
  | text s => exact absurd rfl h
  | integer n | boolean b => cases hwhole
  | float x => exact ⟨x, rfl⟩

/-- The value of an operation: the whole number that it comes to, if it comes to one, and a float if
not. -/
def ofWhole (n? : Option Int64) (x : Float) : Value := n?.elim (.float x) .integer

theorem integer?_ofWhole (n? : Option Int64) (x : Float) : (ofWhole n? x).integer? = n? := by
  cases n? <;> rfl

theorem kind_ofWhole (n? : Option Int64) (x : Float) : (ofWhole n? x).kind ≠ .text := by
  cases n? <;> nofun

end Value

/-! ## Operators -/

variable {v l r : Value}

theorem wholeResult?_eq_some_iff {whole : Int64 → Int64 → Option Int64} {n : Int64} :
    wholeResult? whole l r = some n ↔
      ∃ a b, l.integer? = some a ∧ r.integer? = some b ∧ whole a b = some n := by
  rw [wholeResult?]
  cases l.integer? with
  | none => exact ⟨nofun, nofun⟩
  | some a =>
      cases r.integer? with
      | none => exact ⟨nofun, nofun⟩
      | some b => exact ⟨fun h => ⟨a, b, rfl, rfl, h⟩, by rintro ⟨_, _, ⟨⟩, ⟨⟩, h⟩; exact h⟩

theorem exists_arithmetic_eq (op : BinaryOp) (whole : Int64 → Int64 → Option Int64)
    (float : Float → Float → Float) (hl : l.kind ≠ .text) (hr : r.kind ≠ .text) :
    ∃ x, arithmetic op whole float l r = .ok (.ofWhole (wholeResult? whole l r) x) := by
  obtain ⟨x, hx⟩ := Value.exists_float? hl
  obtain ⟨y, hy⟩ := Value.exists_float? hr
  refine ⟨float x y, ?_⟩
  rw [arithmetic, hx, hy]
  cases wholeResult? whole l r <;> rfl

theorem comesTo_arithmetic (op : BinaryOp) (whole : Int64 → Int64 → Option Int64)
    (float : Float → Float → Float) (hl : l.kind ≠ .text) (hr : r.kind ≠ .text)
    (F : EvalError → Prop) :
    ComesTo (fun w => w.kind ≠ .text) F (arithmetic op whole float l r) := by
  obtain ⟨x, hx⟩ := exists_arithmetic_eq op whole float hl hr
  rw [hx]
  exact Value.kind_ofWhole _ _

namespace UnaryOp

variable {op : UnaryOp} {f : Int → Int}

/-- What a sign does to a whole number. -/
def sign? : UnaryOp → Option (Int → Int)
  | .neg => some (- ·)
  | .plus => some id
  | .not => none

theorem exists_apply_of_sign? (hop : op.sign? = some f) (h : v.kind ≠ .text) :
    ∃ x, op.apply v = .ok (.ofWhole (v.integer?.bind fun n => Number.ofInt? (f n.toInt)) x) := by
  cases op with
  | neg =>
      obtain rfl := Option.some.inj hop
      cases v with
      | text s => exact absurd rfl h
      | float x => exact ⟨-x, rfl⟩
      | integer n =>
          refine ⟨-(Number.toFloat n), ?_⟩
          dsimp only [apply, negate, Value.integer?, Option.bind_some]
          cases Number.ofInt? (-n.toInt) <;> rfl
      | boolean b => exact ⟨0, by cases b <;> rfl⟩
  | plus =>
      obtain rfl := Option.some.inj hop
      cases v with
      | text s => exact absurd rfl h
      | float x => exact ⟨x, rfl⟩
      | integer n =>
          refine ⟨0, ?_⟩
          rw [Value.integer?, Option.bind_some, id, Number.ofInt?_toInt]
          rfl
      | boolean b => exact ⟨0, by cases b <;> rfl⟩
  | not => cases hop

theorem comesTo_apply (op : UnaryOp) (h : v.kind ≠ .text) (F : EvalError → Prop) :
    ComesTo (fun w => w.kind ≠ .text) F (op.apply v) := by
  cases hop : op.sign? with
  | some f =>
      obtain ⟨x, hx⟩ := exists_apply_of_sign? hop h
      rw [hx]
      exact Value.kind_ofWhole _ _
  | none =>
      cases op with
      | not =>
          intro hkind
          cases hkind
      | neg | plus => cases hop

end UnaryOp

namespace BinaryOp

theorem plus_eq_arithmetic (h : l.kind ≠ .text) (r : Value) :
    plus l r = arithmetic .add (Number.lift₂ (· + ·)) (· + ·) l r := by
  cases l with
  | text s => exact absurd rfl h
  | integer n | float x | boolean b => rfl

/-- What is wrong with an operator if there is a zero on its right. -/
def zeroError? : BinaryOp → Option EvalError
  | .div => some .divisionByZero
  | .rem => some .moduloByZero
  | .add | .sub | .mul => none

theorem comesTo_apply (op : BinaryOp) (hl : l.kind ≠ .text) (hr : r.kind ≠ .text) :
    ComesTo (fun w => w.kind ≠ .text) (fun err => op.zeroError? = some err) (op.apply l r) := by
  cases op with
  | add =>
      rw [apply, plus_eq_arithmetic hl]
      exact comesTo_arithmetic _ _ _ hl hr _
  | sub | mul => exact comesTo_arithmetic _ _ _ hl hr _
  | div =>
      obtain ⟨x, hx⟩ := Value.exists_float? hl
      obtain ⟨y, hy⟩ := Value.exists_float? hr
      rw [apply, divide, hx, hy]
      dsimp only
      split
      · rfl
      · intro hkind
        cases hkind
  | rem =>
      rw [apply, remainder]
      split
      · rfl
      · exact comesTo_arithmetic _ _ _ hl hr _

end BinaryOp

theorem Value.comesTo_order (hl : l.kind ≠ .text) (hr : r.kind ≠ .text) (F : EvalError → Prop) :
    ComesTo (fun _ => True) F (l.order r) := by
  obtain ⟨x, hx⟩ := Value.exists_float? hl
  obtain ⟨y, hy⟩ := Value.exists_float? hr
  unfold Value.order
  split
  · trivial
  · rw [hx, hy]
    split
    · trivial
    · trivial

/-- Only the order of two values can be missing, and not all comparisons ask for it. -/
theorem CompareOp.comesTo_holds (op : CompareOp) {F : EvalError → Prop}
    (h : ComesTo (fun _ => True) F (l.order r)) : ComesTo (fun _ => True) F (op.holds l r) := by
  cases op with
  | eq | ne | is | isNot => trivial
  | lt | le | gt | ge =>
      show ComesTo _ F ((l.order r).map _)
      cases ho : l.order r with
      | ok o => trivial
      | error err =>
          rw [ho] at h
          exact h

/-! ## Expressions -/

namespace Expr

variable {vars : Variables} {e : Expr}

/-- The variables of an expression are bound, and neither they nor its literals are text. -/
structure Numeric (vars : Variables) (e : Expr) : Prop where
  literals : ∀ v, e.HasPart (.literal v) → v.kind ≠ .text
  names : ∀ w, e.HasPart (.variable w) → ∃ v, vars.get? w = some v ∧ v.kind ≠ .text

theorem Numeric.settles (h : e.Numeric vars) :
    e.Settles vars (fun v => v.kind ≠ .text) fun err =>
      ∃ op l r, e.HasPart (.binary op l r) ∧ op.zeroError? = some err where
  literals := h.literals
  names w hw := by
    obtain ⟨v, hget, hv⟩ := h.names w hw
    rw [eval, hget]
    exact hv
  unary op s v _ hv := op.comesTo_apply hv _
  binary op l r a b hpart ha hb :=
    (op.comesTo_apply ha hb).mono (fun _ hv => hv) fun _ herr => ⟨op, l, r, hpart, herr⟩
  comparisons op _ _ ha hb := op.comesTo_holds (Value.comesTo_order ha hb _)
  booleans _ := nofun

end Expr

end LineShell
