import LineShell.Expr.Eval
import LineShell.Proofs.Sequence

/-!
# Chains of comparisons

A chain of comparisons means that all its links hold: `a < b <= c` has the value of `a < b and b <=
c`, or fails as that does. The chain evaluates each operand once and goes on with its value, and the
conjunction evaluates the operands between two links twice. That the two agree rests on a third
form, in which the conjuncts are taken one after the other as long as they are true
(`evalConjuncts`): both ways to bracket a conjunction come to that (`eval_conjoin`,
`eval_conjoinRight`), and so does what is left of a chain, whichever operand stands in front of it
(`evalLinks_eq_evalConjuncts`).
-/

namespace LineShell.Expr

/-- The comparisons of two operands that a chain stands for. -/
def comparisons : Expr → List (CompareOp × Expr) → List Expr
  | _, [] => []
  | e, (op, e') :: links => .compare e [(op, e')] :: comparisons e' links

/-- The conjunction of expressions as it is read, bracketed from the left. -/
def conjoin (c : Expr) (cs : List Expr) : Expr := cs.foldl .and c

/-- The conjunction of expressions, bracketed from the right. -/
def conjoinRight : Expr → List Expr → Expr
  | c, [] => c
  | c, c' :: cs => .and c (conjoinRight c' cs)

/-- The value of the conjuncts that are left, where `v` is the value so far. -/
def evalConjuncts (vars : Variables) (v : Value) : List Expr → Except EvalError Value
  | [] => .ok v
  | c :: cs =>
    if v.isTruthy then do
      let w ← c.eval vars
      evalConjuncts vars w cs
    else .ok v

-- The equations of the evaluator are made once, here, and not by each proof that needs them.
attribute [local simp] eval evalLinks

variable {vars : Variables} {v : Value}

/-! ## Conjunctions -/

theorem evalConjuncts_of_falsy (hv : v.isTruthy = false) (cs : List Expr) :
    evalConjuncts vars v cs = .ok v := by
  cases cs with
  | nil => rfl
  | cons c cs => simp [evalConjuncts, hv]

theorem eval_conjoin (c : Expr) (cs : List Expr) :
    (conjoin c cs).eval vars = (c.eval vars >>= fun v => evalConjuncts vars v cs) := by
  induction cs generalizing c with
  | nil =>
      show c.eval vars = _
      cases c.eval vars <;> rfl
  | cons c' cs ih =>
      show (conjoin (.and c c') cs).eval vars = _
      rw [ih, eval]
      cases c.eval vars with
      | error err => rfl
      | ok v =>
          cases hv : v.isTruthy with
          | true => simp [bind, Except.bind, evalConjuncts, hv]
          | false =>
              simp [bind, Except.bind, pure, Except.pure, evalConjuncts_of_falsy hv, hv]

theorem eval_conjoinRight (c : Expr) (cs : List Expr) :
    (conjoinRight c cs).eval vars = (c.eval vars >>= fun v => evalConjuncts vars v cs) := by
  induction cs generalizing c with
  | nil =>
      show c.eval vars = _
      cases c.eval vars <;> rfl
  | cons c' cs ih =>
      rw [conjoinRight, eval, ih]
      rfl

/-! ## Chains -/

/-- A link holds or fails by itself as it does in a chain. -/
theorem eval_link {e : Expr} {left : Value} (he : e.eval vars = .ok left) (op : CompareOp)
    (e' : Expr) :
    (Expr.compare e [(op, e')]).eval vars =
      (do let right ← e'.eval vars; return .boolean (← op.holds left right)) := by
  rw [eval, he]
  show evalLinks vars left [(op, e')] = _
  rw [evalLinks]
  cases e'.eval vars with
  | error err => rfl
  | ok right =>
      show (op.holds left right >>= fun b => _) = (op.holds left right >>= fun b => _)
      cases op.holds left right with
      | error err => rfl
      | ok b => cases b <;> rfl

theorem evalLinks_eq_evalConjuncts {e : Expr} {left : Value} (he : e.eval vars = .ok left)
    (links : List (CompareOp × Expr)) :
    evalLinks vars left links = evalConjuncts vars (.boolean true) (comparisons e links) := by
  induction links generalizing e left with
  | nil => rfl
  | cons l links ih =>
      obtain ⟨op, e'⟩ := l
      rw [comparisons, evalConjuncts, if_pos (by rfl), eval_link he, evalLinks]
      cases he' : e'.eval vars with
      | error err => rfl
      | ok right =>
          show (op.holds left right >>= fun b => _) = (op.holds left right >>= fun b => _) >>= _
          cases op.holds left right with
          | error err => rfl
          | ok b =>
              cases b with
              | true => exact ih he'
              | false => exact (evalConjuncts_of_falsy rfl _).symm

theorem eval_compare (e : Expr) (op : CompareOp) (e' : Expr) (links : List (CompareOp × Expr)) :
    (Expr.compare e ((op, e') :: links)).eval vars =
      ((Expr.compare e [(op, e')]).eval vars >>=
        fun v => evalConjuncts vars v (comparisons e' links)) := by
  cases he : e.eval vars with
  | error err =>
      rw [eval, eval, he]
      rfl
  | ok left =>
      rw [eval, he]
      exact evalLinks_eq_evalConjuncts he ((op, e') :: links)

/-! ## What is skipped -/

/-- Behind a link that fails nothing is evaluated. -/
theorem evalLinks_append_of_false {left : Value} {links : List (CompareOp × Expr)}
    (h : evalLinks vars left links = .ok (.boolean false)) (more : List (CompareOp × Expr)) :
    evalLinks vars left (links ++ more) = .ok (.boolean false) := by
  induction links generalizing left with
  | nil => simp at h
  | cons l links ih =>
      obtain ⟨op, e'⟩ := l
      rw [evalLinks] at h
      rw [List.cons_append, evalLinks]
      obtain ⟨right, he', h⟩ := exists_of_bind_eq_ok h
      obtain ⟨b, hb, h⟩ := exists_of_bind_eq_ok h
      rw [he']
      show (op.holds left right >>= fun b => _) = _
      rw [hb]
      cases b with
      | true => exact ih h
      | false => rfl

/-- Behind links that hold the chain goes on. -/
theorem exists_evalLinks_append {left : Value} {links : List (CompareOp × Expr)}
    (h : evalLinks vars left links = .ok (.boolean true)) :
    ∃ right, ∀ more, evalLinks vars left (links ++ more) = evalLinks vars right more := by
  induction links generalizing left with
  | nil => exact ⟨left, fun more => rfl⟩
  | cons l links ih =>
      obtain ⟨op, e'⟩ := l
      rw [evalLinks] at h
      obtain ⟨right, he', h⟩ := exists_of_bind_eq_ok h
      obtain ⟨b, hb, h⟩ := exists_of_bind_eq_ok h
      cases b with
      | true =>
          obtain ⟨last, hlast⟩ := ih h
          refine ⟨last, fun more => ?_⟩
          rw [List.cons_append, evalLinks, he']
          show (op.holds left right >>= fun b => _) = _
          rw [hb]
          exact hlast more
      | false => cases h

/-- A chain of comparisons means the conjunction of its links. It comes to the same value as the
conjunction of the comparisons of its neighbouring operands, however that is bracketed, or fails for
the same reason. If a link fails to hold, all operands behind it are skipped, in the chain and so in
the conjunction; and as long as the links hold, the next operand is evaluated. -/
theorem eval_chain (vars : Variables) (e : Expr) (op : CompareOp) (e' : Expr)
    (links : List (CompareOp × Expr)) :
    let first := Expr.compare e [(op, e')]
    let chain := Expr.compare e ((op, e') :: links)
    chain.eval vars = (conjoin first (comparisons e' links)).eval vars ∧
      chain.eval vars = (conjoinRight first (comparisons e' links)).eval vars ∧
      ∀ more, let longer := Expr.compare e ((op, e') :: links ++ more)
        (chain.eval vars = .ok (.boolean false) → longer.eval vars = .ok (.boolean false)) ∧
        ∀ l ∈ more.head?, ∀ err, chain.eval vars = .ok (.boolean true) →
          l.2.eval vars = .error err → longer.eval vars = .error err := by
  intro first chain
  refine ⟨?_, ?_, fun more => ⟨fun hfalse => ?_, fun l hl err htrue hl' => ?_⟩⟩
  · rw [eval_conjoin]
    exact eval_compare e op e' links
  · rw [eval_conjoinRight]
    exact eval_compare e op e' links
  · obtain ⟨left, he, hlinks⟩ := exists_of_bind_eq_ok (by rwa [eval] at hfalse)
    rw [eval, he]
    exact evalLinks_append_of_false hlinks more
  · obtain ⟨left, he, hlinks⟩ := exists_of_bind_eq_ok (by rwa [eval] at htrue)
    obtain ⟨right, hright⟩ := exists_evalLinks_append hlinks
    rw [eval, he]
    show evalLinks vars left ((op, e') :: links ++ more) = _
    rw [hright]
    cases more with
    | nil => cases hl
    | cons l' more =>
        obtain rfl := Option.some.inj hl
        rw [evalLinks, hl']
        rfl

/-- A name that is not bound stands behind a link that fails, and behind one that holds. -/
theorem eval_chain_unbound :
    let number : Nat → Expr := fun n => .literal (.integer (.ofNat n))
    let chain : CompareOp → List (CompareOp × Expr) → Expr :=
      fun op more => .compare (number 2) ((op, number 1) :: more)
    (chain .lt []).eval ∅ = .ok (.boolean false) ∧
      (chain .lt [(.lt, .variable "x")]).eval ∅ = .ok (.boolean false) ∧
      (chain .gt []).eval ∅ = .ok (.boolean true) ∧
      (chain .gt [(.lt, .variable "x")]).eval ∅ = .error (.unbound "x") := by
  intro number chain
  have hfalse : (chain .lt []).eval ∅ = .ok (.boolean false) := rfl
  have htrue : (chain .gt []).eval ∅ = .ok (.boolean true) := rfl
  have hskip := (eval_chain ∅ (number 2) .lt (number 1) []).2.2 [(.lt, .variable "x")]
  have hreach := (eval_chain ∅ (number 2) .gt (number 1) []).2.2 [(.lt, .variable "x")]
  exact ⟨hfalse, hskip.1 hfalse, htrue, hreach.2 _ rfl _ htrue rfl⟩

end LineShell.Expr
