import LineShell.Expr

/-!
# Paths of expressions

The paths from the root of a tree to its leaves, as the turns that they take below the operators on
the way (`Expr.HasPath`). An operator with operands on both sides has a *first* operand, and so has
a comparison; all that stands behind an operator is *other*. The height of a tree is the length of
its longest path (`Expr.height_le_iff`).
-/

namespace LineShell

namespace Expr

/-- Induction on expressions, with a hypothesis for every operand of a comparison. -/
theorem induction {P : Expr → Prop} (literal : ∀ v, P (.literal v)) (name : ∀ w, P (.variable w))
    (unary : ∀ op e, P e → P (.unary op e)) (binary : ∀ op l r, P l → P r → P (.binary op l r))
    (compare : ∀ e links, P e → (∀ l ∈ links, P l.2) → P (.compare e links))
    (and : ∀ l r, P l → P r → P (.and l r)) (or : ∀ l r, P l → P r → P (.or l r)) :
    ∀ e, P e :=
  @Expr.rec P (fun links => ∀ l ∈ links, P l.2) (fun l => P l.2) literal name unary binary
    compare and or nofun (fun _ _ hl hls => List.forall_mem_cons.mpr ⟨hl, hls⟩) (fun _ _ h => h)

/-- Where a path goes on below an operator. -/
inductive Turn
  | first
  | other
deriving DecidableEq, Repr

/-- A path leads from the root of the expression to a leaf by the given turns, one at each
operator. -/
inductive HasPath : Expr → List Turn → Prop
  | literal (v : Value) : HasPath (.literal v) []
  | name (w : String) : HasPath (.variable w) []
  | unary {op : UnaryOp} {e : Expr} {p : List Turn} :
      HasPath e p → HasPath (.unary op e) (.other :: p)
  | binaryFirst {op : BinaryOp} {l r : Expr} {p : List Turn} :
      HasPath l p → HasPath (.binary op l r) (.first :: p)
  | binaryOther {op : BinaryOp} {l r : Expr} {p : List Turn} :
      HasPath r p → HasPath (.binary op l r) (.other :: p)
  | compareFirst {e : Expr} {links : List (CompareOp × Expr)} {p : List Turn} :
      HasPath e p → HasPath (.compare e links) (.first :: p)
  | compareOther {e : Expr} {links : List (CompareOp × Expr)} {l : CompareOp × Expr}
      {p : List Turn} :
      l ∈ links → HasPath l.2 p → HasPath (.compare e links) (.other :: p)
  | andFirst {l r : Expr} {p : List Turn} : HasPath l p → HasPath (.and l r) (.first :: p)
  | andOther {l r : Expr} {p : List Turn} : HasPath r p → HasPath (.and l r) (.other :: p)
  | orFirst {l r : Expr} {p : List Turn} : HasPath l p → HasPath (.or l r) (.first :: p)
  | orOther {l r : Expr} {p : List Turn} : HasPath r p → HasPath (.or l r) (.other :: p)

/-! ## Height -/

theorem height_le_heightOfLinks {links : List (CompareOp × Expr)} {l : CompareOp × Expr}
    (h : l ∈ links) : l.2.height ≤ height.heightOfLinks links := by
  induction links with
  | nil => cases h
  | cons l' ls ih =>
      simp only [height.heightOfLinks]
      rcases List.mem_cons.mp h with rfl | h
      · exact Nat.le_max_left ..
      · exact Nat.le_trans (ih h) (Nat.le_max_right ..)

/-- Links have the height of one of their operands, unless there are none. -/
theorem exists_height_eq_heightOfLinks {links : List (CompareOp × Expr)} (hne : links ≠ []) :
    ∃ l ∈ links, l.2.height = height.heightOfLinks links := by
  induction links with
  | nil => exact absurd rfl hne
  | cons l ls ih =>
      simp only [height.heightOfLinks]
      rcases Nat.le_total (height.heightOfLinks ls) l.2.height with hle | hle
      · exact ⟨l, List.mem_cons_self .., (Nat.max_eq_left hle).symm⟩
      · rw [Nat.max_eq_right hle]
        by_cases hls : ls = []
        · subst hls
          exact ⟨l, List.mem_cons_self .., Nat.le_zero.mp hle⟩
        · obtain ⟨l', hl', heq⟩ := ih hls
          exact ⟨l', List.mem_cons_of_mem _ hl', heq⟩

theorem HasPath.length_le_height {e : Expr} {p : List Turn} (h : e.HasPath p) :
    p.length ≤ e.height := by
  induction h with
  | literal | name => exact Nat.le_refl _
  | unary _ ih => exact Nat.succ_le_succ ih
  | binaryFirst _ ih | compareFirst _ ih | andFirst _ ih | orFirst _ ih =>
      exact Nat.succ_le_succ (Nat.le_trans ih (Nat.le_max_left ..))
  | binaryOther _ ih | andOther _ ih | orOther _ ih =>
      exact Nat.succ_le_succ (Nat.le_trans ih (Nat.le_max_right ..))
  | compareOther hl _ ih =>
      have hle := Nat.le_trans ih (height_le_heightOfLinks hl)
      exact Nat.succ_le_succ (Nat.le_trans hle (Nat.le_max_right ..))

/-- Of two operands the higher one has the longest path. -/
theorem exists_hasPath_of_operands {e l r : Expr}
    (first : ∀ {p : List Turn}, l.HasPath p → e.HasPath (.first :: p))
    (other : ∀ {p : List Turn}, r.HasPath p → e.HasPath (.other :: p))
    (height_eq : e.height = max l.height r.height + 1)
    (hl : ∃ p, l.HasPath p ∧ p.length = l.height) (hr : ∃ p, r.HasPath p ∧ p.length = r.height) :
    ∃ p, e.HasPath p ∧ p.length = e.height := by
  obtain ⟨p, hp, hlen⟩ := hl
  obtain ⟨q, hq, hlen'⟩ := hr
  rw [height_eq]
  rcases Nat.le_total r.height l.height with hle | hle
  · exact ⟨_, first hp, by rw [List.length_cons, hlen, Nat.max_eq_left hle]⟩
  · exact ⟨_, other hq, by rw [List.length_cons, hlen', Nat.max_eq_right hle]⟩

theorem exists_hasPath (e : Expr) : ∃ p, e.HasPath p ∧ p.length = e.height := by
  induction e using Expr.induction with
  | literal v => exact ⟨[], .literal v, rfl⟩
  | name w => exact ⟨[], .name w, rfl⟩
  | unary op e ih =>
      obtain ⟨p, hp, hlen⟩ := ih
      exact ⟨_, .unary hp, congrArg (· + 1) hlen⟩
  | binary op l r ihl ihr =>
      exact exists_hasPath_of_operands .binaryFirst .binaryOther rfl ihl ihr
  | compare e links ih ihs =>
      by_cases hne : links = []
      · subst hne
        obtain ⟨p, hp, hlen⟩ := ih
        exact ⟨_, .compareFirst hp, by simp [height, height.heightOfLinks, hlen]⟩
      · obtain ⟨l, hl, heq⟩ := exists_height_eq_heightOfLinks hne
        refine exists_hasPath_of_operands (r := l.2) .compareFirst (.compareOther hl) ?_ ih
          (ihs l hl)
        rw [height, heq]
  | and l r ihl ihr => exact exists_hasPath_of_operands .andFirst .andOther rfl ihl ihr
  | or l r ihl ihr => exact exists_hasPath_of_operands .orFirst .orOther rfl ihl ihr

/-- The height is the length of the longest path. -/
theorem height_le_iff {e : Expr} {n : Nat} :
    e.height ≤ n ↔ ∀ p, e.HasPath p → p.length ≤ n := by
  constructor
  · intro h p hp
    exact Nat.le_trans hp.length_le_height h
  · intro h
    obtain ⟨p, hp, hlen⟩ := e.exists_hasPath
    exact hlen ▸ h p hp

end Expr

end LineShell
