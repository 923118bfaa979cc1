import LineShell.Proofs.Expr.Lexing
import LineShell.Proofs.Expr.Numeric
import LineShell.Proofs.Expr.Renaming

/-!
# Failures of expressions

Why a text has no value. If it is an expression, an operator has complained about its operands or
about a zero on its right, or a name is not bound (`Expr.settles`). Such a name is a word of the
text (`Token.infix_of_word_mem`).
-/

namespace LineShell

/-! ## Words of a text -/

namespace Token

variable {c : Char} {cs rest : List Char} {w : String}

theorem ofNumeral_ne_word (digits : List Char) : ofNumeral digits ≠ .word w := by
  rw [ofNumeral]
  split <;> nofun

theorem lexNumber_ne_word : lexNumber cs ≠ .ok (.word w, rest) := by
  intro h
  unfold lexNumber at h
  dsimp only at h
  split at h
  · split at h <;> cases h
  · exact ofNumeral_ne_word _ (Prod.mk.inj (Except.ok.inj h)).1

/-- A word is cut off from where the text begins. -/
theorem prefix_of_lexeme_eq_word (h : lexeme c cs = .ok (.word w, rest)) :
    isWord w.toList = true ∧ w.toList <+: c :: cs := by
  unfold lexeme at h
  split at h
  · exact absurd h lexNumber_ne_word
  split at h
  · unfold lexText at h
    split at h <;> cases h
  split at h
  · rename_i hstart
    obtain ⟨hw, -⟩ := Prod.mk.inj (Except.ok.inj h)
    obtain rfl := Token.word.inj hw
    rw [String.toList_ofList]
    refine ⟨?_, (List.prefix_cons_inj c).mpr (List.takeWhile_prefix _)⟩
    rw [isWord, hstart, Bool.true_and, List.all_eq_true]
    exact fun d hd => List.mem_takeWhile_imp hd
  · unfold lexOperator at h
    split at h <;> cases h

/-- A word among the tokens of a text stands in the text. -/
theorem infix_of_word_mem {ts : List Token} (h : ofChars cs = .ok ts) (hw : .word w ∈ ts) :
    isWord w.toList = true ∧ w.toList <:+: cs := by
  fun_induction ofChars cs generalizing ts with
  | case1 =>
      obtain rfl := Except.ok.inj h
      cases hw
  | case2 c cs _ ih =>
      exact (ih h hw).imp_right fun hin => hin.trans (List.suffix_cons c cs).isInfix
  | case3 | case4 => cases h
  | case5 c cs _ t rest hlex _ us hrest ih =>
      obtain rfl := Except.ok.inj h
      rcases List.mem_cons.mp hw with rfl | hw
      · exact (prefix_of_lexeme_eq_word hlex).imp_right List.IsPrefix.isInfix
      · have hsuffix := (lexeme_suffix hlex).trans (List.suffix_cons c cs)
        exact (ih hrest hw).imp_right fun hin => hin.trans hsuffix.isInfix

end Token

/-! ## Complaints of operators -/

theorem arithmetic_complains (op : BinaryOp) (whole : Int64 → Int64 → Option Int64)
    (float : Float → Float → Float) (l r : Value) :
    ComesTo (fun _ => True) (fun err => err.errorKind = .type) (arithmetic op whole float l r) := by
  unfold arithmetic
  split
  · trivial
  split
  · trivial
  · rfl

theorem UnaryOp.complains (op : UnaryOp) (v : Value) :
    ComesTo (fun _ => True) (fun err => err.errorKind = .type) (op.apply v) := by
  by_cases htext : v.kind = .text
  · cases v with
    | text s => cases op <;> trivial
    | integer n | float x | boolean b => cases htext
  · exact (op.comesTo_apply htext fun _ => False).mono (fun _ _ => trivial) fun _ => False.elim

theorem BinaryOp.complains (op : BinaryOp) (l r : Value) :
    ComesTo (fun _ => True) (fun err => err.errorKind = .type ∨ op.zeroError? = some err)
      (op.apply l r) := by
  have harith : ∀ op' whole float, ComesTo (fun _ => True)
      (fun err => err.errorKind = .type ∨ op.zeroError? = some err)
      (arithmetic op' whole float l r) :=
    fun _ _ _ => (arithmetic_complains _ _ _ l r).mono (fun _ h => h) fun _ => Or.inl
  cases op with
  | add =>
      show ComesTo _ _ (plus l r)
      unfold plus
      split
      · trivial
      · exact harith _ _ _
  | sub | mul => exact harith _ _ _
  | div =>
      show ComesTo _ _ (divide l r)
      unfold divide
      split
      · split
        · exact Or.inr rfl
        · trivial
      · exact Or.inl rfl
  | rem =>
      show ComesTo _ _ (remainder l r)
      unfold remainder
      split
      · exact Or.inr rfl
      · exact harith _ _ _

theorem CompareOp.complains (op : CompareOp) (l r : Value) :
    ComesTo (fun _ => True) (fun err => err.errorKind = .type) (op.holds l r) := by
  refine op.comesTo_holds ?_
  unfold Value.order
  split
  · trivial
  split
  · trivial
  split
  · trivial
  · rfl

/-! ## Failures of expressions -/

namespace Expr

variable {vars : Variables} {e : Expr} {w : String} {err : EvalError}

/-- What can be wrong with an expression: an operator has operands of the wrong type or a zero on
its right, or a name is not bound. -/
def Blames (vars : Variables) (e : Expr) (err : EvalError) : Prop :=
  err.errorKind = .type ∨
    (∃ op l r, e.HasPart (.binary op l r) ∧ op.zeroError? = some err) ∨
    ∃ w, err = .unbound w ∧ e.HasPart (.variable w) ∧ vars.get? w = none

theorem settles (vars : Variables) (e : Expr) :
    e.Settles vars (fun _ => True) (e.Blames vars) where
  literals _ _ := trivial
  names w hw := by
    rw [eval]
    cases hget : vars.get? w with
    | some v => trivial
    | none => exact Or.inr (Or.inr ⟨w, rfl, hw, hget⟩)
  unary op s v _ _ := (op.complains v).mono (fun _ h => h) fun _ => Or.inl
  binary op l r a b hpart _ _ := (op.complains a b).mono (fun _ h => h) fun _ h =>
    h.imp_right fun herr => Or.inl ⟨op, l, r, hpart, herr⟩
  comparisons op a b _ _ := (op.complains a b).mono (fun _ h => h) fun _ => Or.inl
  booleans _ := trivial

theorem mem_names_of_hasPart (h : e.HasPart (.variable w)) : w ∈ e.names := by
  generalize hs : Expr.variable w = s at h
  induction h with
  | self =>
      subst hs
      exact List.mem_cons_self
  | unary _ ih => exact ih hs
  | binaryLeft _ ih | andLeft _ ih | orLeft _ ih | compareFirst _ ih =>
      exact List.mem_append_left _ (ih hs)
  | binaryRight _ ih | andRight _ ih | orRight _ ih => exact List.mem_append_right _ (ih hs)
  | compareOther hl _ ih =>
      refine List.mem_append_right _ ?_
      rw [namesOfLinks_eq]
      exact List.mem_flatMap.mpr ⟨_, hl, ih hs⟩

theorem blames_of_eval_eq_error (h : e.eval vars = .error err) : e.Blames vars err := by
  have hcomes := (settles vars e).comesTo
  rw [h] at hcomes
  exact hcomes

theorem evalText_eq_error_cases {s : String} {err : ShellError}
    (h : evalText vars s = .error err) :
    (∃ e, err = .parse e) ∨ ∃ e eval, err = .eval eval ∧ ofText vars.contains s = .ok e ∧
      e.Blames vars eval := by
  unfold evalText at h
  cases hread : ofText vars.contains s with
  | error e =>
      rw [hread] at h
      exact Or.inl ⟨e, (Except.error.inj h).symm⟩
  | ok e =>
      rw [hread] at h
      dsimp only at h
      cases heval : e.eval vars with
      | error eval =>
          rw [heval] at h
          exact Or.inr ⟨e, eval, (Except.error.inj h).symm, rfl, blames_of_eval_eq_error heval⟩
      | ok v =>
          rw [heval] at h
          cases h

theorem exists_ofChars_of_ofText {bound : String → Bool} {s : String}
    (h : ofText bound s = .ok e) :
    ∃ ts, Token.ofChars s.toList = .ok ts ∧ ofTokens bound ts = .ok e := by
  unfold ofText at h
  cases hts : Token.ofChars s.toList with
  | error err =>
      rw [hts] at h
      cases h
  | ok ts =>
      rw [hts] at h
      exact ⟨ts, rfl, h⟩

theorem zeroError_cases {op : BinaryOp} (h : op.zeroError? = some err) :
    op = .div ∧ err = .divisionByZero ∨ op = .rem ∧ err = .moduloByZero := by
  cases op with
  | div => exact Or.inl ⟨rfl, (Option.some.inj h).symm⟩
  | rem => exact Or.inr ⟨rfl, (Option.some.inj h).symm⟩
  | add | sub | mul => cases h

/-- Expressions fail for documented reasons only. If a text has no value, it is no expression, or
something is divided by zero, or an operand has the wrong type, or a name is not bound, which then
is a word of the text; all of these are recoverable. And an expression whose variables are bound,
and that holds no text, has a value that is no text unless it divides by zero, so it has one if it
holds neither `/` nor `%`. -/
theorem eval_fails (vars : Variables) :
    (∀ (s : String) (err : ShellError), evalText vars s = .error err →
      err.isRecoverable = true ∧
        (err.kind = .parse ∨
          (err.kind = .eval ∧ (err.detail = "division by zero" ∨ err.detail = "modulo by zero")) ∨
          err.kind = .type ∨
          ∃ w, err = .eval (.unbound w) ∧ vars.contains w = false ∧ isWord w.toList = true ∧
            w.toList <:+: s.toList ∧ ∃ ts, Token.ofChars s.toList = .ok ts ∧ .word w ∈ ts)) ∧
    ∀ e : Expr,
      (∀ v, e.HasPart (.literal v) → v.kind ≠ .text) →
      (∀ w, e.HasPart (.variable w) → ∃ v, vars.get? w = some v ∧ v.kind ≠ .text) →
        ((∃ v, e.eval vars = .ok v ∧ v.kind ≠ .text) ∨
          e.eval vars = .error .divisionByZero ∨ e.eval vars = .error .moduloByZero) ∧
        ((∀ op l r, e.HasPart (.binary op l r) → op ≠ .div ∧ op ≠ .rem) →
          ∃ v, e.eval vars = .ok v ∧ v.kind ≠ .text) := by
  constructor
  · intro s err h
    rcases evalText_eq_error_cases h with ⟨e, rfl⟩ | ⟨e, err, rfl, hread, hblame⟩
    · exact ⟨rfl, Or.inl rfl⟩
    · rcases hblame with htype | ⟨op, l, r, -, herr⟩ | ⟨w, rfl, hpart, hget⟩
      · have hkind : (ShellError.eval err).kind = .type := htype
        refine ⟨?_, Or.inr (Or.inr (Or.inl hkind))⟩
        rw [ShellError.isRecoverable, hkind]
        rfl
      · rcases zeroError_cases herr with ⟨-, rfl⟩ | ⟨-, rfl⟩
        · exact ⟨rfl, Or.inr (Or.inl ⟨rfl, Or.inl rfl⟩)⟩
        · exact ⟨rfl, Or.inr (Or.inl ⟨rfl, Or.inr rfl⟩)⟩
      · obtain ⟨ts, hts, htokens⟩ := exists_ofChars_of_ofText hread
        have hmem :=
          word_mem_of_derives (derives_of_ofTokens htokens) w (mem_names_of_hasPart hpart)
        have hbound : vars.contains w = false := by
          rw [OrderedMap.contains, hget]
          rfl
        obtain ⟨hword, hinfix⟩ := Token.infix_of_word_mem hts hmem
        exact ⟨rfl, Or.inr (Or.inr (Or.inr ⟨w, rfl, hbound, hword, hinfix, ts, hts, hmem⟩))⟩
  · intro e hliterals hvariables
    have hcomes := (Numeric.settles ⟨hliterals, hvariables⟩).comesTo
    cases heval : e.eval vars with
    | ok v =>
        rw [heval] at hcomes
        exact ⟨Or.inl ⟨v, rfl, hcomes⟩, fun _ => ⟨v, rfl, hcomes⟩⟩
    | error err =>
        rw [heval] at hcomes
        obtain ⟨op, l, r, hpart, herr⟩ := hcomes
        rcases zeroError_cases herr with ⟨hop, rfl⟩ | ⟨hop, rfl⟩
        · exact ⟨Or.inr (Or.inl rfl), fun h => absurd hop (h op l r hpart).1⟩
        · exact ⟨Or.inr (Or.inr rfl), fun h => absurd hop (h op l r hpart).2⟩

/-- A name that is not bound, and a sum of numbers that has a value. -/
theorem eval_fails_unbound :
    let vars : Variables := OrderedMap.insert ∅ "n" (.integer 2)
    let e : Expr := .binary .add (.literal (.boolean true)) (.variable "n")
    (evalText vars "n + m" = .error (.eval (.unbound "m")) ∧
      (ShellError.eval (.unbound "m")).isRecoverable = true) ∧
    (∀ v, e.HasPart (.literal v) → v.kind ≠ .text) ∧
    (∀ w, e.HasPart (.variable w) → ∃ v, vars.get? w = some v ∧ v.kind ≠ .text) ∧
    ∃ v, e.eval vars = .ok v ∧ v.kind ≠ .text := by
  intro vars e
  have hmissed : evalText vars "n + m" = .error (.eval (.unbound "m")) := by decide +kernel
  have hliterals : ∀ v, e.HasPart (.literal v) → v.kind ≠ .text := by
    intro v hv
    dsimp only [e] at hv
    cases hv with
    | binaryLeft hv =>
        cases hv
        nofun
    | binaryRight hv => cases hv
  have hvariables : ∀ w, e.HasPart (.variable w) → ∃ v, vars.get? w = some v ∧ v.kind ≠ .text := by
    intro w hw
    dsimp only [e] at hw
    cases hw with
    | binaryLeft hw => cases hw
    | binaryRight hw =>
        cases hw
        exact ⟨.integer 2, rfl, nofun⟩
  have hplain : ∀ op l r, e.HasPart (.binary op l r) → op ≠ .div ∧ op ≠ .rem := by
    intro op l r hpart
    dsimp only [e] at hpart
    cases hpart with
    | self => exact ⟨nofun, nofun⟩
    | binaryLeft hpart | binaryRight hpart => cases hpart
  exact ⟨⟨hmissed, ((eval_fails vars).1 "n + m" _ hmissed).1⟩, hliterals, hvariables,
    ((eval_fails vars).2 e hliterals hvariables).2 hplain⟩

end Expr

end LineShell
