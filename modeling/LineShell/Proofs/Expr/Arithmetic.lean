import LineShell.Proofs.Expr.Lexemes
import LineShell.Proofs.Expr.Numeric
import LineShell.Proofs.Session.Reading
import LineShell.Proofs.Value.Literal

/-!
# Arithmetic in text

What an operation on two whole numbers comes to if it is written out, each number with a minus sign
if it is negative. The numerals are read without their signs (`ofChars_signedDigits`), the signs are
operators in front of them (`exists_derivesIn_signed`), and the operation is done on what that comes
to. Every whole number is read as itself, with one exception: the magnitude of the least one does
not fit, is read as a float, and stays one behind its sign (`writtenValue`). So the result is exact
just if that number is not among the operands (`evalText_spelled_iff`).
-/

namespace LineShell

/-! ## Numerals -/

/-- What a numeral without a point means: an integer if it fits, and a float if not. -/
def numeralValue (m : Nat) : Value :=
  match Number.ofInt? m with
  | some n => .integer n
  | none => .float (Decimal.toFloat (Decimal.digits m) [])

/-- The tokens of a whole number. -/
def signedTokens (n : Int) : List Token :=
  if n < 0 then [.minus, .ofNumeral (Decimal.digits n.natAbs)]
  else [.ofNumeral (Decimal.digits n.natAbs)]

namespace Token

variable {rest : List Char}

theorem ofChars_digits (m : Nat) (hrest : ∀ c ∈ rest.head?, c.isDigit = false ∧ c ≠ '.') :
    ofChars (Decimal.digits m ++ rest) =
      (ofChars rest).map (ofNumeral (Decimal.digits m) :: ·) := by
  obtain ⟨c, cs, hcs, hc, hlex⟩ := lexeme_numeral (Decimal.isNumeral_digits m) hrest
  rw [hcs] at hlex ⊢
  exact ofChars_lexeme hc hlex

theorem ofChars_signedDigits (n : Int)
    (hrest : ∀ c ∈ rest.head?, c.isDigit = false ∧ c ≠ '.') :
    ofChars (Decimal.signedDigits n ++ rest) = (ofChars rest).map (signedTokens n ++ ·) := by
  rw [Decimal.signedDigits, signedTokens]
  by_cases hn : n < 0
  · have hlex : ∀ cs, lexeme '-' cs = .ok (.minus, cs) := fun _ => rfl
    rw [if_pos hn, if_pos hn, List.cons_append, ofChars_lexeme (by decide) (hlex _),
      ofChars_digits _ hrest]
    cases ofChars rest <;> rfl
  · rw [if_neg hn, if_neg hn, ofChars_digits _ hrest]
    rfl

end Token

/-! ## Numbers with their signs -/

/-- What a whole number that is written out means. -/
def writtenValue (n : Int64) : Value :=
  if n = Int64.minValue then .float (-(Decimal.toFloat (Decimal.digits n.toInt.natAbs) []))
  else .integer n

theorem toInt_eq_minValue_iff {n : Int64} :
    n = Int64.minValue ↔ n.toInt = -9223372036854775808 := by
  rw [← Int64.toInt_inj]
  exact Iff.rfl

theorem numeralValue_of_eq {m : Nat} {n : Int64} (h : n.toInt = m) :
    numeralValue m = .integer n := by
  rw [numeralValue, ← h, Number.ofInt?_toInt]

theorem numeralValue_eq_float {m : Nat} (h : 9223372036854775807 < m) :
    numeralValue m = .float (Decimal.toFloat (Decimal.digits m) []) := by
  have hnone : Number.ofInt? (m : Int) = none := by
    rw [Number.ofInt?_eq_none_iff]
    have hmax : Int64.maxValue.toInt = 9223372036854775807 := rfl
    omega
  rw [numeralValue, hnone]

/-- The sign is put in front of what the magnitude means. -/
theorem negate_numeralValue {n : Int64} (hn : n.toInt < 0) :
    UnaryOp.negate (numeralValue n.toInt.natAbs) = .ok (writtenValue n) := by
  by_cases hmin : n = Int64.minValue
  · subst hmin
    rw [numeralValue_eq_float (by decide), writtenValue, if_pos rfl]
    rfl
  · have hge : -9223372036854775808 ≤ n.toInt := Int64.le_toInt n
    have hne := mt toInt_eq_minValue_iff.mpr hmin
    cases hm : Number.ofInt? (n.toInt.natAbs : Int) with
    | none =>
        have hmax : Int64.maxValue.toInt = 9223372036854775807 := rfl
        have hlow : Int64.minValue.toInt = -9223372036854775808 := rfl
        have hout := Number.ofInt?_eq_none_iff.mp hm
        omega
    | some m =>
        have hm' := Number.ofInt?_eq_some_iff.mp hm
        have hback : Number.ofInt? (-m.toInt) = some n := by
          rw [Number.ofInt?_eq_some_iff]
          omega
        rw [numeralValue_of_eq hm', writtenValue, if_neg hmin]
        show (match Number.ofInt? (-m.toInt) with
          | some k => Except.ok (Value.integer k)
          | none => _) = _
        rw [hback]

open Grammar in
/-- A whole number that is written out derives an expression for it, one level deep at most. -/
theorem exists_derivesIn_signed (bound : String → Bool) (n : Int64) :
    ∃ d e, d ≤ 1 ∧ DerivesIn bound .sign 0 d (signedTokens n.toInt) e ∧
      ∀ vars, e.eval vars = .ok (writtenValue n) := by
  have hnumeral : ∀ m, DerivesIn bound .primary 0 0 [.ofNumeral (Decimal.digits m)]
      (.literal (numeralValue m)) := by
    intro m
    rw [Token.ofNumeral, numeralValue, Decimal.ofDigits_digits]
    cases Number.ofInt? (m : Int) with
    | some i => exact .atom (.integer i)
    | none => exact .atom (.float _)
  rw [signedTokens]
  by_cases hn : n.toInt < 0
  · rw [if_pos hn]
    refine ⟨1, _, Nat.le_refl 1, .sign .neg (.primary (hnumeral _)), fun vars => ?_⟩
    rw [Expr.eval, Expr.eval]
    exact negate_numeralValue hn
  · rw [if_neg hn]
    refine ⟨0, _, Nat.zero_le 1, .primary (hnumeral _), fun vars => ?_⟩
    have habs : n.toInt = n.toInt.natAbs := by omega
    have hmin : n ≠ Int64.minValue := by
      rintro rfl
      exact hn (by decide)
    rw [Expr.eval, numeralValue_of_eq habs, writtenValue, if_neg hmin]

/-! ## Operations -/

namespace BinaryOp

/-- The operation on whole numbers that an operator is exact for, as long as the result fits. -/
def operation? : BinaryOp → Option (Int → Int → Int)
  | .add => some (· + ·)
  | .sub => some (· - ·)
  | .mul => some (· * ·)
  | .div | .rem => none

/-- An operation written out, with a blank on each side of the operator. -/
def spelled (op : BinaryOp) (a b : Int64) : String :=
  String.ofList (Decimal.signedDigits a.toInt) ++ " " ++ op.symbol ++ " " ++
    String.ofList (Decimal.signedDigits b.toInt)

/-- The token of an operator. -/
def token : BinaryOp → Token
  | .add => .plus
  | .sub => .minus
  | .mul => .star
  | .div => .slash
  | .rem => .percent

variable {op : BinaryOp} {f : Int → Int → Int} {a b r : Int64}

theorem toList_spelled (op : BinaryOp) (a b : Int64) :
    (op.spelled a b).toList =
      Decimal.signedDigits a.toInt ++
        ' ' :: (op.symbol.toList ++ ' ' :: Decimal.signedDigits b.toInt) := by
  simp only [spelled, String.toList_append, String.toList_ofList, List.append_assoc]
  rfl

theorem ofChars_spelled (op : BinaryOp) (a b : Int64) :
    Token.ofChars (op.spelled a b).toList =
      .ok (signedTokens a.toInt ++ op.token :: signedTokens b.toInt) := by
  have hright : Token.ofChars (Decimal.signedDigits b.toInt) = .ok (signedTokens b.toInt) := by
    have hnil : ∀ c ∈ ([] : List Char).head?, c.isDigit = false ∧ c ≠ '.' := nofun
    have hend := Token.ofChars_signedDigits b.toInt hnil
    rw [List.append_nil, Token.ofChars_nil] at hend
    rw [hend]
    exact congrArg Except.ok (List.append_nil _)
  have hop : Token.SpelledBy op.token op.symbol.toList := by
    cases op <;> exact ⟨_, [], rfl, by decide, fun _ => rfl⟩
  have hblank : ∀ c ∈ (' ' :: (op.symbol.toList ++ ' ' :: Decimal.signedDigits b.toInt)).head?,
      c.isDigit = false ∧ c ≠ '.' := by
    intro c hc
    obtain rfl := Option.some.inj hc
    decide
  rw [toList_spelled, Token.ofChars_signedDigits _ hblank, Token.ofChars_blank (by decide),
    Token.ofChars_spelledBy hop, hright]
  rfl

open Grammar in
/-- An operation is read as the operator between what its operands are read as. -/
theorem exists_ofText_spelled (bound : String → Bool) (op : BinaryOp) (a b : Int64) :
    ∃ l r, Expr.ofText bound (op.spelled a b) = .ok (.binary op l r) ∧
      ∀ vars, l.eval vars = .ok (writtenValue a) ∧ r.eval vars = .ok (writtenValue b) := by
  obtain ⟨d, l, hd, hl, hleval⟩ := exists_derivesIn_signed bound a
  obtain ⟨d', r, hd', hr, hreval⟩ := exists_derivesIn_signed bound b
  have hderives : ∃ k, DerivesIn bound .sum k (max d (1 + d'))
      (signedTokens a.toInt ++ op.token :: signedTokens b.toInt) (.binary op l r) := by
    cases op with
    | add =>
        exact ⟨_, .chain .sum .add (.operand .sum (.operand .product hl)) (.operand .product hr)⟩
    | sub =>
        exact ⟨_, .chain .sum .sub (.operand .sum (.operand .product hl)) (.operand .product hr)⟩
    | mul => exact ⟨_, .operand .sum (.chain .product .mul (.operand .product hl) hr)⟩
    | div => exact ⟨_, .operand .sum (.chain .product .div (.operand .product hl) hr)⟩
    | rem => exact ⟨_, .operand .sum (.chain .product .rem (.operand .product hl) hr)⟩
  obtain ⟨k, hsum⟩ := hderives
  have hdepth : max d (1 + d') ≤ maxDepth := by
    have hmax : maxDepth = 200 := rfl
    omega
  refine ⟨l, r, ?_, fun vars => ⟨hleval vars, hreval vars⟩⟩
  rw [Expr.ofText, ofChars_spelled]
  exact (Expr.ofTokens_of_derivesIn (.operand .or (.operand .and (.comparison (.sum hsum))))).trans
    (if_pos hdepth)

theorem evalText_spelled (vars : Variables) (op : BinaryOp) (a b : Int64) :
    Expr.evalText vars (op.spelled a b) =
      (op.apply (writtenValue a) (writtenValue b)).mapError ShellError.eval := by
  obtain ⟨l, r, hread, heval⟩ := exists_ofText_spelled vars.contains op a b
  obtain ⟨hl, hr⟩ := heval vars
  have hvalue : (Expr.binary op l r).eval vars = op.apply (writtenValue a) (writtenValue b) := by
    rw [Expr.eval, hl, hr]
    rfl
  rw [Expr.evalText, hread]
  simp only [hvalue, Except.mapError]
  cases op.apply (writtenValue a) (writtenValue b) <;> rfl

/-! ## Exact results -/

theorem exists_apply_of_operation? (hop : op.operation? = some f) {l r : Value}
    (hl : l.kind ≠ .text) (hr : r.kind ≠ .text) :
    ∃ x, op.apply l r = .ok (.ofWhole (wholeResult? (Number.lift₂ f) l r) x) := by
  cases op with
  | add =>
      obtain rfl := Option.some.inj hop
      show ∃ x, plus l r = _
      rw [plus_eq_arithmetic hl]
      exact exists_arithmetic_eq _ _ _ hl hr
  | sub | mul =>
      obtain rfl := Option.some.inj hop
      exact exists_arithmetic_eq _ _ _ hl hr
  | div | rem => cases hop

/-- An exact result that fits is what the operation comes to. -/
theorem apply_integer (hop : op.operation? = some f) (hr : r.toInt = f a.toInt b.toInt) :
    op.apply (.integer a) (.integer b) = .ok (.integer r) := by
  have hfits : wholeResult? (Number.lift₂ f) (.integer a) (.integer b) = some r :=
    wholeResult?_eq_some_iff.mpr ⟨a, b, rfl, rfl, Number.ofInt?_eq_some_iff.mpr hr⟩
  obtain ⟨x, hx⟩ := exists_apply_of_operation? hop (l := .integer a) (r := .integer b) nofun nofun
  rw [hx, hfits]
  rfl

theorem kind_writtenValue (n : Int64) : (writtenValue n).kind ≠ .text := by
  rw [writtenValue]
  split <;> nofun

theorem integer?_writtenValue_eq_some_iff {n m : Int64} :
    (writtenValue n).integer? = some m ↔ n ≠ Int64.minValue ∧ n = m := by
  rw [writtenValue]
  split
  · rename_i hn
    exact ⟨nofun, fun h => absurd hn h.1⟩
  · rename_i hn
    exact ⟨fun h => ⟨hn, Option.some.inj h⟩, fun h => congrArg some h.2⟩

/-- With the least number among the operands the operation comes to a float. -/
theorem exists_apply_eq_float (hop : op.operation? = some f)
    (h : a = Int64.minValue ∨ b = Int64.minValue) :
    ∃ z, op.apply (writtenValue a) (writtenValue b) = .ok (.float z) := by
  have hnone : wholeResult? (Number.lift₂ f) (writtenValue a) (writtenValue b) = none := by
    rw [Option.eq_none_iff_forall_ne_some]
    intro n hn
    obtain ⟨i, j, hi, hj, -⟩ := wholeResult?_eq_some_iff.mp hn
    rcases h with h | h
    · exact (integer?_writtenValue_eq_some_iff.mp hi).1 h
    · exact (integer?_writtenValue_eq_some_iff.mp hj).1 h
  obtain ⟨z, hz⟩ := exists_apply_of_operation? hop (kind_writtenValue a) (kind_writtenValue b)
  rw [hnone] at hz
  exact ⟨z, hz⟩

/-! ## Lines -/

/-- An operation that is written out begins with a character that begins no word. -/
theorem exists_toList_spelled (op : BinaryOp) (a b : Int64) :
    ∃ c cs, (op.spelled a b).toList = c :: (cs ++ Decimal.signedDigits b.toInt) ∧
      isWordStart c = false ∧ Text.isBlank c = false ∧ c.toNat < 128 := by
  obtain ⟨c, cs, hcs⟩ := List.exists_cons_of_ne_nil (Value.signedDigits_ne_nil a.toInt)
  refine ⟨c, cs ++ ' ' :: (op.symbol.toList ++ [' ']), ?_, ?_⟩
  · rw [toList_spelled, hcs]
    simp only [List.append_assoc, List.cons_append, List.nil_append]
  rcases Value.mem_signedDigits (hcs ▸ List.mem_cons_self : c ∈ _) with rfl | hdigit
  · decide
  · have hword := isWordChar_of_isDigit hdigit
    refine ⟨?_, isBlank_of_isWordChar hword, ?_⟩
    · rw [Bool.eq_false_iff]
      intro hstart
      rw [isDigit_of_isWordStart hstart] at hdigit
      cases hdigit
    · have hrange := toNat_of_isWordChar hword
      omega

theorem looksLikeExpression_spelled (op : BinaryOp) (a b : Int64) :
    looksLikeExpression (op.spelled a b).toList = true := by
  have hdigits : ∀ n : Int, ∀ c ∈ Decimal.signedDigits n, isExpressionChar c = true := by
    intro n c hc
    rcases Value.mem_signedDigits hc with rfl | hdigit
    · decide
    · rw [isExpressionChar, isWordChar_of_isDigit hdigit, Bool.true_or, Bool.true_or]
  have hsymbol : op.symbol.toList.all isExpressionChar = true := by
    cases op <;> rfl
  have hblank : isExpressionChar ' ' = true := by decide
  obtain ⟨c, cs, hcs, -⟩ := exists_toList_spelled op a b
  rw [looksLikeExpression, Bool.and_eq_true, List.all_eq_true]
  refine ⟨by rw [hcs]; rfl, ?_⟩
  rw [toList_spelled]
  simp only [List.mem_append, List.mem_cons]
  rintro d (hd | rfl | hd | rfl | hd)
  · exact hdigits _ d hd
  · exact hblank
  · exact List.all_eq_true.mp hsymbol d hd
  · exact hblank
  · exact hdigits _ d hd

theorem trimmed_spelled (op : BinaryOp) (a b : Int64) : Text.Trimmed (op.spelled a b).toList := by
  obtain ⟨c, cs, hcs, -, hblank, -⟩ := exists_toList_spelled op a b
  rw [hcs]
  refine Text.trimmed_cons_append hblank (Value.signedDigits_ne_nil _) (fun d hd => ?_) cs
  rcases Value.mem_signedDigits (List.mem_of_getLast? hd) with rfl | hdigit
  · decide
  · exact isBlank_of_isWordChar (isWordChar_of_isDigit hdigit)

/-- A line that is such an operation is taken as an expression. -/
theorem outcome_spelled (s : Session) (op : BinaryOp) (a b : Int64) :
    s.outcome (op.spelled a b) = .ofExpression s.vars (op.spelled a b) := by
  obtain ⟨c, cs, hcs, hstart, -, hascii⟩ := exists_toList_spelled op a b
  have hne : op.spelled a b ≠ "" := by
    intro heq
    rw [heq] at hcs
    cases hcs
  have hassign : assignment? (op.spelled a b) = none := by
    rw [assignment?, hcs, splitAssignment?_cons_of_not hstart]
    rfl
  have hfind : Commands.builtin.find? (op.spelled a b) = none :=
    Commands.find?_builtin_of_head hcs hstart hascii
  have hword : isWord (op.spelled a b).toList = false := by
    rw [hcs, isWord, hstart, Bool.false_and]
  rw [Session.outcome, Outcome.ofLine, Text.trim_of_trimmed (trimmed_spelled op a b),
    Outcome.ofTrimmed_of_unclaimed hne hassign hfind, hword, if_neg Bool.false_ne_true]

/-- Arithmetic on whole numbers that are written out. Of a sum, a difference or a product that is a
whole number of 64 bits, the value is that number exactly if neither operand is the least number;
with that one it is a float. If it is the number, a line that is such an operation shows its digits,
in every session. -/
theorem evalText_spelled_iff (vars : Variables) (hop : op.operation? = some f)
    (hr : r.toInt = f a.toInt b.toInt) :
    (Expr.evalText vars (op.spelled a b) = .ok (.integer r) ↔
        a ≠ Int64.minValue ∧ b ≠ Int64.minValue) ∧
      (a = Int64.minValue ∨ b = Int64.minValue →
        ∃ z, Expr.evalText vars (op.spelled a b) = .ok (.float z)) ∧
      (a ≠ Int64.minValue → b ≠ Int64.minValue → ∀ s : Session,
        (s.submit (op.spelled a b)).2 =
          .output (String.ofList (Decimal.signedDigits r.toInt))) := by
  have hexact : a ≠ Int64.minValue → b ≠ Int64.minValue →
      ∀ vars, Expr.evalText vars (op.spelled a b) = .ok (.integer r) := by
    intro ha hb vars
    rw [evalText_spelled, writtenValue, if_neg ha, writtenValue, if_neg hb, apply_integer hop hr]
    rfl
  have hfloat : a = Int64.minValue ∨ b = Int64.minValue →
      ∃ z, Expr.evalText vars (op.spelled a b) = .ok (.float z) := by
    intro hmin
    obtain ⟨z, hz⟩ := exists_apply_eq_float hop hmin
    exact ⟨z, by rw [evalText_spelled, hz]; rfl⟩
  refine ⟨⟨fun h => ?_, fun h => hexact h.1 h.2 vars⟩, hfloat, fun ha hb s => ?_⟩
  · rw [← not_or]
    intro hmin
    obtain ⟨z, hz⟩ := hfloat hmin
    cases h.symm.trans hz
  · rw [Session.snd_submit, outcome_spelled, Outcome.ofExpression, looksLikeExpression_spelled,
      if_pos rfl, hexact ha hb]
    rfl

/-- The least number is reached from the number above it. -/
theorem evalText_spelled_sub_one :
    BinaryOp.sub.spelled (-9223372036854775807) 1 = "-9223372036854775807 - 1" ∧
      BinaryOp.sub.operation? = some (· - ·) ∧
      Int64.minValue.toInt = (-9223372036854775807 : Int64).toInt - (1 : Int64).toInt ∧
      Expr.evalText ∅ "-9223372036854775807 - 1" = .ok (.integer Int64.minValue) := by
  have hop : BinaryOp.sub.operation? = some (· - ·) := rfl
  have hr : Int64.minValue.toInt = (-9223372036854775807 : Int64).toInt - (1 : Int64).toInt := by
    decide
  have htext : BinaryOp.sub.spelled (-9223372036854775807) 1 = "-9223372036854775807 - 1" := by
    decide
  refine ⟨htext, hop, hr, ?_⟩
  rw [← htext]
  exact (evalText_spelled_iff ∅ hop hr).1.mpr (by decide)

/-- Adding nothing to the least number does not give it back. -/
theorem evalText_spelled_minValue_ne :
    BinaryOp.add.spelled Int64.minValue 0 = "-9223372036854775808 + 0" ∧
      Int64.minValue.toInt = Int64.minValue.toInt + (0 : Int64).toInt ∧
      Expr.evalText ∅ "-9223372036854775808 + 0" ≠ .ok (.integer Int64.minValue) := by
  have htext : BinaryOp.add.spelled Int64.minValue 0 = "-9223372036854775808 + 0" := by
    decide
  refine ⟨htext, by decide, ?_⟩
  have hop : BinaryOp.add.operation? = some (· + ·) := rfl
  obtain ⟨z, hz⟩ := exists_apply_eq_float (b := 0) hop (.inl (Eq.refl Int64.minValue))
  rw [← htext, evalText_spelled, hz]
  exact nofun

end BinaryOp

end LineShell
