import LineShell.Json.Raw
import LineShell.Text.Hex

/-!
# The lexemes of JSON

Brackets, commas, colons, texts, numerals and the three words, with blanks between them. Main
statement: every lexeme takes something from the text.
-/

namespace LineShell.Json

/-- A lexeme. -/
inductive Lexeme
  | openArray
  | closeArray
  | openObject
  | closeObject
  | comma
  | colon
  | text (pieces : List Piece)
  /-- A value that is one lexeme but no text. -/
  | atom (v : Raw)

/-- The character that a backslash and `c` stand for. -/
def unescape? (c : Char) : Option Char :=
  match c with
  | '\x22' => some '\x22'
  | '\\' => some '\\'
  | '/' => some '/'
  | 'b' => some '\x08'
  | 'f' => some '\x0c'
  | 'n' => some '\n'
  | 'r' => some '\r'
  | 't' => some '\t'
  | _ => none

/-- The pieces up to the closing quote, and what is behind it. -/
def lexText : List Char → Option (List Piece × List Char)
  | [] => none
  | c :: cs =>
    if c = '\x22' then some ([], cs)
    else if c = '\\' then
      match cs with
      | [] => none
      | 'u' :: a :: b :: c :: d :: cs => do
        let n ← Text.hexNumber? [a, b, c, d]
        let (ps, rest) ← lexText cs
        return (.unit n :: ps, rest)
      | e :: cs => do
        let c ← unescape? e
        let (ps, rest) ← lexText cs
        return (.char c :: ps, rest)
    else if c.toNat < 0x20 then none
    else do
      let (ps, rest) ← lexText cs
      return (.char c :: ps, rest)

/-- The digits in front, of which there is at least one, and the rest. -/
def lexDigits (cs : List Char) : Option (List Char × List Char) :=
  match cs.takeWhile Char.isDigit with
  | [] => none
  | ds => some (ds, cs.dropWhile Char.isDigit)

/-- The digits in front of the point. A zero stands alone. -/
def lexWhole : List Char → Option (List Char × List Char)
  | '0' :: cs => some (['0'], cs)
  | cs => lexDigits cs

/-- The digits behind the point, if there is one. -/
def lexFraction : List Char → Option (List Char × List Char)
  | '.' :: cs => lexDigits cs
  | cs => some ([], cs)

/-- An exponent behind its mark. -/
def lexSignedDigits : List Char → Option ((Bool × List Char) × List Char)
  | '+' :: cs => (lexDigits cs).map fun (ds, rest) => ((false, ds), rest)
  | '-' :: cs => (lexDigits cs).map fun (ds, rest) => ((true, ds), rest)
  | cs => (lexDigits cs).map fun (ds, rest) => ((false, ds), rest)

/-- The exponent, if there is one. -/
def lexExponent : List Char → Option (Option (Bool × List Char) × List Char)
  | [] => some (none, [])
  | c :: cs =>
    if c = 'e' ∨ c = 'E' then (lexSignedDigits cs).map fun (x, rest) => (some x, rest)
    else some (none, c :: cs)

/-- A numeral behind its sign, and the rest. -/
def lexUnsigned (negative : Bool) (cs : List Char) : Option (Numeral × List Char) := do
  let (whole, rest) ← lexWhole cs
  let (fraction, rest) ← lexFraction rest
  let (exponent, rest) ← lexExponent rest
  return ({ negative, whole, fraction, exponent }, rest)

/-- A numeral, and the rest. -/
def lexNumeral : List Char → Option (Numeral × List Char)
  | '-' :: cs => lexUnsigned true cs
  | cs => lexUnsigned false cs

/-- What is behind the word `w`, if the text begins with it. -/
def afterWord? (w : String) (cs : List Char) : Option (List Char) :=
  if w.toList.isPrefixOf cs then some (cs.drop w.length) else none

/-- The lexeme in front of a text that does not begin with a blank, and the rest. -/
def lexeme : List Char → Option (Lexeme × List Char)
  | '[' :: cs => some (.openArray, cs)
  | ']' :: cs => some (.closeArray, cs)
  | '\x7b' :: cs => some (.openObject, cs)
  | '\x7d' :: cs => some (.closeObject, cs)
  | ',' :: cs => some (.comma, cs)
  | ':' :: cs => some (.colon, cs)
  | '\x22' :: cs => (lexText cs).map fun (ps, rest) => (.text ps, rest)
  | 'n' :: cs => (afterWord? "ull" cs).map fun rest => (.atom .null, rest)
  | 't' :: cs => (afterWord? "rue" cs).map fun rest => (.atom (.boolean true), rest)
  | 'f' :: cs => (afterWord? "alse" cs).map fun rest => (.atom (.boolean false), rest)
  | cs => (lexNumeral cs).map fun (n, rest) => (.atom (.numeral n), rest)

/-- The blanks between lexemes. -/
def isBlank (c : Char) : Bool := c == ' ' || c == '\t' || c == '\n' || c == '\r'

theorem length_lexText {cs rest : List Char} {ps : List Piece}
    (h : lexText cs = some (ps, rest)) : rest.length < cs.length := by
  fun_induction lexText cs generalizing ps with
  | case1 => simp at h
  | case2 => simp_all
  | case3 => simp at h
  | case4 a b c d cs _ ih =>
    simp only [Option.bind_eq_bind, Option.bind_eq_some_iff, Option.pure_def, Option.some.injEq,
      Prod.mk.injEq, Prod.exists] at h
    obtain ⟨n, -, qs, r, hr, -, rfl⟩ := h
    have := ih hr
    simp only [List.length_cons]
    omega
  | case5 e cs _ _ ih =>
    simp only [Option.bind_eq_bind, Option.bind_eq_some_iff, Option.pure_def, Option.some.injEq,
      Prod.mk.injEq, Prod.exists] at h
    obtain ⟨c, -, qs, r, hr, -, rfl⟩ := h
    have := ih hr
    simp only [List.length_cons]
    omega
  | case6 => simp at h
  | case7 c cs _ _ _ ih =>
    simp only [Option.bind_eq_bind, Option.bind_eq_some_iff, Option.pure_def, Option.some.injEq,
      Prod.mk.injEq, Prod.exists] at h
    obtain ⟨qs, r, hr, -, rfl⟩ := h
    have := ih hr
    simp only [List.length_cons]
    omega

theorem length_lexDigits {cs rest ds : List Char} (h : lexDigits cs = some (ds, rest)) :
    rest.length < cs.length := by
  unfold lexDigits at h
  split at h
  · simp at h
  · rename_i ds' hne
    simp only [Option.some.injEq, Prod.mk.injEq] at h
    obtain ⟨rfl, rfl⟩ := h
    have := congrArg List.length (List.takeWhile_append_dropWhile (p := Char.isDigit) (l := cs))
    have := List.length_pos_iff.2 hne
    simp only [List.length_append] at *
    omega

theorem length_lexWhole {cs rest ds : List Char} (h : lexWhole cs = some (ds, rest)) :
    rest.length < cs.length := by
  unfold lexWhole at h
  split at h
  · simp_all
  · exact length_lexDigits h

theorem length_lexFraction {cs rest ds : List Char} (h : lexFraction cs = some (ds, rest)) :
    rest.length ≤ cs.length := by
  unfold lexFraction at h
  split at h
  · have := length_lexDigits h
    simp only [List.length_cons]
    omega
  · simp_all

theorem length_lexSignedDigits {cs rest : List Char} {x : Bool × List Char}
    (h : lexSignedDigits cs = some (x, rest)) : rest.length ≤ cs.length := by
  unfold lexSignedDigits at h
  split at h <;>
  · simp only [Option.map_eq_some_iff, Prod.exists, Prod.mk.injEq] at h
    obtain ⟨ds, r, hr, -, rfl⟩ := h
    have := length_lexDigits hr
    try rw [List.length_cons]
    omega

theorem length_lexExponent {cs rest : List Char} {x : Option (Bool × List Char)}
    (h : lexExponent cs = some (x, rest)) : rest.length ≤ cs.length := by
  unfold lexExponent at h
  split at h
  · simp_all
  · split at h
    · simp only [Option.map_eq_some_iff, Prod.exists, Prod.mk.injEq] at h
      obtain ⟨b, ds, r, hr, -, rfl⟩ := h
      have := length_lexSignedDigits hr
      rw [List.length_cons]
      omega
    · simp_all

theorem length_lexUnsigned {negative : Bool} {cs rest : List Char} {n : Numeral}
    (h : lexUnsigned negative cs = some (n, rest)) : rest.length < cs.length := by
  simp only [lexUnsigned, Option.bind_eq_bind, Option.bind_eq_some_iff, Option.pure_def,
    Option.some.injEq, Prod.mk.injEq, Prod.exists] at h
  obtain ⟨whole, r₁, h₁, fraction, r₂, h₂, exponent, r₃, h₃, -, rfl⟩ := h
  have := length_lexWhole h₁
  have := length_lexFraction h₂
  have := length_lexExponent h₃
  omega

theorem length_lexNumeral {cs rest : List Char} {n : Numeral}
    (h : lexNumeral cs = some (n, rest)) : rest.length < cs.length := by
  unfold lexNumeral at h
  split at h
  · have := length_lexUnsigned h
    rw [List.length_cons]
    omega
  · exact length_lexUnsigned h

theorem length_afterWord? {w : String} {cs rest : List Char}
    (h : afterWord? w cs = some rest) : rest.length ≤ cs.length := by
  unfold afterWord? at h
  split at h
  · obtain rfl := Option.some.inj h
    simp
  · simp at h

/-- What is left behind a lexeme is shorter. -/
theorem length_lexeme {cs rest : List Char} {l : Lexeme} (h : lexeme cs = some (l, rest)) :
    rest.length < cs.length := by
  unfold lexeme at h
  split at h
  · simp_all
  · simp_all
  · simp_all
  · simp_all
  · simp_all
  · simp_all
  · simp only [Option.map_eq_some_iff, Prod.exists, Prod.mk.injEq] at h
    obtain ⟨ps, r, hr, -, rfl⟩ := h
    have := length_lexText hr
    rw [List.length_cons]
    omega
  · simp only [Option.map_eq_some_iff, Prod.mk.injEq] at h
    obtain ⟨r, hr, -, rfl⟩ := h
    exact Nat.lt_succ_of_le (length_afterWord? hr)
  · simp only [Option.map_eq_some_iff, Prod.mk.injEq] at h
    obtain ⟨r, hr, -, rfl⟩ := h
    exact Nat.lt_succ_of_le (length_afterWord? hr)
  · simp only [Option.map_eq_some_iff, Prod.mk.injEq] at h
    obtain ⟨r, hr, -, rfl⟩ := h
    exact Nat.lt_succ_of_le (length_afterWord? hr)
  · simp only [Option.map_eq_some_iff, Prod.exists, Prod.mk.injEq] at h
    obtain ⟨n, r, hr, -, rfl⟩ := h
    exact length_lexNumeral hr

/-! ## The lexemes of a text -/

/-- The lexemes of a text. -/
def lexemes : List Char → Option (List Lexeme)
  | [] => some []
  | c :: cs =>
    if isBlank c then lexemes cs
    else
      match h : lexeme (c :: cs) with
      | none => none
      | some (l, rest) =>
        have : rest.length ≤ cs.length := Nat.le_of_lt_succ (length_lexeme h)
        (lexemes rest).map (l :: ·)
termination_by cs => cs.length

end LineShell.Json
