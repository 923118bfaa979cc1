import LineShell.Expr.Error
import LineShell.Text.Blank

/-!
# From text to tokens

A text is cut into lexemes: numerals, text in quotes, words and operators, with blanks between them
where one likes. Main statement: a lexeme takes at least one character, and leaves what follows it.
-/

namespace LineShell

/-- Letters of words: ASCII letters and the underscore. -/
def isWordStart (c : Char) : Bool := c.isAlpha || c == '_'

/-- Later characters of words. -/
def isWordChar (c : Char) : Bool := c.isAlphanum || c == '_'

/-- Whether a text is a word, and so can be the name of a variable. -/
def isWord : List Char → Bool
  | [] => false
  | c :: cs => isWordStart c && cs.all isWordChar

/-- Whether a character may stand in an expression. -/
def isExpressionChar (c : Char) : Bool :=
  isWordChar c || Text.isBlank c || ".+-*/%()\x27\x22!=<>".toList.contains c

/-- Whether a text has only characters of expressions. Other lines are never read as expressions. -/
def looksLikeExpression (cs : List Char) : Bool :=
  !cs.isEmpty && cs.all isExpressionChar

namespace Token

/-- The token of a numeral without a point: an integer if it fits, and a float if not. -/
def ofNumeral (whole : List Char) : Token :=
  match Number.ofInt? (Decimal.ofDigits whole) with
  | some n => .integer n
  | none => .float (Decimal.toFloat whole [])

/-- The numeral at the head of the text, which starts with a digit or a point, and the rest. -/
def lexNumber (cs : List Char) : Except ParseError (Token × List Char) :=
  let whole := cs.takeWhile Char.isDigit
  match cs.dropWhile Char.isDigit with
  | '.' :: rest =>
    let fraction := rest.takeWhile Char.isDigit
    if whole.isEmpty && fraction.isEmpty then .error .lonePoint
    else .ok (.float (Decimal.toFloat whole fraction), rest.dropWhile Char.isDigit)
  | rest => .ok (ofNumeral whole, rest)

/-- The text up to the closing quote `q`, and the rest behind the quote. -/
def lexText (q : Char) (cs : List Char) : Except ParseError (Token × List Char) :=
  match cs.dropWhile (· != q) with
  | [] => .error .unterminatedText
  | _ :: rest => .ok (.text (String.ofList (cs.takeWhile (· != q))), rest)

/-- The word that begins with `c`, and the rest. -/
def lexWord (c : Char) (cs : List Char) : Token × List Char :=
  (.word (String.ofList (c :: cs.takeWhile isWordChar)), cs.dropWhile isWordChar)

/-- The operator that begins with `c`, and the rest. An operator may be longer by an equals sign;
an equals sign alone is none. -/
def lexOperator (c : Char) (cs : List Char) : Except ParseError (Token × List Char) :=
  match c, cs with
  | '=', '=' :: rest => .ok (.equal, rest)
  | '=', _ => .error .assignment
  | '!', '=' :: rest => .ok (.notEqual, rest)
  | '!', rest => .ok (.bang, rest)
  | '<', '=' :: rest => .ok (.lessEqual, rest)
  | '<', rest => .ok (.less, rest)
  | '>', '=' :: rest => .ok (.greaterEqual, rest)
  | '>', rest => .ok (.greater, rest)
  | '+', rest => .ok (.plus, rest)
  | '-', rest => .ok (.minus, rest)
  | '*', rest => .ok (.star, rest)
  | '/', rest => .ok (.slash, rest)
  | '%', rest => .ok (.percent, rest)
  | '(', rest => .ok (.openParen, rest)
  | ')', rest => .ok (.closeParen, rest)
  | c, _ => .error (.unexpectedCharacter c)

/-- The lexeme that begins with `c`, which is not blank, and the rest. -/
def lexeme (c : Char) (cs : List Char) : Except ParseError (Token × List Char) :=
  if c.isDigit || c == '.' then lexNumber (c :: cs)
  else if c == '\x27' || c == '\x22' then lexText c cs
  else if isWordStart c then .ok (lexWord c cs)
  else lexOperator c cs

theorem lexNumber_suffix {c : Char} {cs rest : List Char} {t : Token}
    (hc : c.isDigit || c == '.') (h : lexNumber (c :: cs) = .ok (t, rest)) : rest <:+ cs := by
  unfold lexNumber at h
  by_cases hd : c.isDigit
  · have hdrop := List.dropWhile_suffix (l := cs) Char.isDigit
    rw [List.dropWhile_cons_of_pos hd] at h
    split at h
    · rename_i rest' hrest
      rw [hrest] at hdrop
      dsimp only at h
      split at h
      · simp at h
      · simp only [Except.ok.injEq, Prod.mk.injEq] at h
        obtain ⟨-, rfl⟩ := h
        exact (List.dropWhile_suffix _).trans ((List.suffix_cons '.' rest').trans hdrop)
    · simp only [Except.ok.injEq, Prod.mk.injEq] at h
      obtain ⟨-, rfl⟩ := h
      exact hdrop
  · rw [List.dropWhile_cons_of_neg hd] at h
    obtain rfl : c = '.' := by simpa [hd] using hc
    simp only at h
    split at h
    · simp at h
    · simp only [Except.ok.injEq, Prod.mk.injEq] at h
      obtain ⟨-, rfl⟩ := h
      exact List.dropWhile_suffix _

theorem lexText_suffix {q : Char} {cs rest : List Char} {t : Token}
    (h : lexText q cs = .ok (t, rest)) : rest <:+ cs := by
  unfold lexText at h
  have hdrop := List.dropWhile_suffix (l := cs) (· != q)
  split at h
  · simp at h
  · rename_i heq
    simp only [Except.ok.injEq, Prod.mk.injEq] at h
    obtain ⟨-, rfl⟩ := h
    rw [heq] at hdrop
    exact (List.suffix_cons _ _).trans hdrop

theorem lexOperator_suffix {c : Char} {cs rest : List Char} {t : Token}
    (h : lexOperator c cs = .ok (t, rest)) : rest <:+ cs := by
  unfold lexOperator at h
  split at h <;> simp at h <;> obtain ⟨-, rfl⟩ := h <;> simp

/-- What is left behind a lexeme is the end of what stood behind its first character. -/
theorem lexeme_suffix {c : Char} {cs rest : List Char} {t : Token}
    (h : lexeme c cs = .ok (t, rest)) : rest <:+ cs := by
  unfold lexeme at h
  split at h
  · rename_i hc
    exact lexNumber_suffix hc h
  · split at h
    · exact lexText_suffix h
    · split at h
      · simp only [lexWord, Except.ok.injEq, Prod.mk.injEq] at h
        obtain ⟨-, rfl⟩ := h
        exact List.dropWhile_suffix _
      · exact lexOperator_suffix h

/-- The tokens of a text. -/
def ofChars : List Char → Except ParseError (List Token)
  | [] => .ok []
  | c :: cs =>
    if Text.isBlank c then ofChars cs
    else
      match h : lexeme c cs with
      | .error e => .error e
      | .ok (t, rest) =>
        have := (lexeme_suffix h).length_le
        match ofChars rest with
        | .error e => .error e
        | .ok ts => .ok (t :: ts)
termination_by cs => cs.length

end Token

end LineShell
