import LineShell.Expr.Lexer
import LineShell.Value.OfText

/-!
# Assignments

A line that gives a value to a name: a word, an equals sign that is not doubled, and text that is
not blank. The text is a value and no expression. Main statement: what stands on the right is
trimmed and not empty.
-/

namespace LineShell

/-- The trimmed text behind an equals sign: one character that is no equals sign, then no line
feed, and not all of it blank. -/
def assignedText? : List Char → Option (List Char)
  | [] => none
  | c :: cs =>
    if c = '=' ∨ '\n' ∈ cs then none
    else
      match Text.trimChars (c :: cs) with
      | [] => none
      | rest => some rest

/-- The name and the text of an assignment. -/
def splitAssignment? (line : List Char) : Option (List Char × List Char) :=
  let name := line.takeWhile isWordChar
  if isWord name then
    match (line.dropWhile isWordChar).dropWhile Text.isBlank with
    | '=' :: cs => (assignedText? cs).map fun rest => (name, rest)
    | _ => none
  else none

/-- The name and the value that a line assigns. -/
def assignment? (line : String) : Option (String × Value) :=
  (splitAssignment? line.toList).map fun (name, rest) =>
    (String.ofList name, Value.ofText (String.ofList rest))

theorem assignedText?_eq_some {cs rest : List Char} (h : assignedText? cs = some rest) :
    Text.trimChars cs = rest ∧ rest ≠ [] := by
  unfold assignedText? at h
  split at h
  · simp at h
  · split at h
    · simp at h
    · split at h
      · simp at h
      · rename_i heq
        obtain rfl := Option.some.inj h
        exact ⟨rfl, heq⟩

/-- The name of an assignment is a word, and its text is trimmed and not empty. -/
theorem splitAssignment?_eq_some {line name rest : List Char}
    (h : splitAssignment? line = some (name, rest)) :
    isWord name ∧ Text.Trimmed rest ∧ rest ≠ [] := by
  unfold splitAssignment? at h
  dsimp only at h
  split at h
  · rename_i hw
    split at h
    · simp only [Option.map_eq_some_iff, Prod.mk.injEq] at h
      obtain ⟨r, hr, rfl, rfl⟩ := h
      obtain ⟨rfl, hne⟩ := assignedText?_eq_some hr
      exact ⟨hw, Text.trimmed_trimChars _, hne⟩
    · simp at h
  · simp at h

end LineShell
