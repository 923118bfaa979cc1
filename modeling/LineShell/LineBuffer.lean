/-!
# The input line

A line that is being edited, with a caret between its characters. Main statement: the caret never
leaves the line, so every edit stays in range.
-/

namespace LineShell

/-- A line that is being edited. The caret counts the characters in front of it. -/
structure LineBuffer where
  chars : List Char
  caret : Nat
  caret_le : caret ≤ chars.length

namespace LineBuffer

/-- The line with the caret at its end. -/
def ofList (cs : List Char) : LineBuffer := ⟨cs, cs.length, Nat.le_refl _⟩

/-- The empty line. -/
def empty : LineBuffer := ofList []

instance : Inhabited LineBuffer := ⟨empty⟩

/-- The text of the line. -/
def text (b : LineBuffer) : String := String.ofList b.chars

def isEmpty (b : LineBuffer) : Bool := b.chars.isEmpty

/-- Replaces the line, with the caret at its end. -/
def set (_ : LineBuffer) (s : String) : LineBuffer := ofList s.toList

/-- Empties the line and gives its text back. -/
def take (b : LineBuffer) : LineBuffer × String := (empty, b.text)

/-- Puts a character in at the caret, which moves behind it. -/
def insert (b : LineBuffer) (c : Char) : LineBuffer where
  chars := b.chars.insertIdx b.caret c
  caret := b.caret + 1
  caret_le := by
    rw [List.length_insertIdx_of_le_length b.caret_le]
    exact Nat.succ_le_succ b.caret_le

/-- Removes the character in front of the caret. -/
def backspace (b : LineBuffer) : LineBuffer where
  chars := if 0 < b.caret then b.chars.eraseIdx (b.caret - 1) else b.chars
  caret := b.caret - 1
  caret_le := by
    have := b.caret_le
    split
    · rw [List.length_eraseIdx]
      split <;> omega
    · omega

/-- Removes the character behind the caret. -/
def delete (b : LineBuffer) : LineBuffer where
  chars := b.chars.eraseIdx b.caret
  caret := b.caret
  caret_le := by
    have := b.caret_le
    rw [List.length_eraseIdx]
    split <;> omega

/-- Moves the caret over the character in front of it. -/
def left (b : LineBuffer) : LineBuffer where
  chars := b.chars
  caret := b.caret - 1
  caret_le := by
    have := b.caret_le
    omega

/-- Moves the caret over the character behind it. -/
def right (b : LineBuffer) : LineBuffer where
  chars := b.chars
  caret := min (b.caret + 1) b.chars.length
  caret_le := Nat.min_le_right ..

/-- Moves the caret to the start. -/
def toStart (b : LineBuffer) : LineBuffer := ⟨b.chars, 0, Nat.zero_le _⟩

/-- Moves the caret to the end. -/
def toEnd (b : LineBuffer) : LineBuffer := ofList b.chars

end LineBuffer

end LineShell
