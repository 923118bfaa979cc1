/-!
# The history of submitted lines

The lines that were submitted last, up to a cap, and a cursor that walks through them. Main
statements: a history never holds more lines than its cap, and recalling changes no line.
-/

namespace LineShell

/-- How many lines a history holds as long as nothing else is configured. -/
def defaultHistorySize : Nat := 1000

namespace Recall

/-- One step of the cursor toward older lines: the new cursor, and the text for the input, which
stays as it is if there is none. -/
def older (cursor : Option Nat) (lines : List String) : Option Nat × Option String :=
  match lines with
  | [] => (cursor, none)
  | _ :: _ =>
    let last := lines.length - 1
    let i := match cursor with
      | none => last
      | some i => min (i - 1) last
    (some i, lines[i]?)

/-- One step of the cursor toward newer lines. Behind the newest line the recall ends, and the
input is empty. -/
def newer (cursor : Option Nat) (lines : List String) : Option Nat × Option String :=
  match cursor with
  | none => (none, none)
  | some i => if i + 1 < lines.length then (some (i + 1), lines[i + 1]?) else (none, some "")

end Recall

/-- A history. -/
structure History where
  /-- The greatest number of lines. -/
  cap : Nat
  /-- The lines, oldest first. -/
  lines : List String
  /-- The line that was recalled last. -/
  cursor : Option Nat
deriving DecidableEq, Repr

namespace History

/-- A history without lines. It has room for one line at least. -/
def empty (cap : Nat) : History := { cap := max 1 cap, lines := [], cursor := none }

instance : Inhabited History := ⟨empty defaultHistorySize⟩

/-- The last `n` elements. -/
def lastN {α : Type} (n : Nat) (as : List α) : List α := as.drop (as.length - n)

/-- Adds a line, drops the oldest ones for which there is no room, and ends the recall. -/
def push (h : History) (line : String) : History :=
  { h with lines := lastN h.cap (h.lines ++ [line]), cursor := none }

/-- Adds lines one after the other. -/
def pushAll (h : History) (lines : List String) : History := lines.foldl push h

/-- Recalls an older line. -/
def older (h : History) : History × Option String :=
  let (cursor, text) := Recall.older h.cursor h.lines
  ({ h with cursor }, text)

/-- Recalls a newer line. -/
def newer (h : History) : History × Option String :=
  let (cursor, text) := Recall.newer h.cursor h.lines
  ({ h with cursor }, text)

@[simp] theorem lines_older (h : History) : h.older.1.lines = h.lines := rfl

@[simp] theorem lines_newer (h : History) : h.newer.1.lines = h.lines := rfl

theorem length_lines_push (h : History) (line : String) : (h.push line).lines.length ≤ h.cap := by
  simp only [push, lastN, List.length_drop, List.length_append, List.length_singleton]
  omega

end History

end LineShell
