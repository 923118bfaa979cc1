import LineShell.Proofs.History

/-!
# The place of a recall

A recall is at a place among the lines of a history, and at the place behind the newest line as long
as no line is recalled (`position`). In a history in use the cursor never leaves the lines
(`inBounds_moveAll`), so each step goes to the neighbouring place if there is one
(`older_of_inBounds`, `newer_of_inBounds`), and what a run of moves has left of the lines are the
newest of those that were pushed (`lines_moveAll`).
-/

namespace LineShell.History

variable {h : History} {p : Nat}

/-! ## Places -/

/-- The place of the recall, behind the newest line if no line is recalled. -/
def position (h : History) : Nat := h.cursor.getD h.lines.length

/-- The history with the recall at the place `p`. -/
def seek (h : History) (p : Nat) : History :=
  { h with cursor := if p < h.lines.length then some p else none }

@[simp] theorem lines_seek (h : History) (p : Nat) : (h.seek p).lines = h.lines := rfl

theorem position_seek (hp : p ≤ h.lines.length) : (h.seek p).position = p := by
  rcases Nat.lt_or_eq_of_le hp with hlt | rfl
  · simp [position, seek, hlt]
  · simp [position, seek]

/-- The recalled line, if any, is one of the lines. -/
def InBounds (h : History) : Prop := ∀ i, h.cursor = some i → i < h.lines.length

theorem position_le (hb : h.InBounds) : h.position ≤ h.lines.length := by
  unfold position
  cases hc : h.cursor with
  | none => exact Nat.le_refl _
  | some i => exact Nat.le_of_lt (hb i hc)

theorem cursor_of_position_eq (hb : h.InBounds) (hp : h.position = h.lines.length) :
    h.cursor = none := by
  cases hc : h.cursor with
  | none => rfl
  | some i =>
      have hi := hb i hc
      simp only [position, hc, Option.getD_some] at hp
      omega

theorem cursor_of_position_lt (hp : h.position < h.lines.length) :
    h.cursor = some h.position := by
  cases hc : h.cursor with
  | none => simp [position, hc] at hp
  | some i => simp [position, hc]

/-! ## One step -/

theorem position_push (h : History) (line : String) :
    (h.push line).position = (h.push line).lines.length := rfl

theorem older_of_nil (hnil : h.lines = []) : h.older = (h, none) := by
  obtain ⟨cap, lines, cursor⟩ := h
  obtain rfl : lines = [] := hnil
  rfl

/-- From the oldest line the recall goes no further. -/
theorem older_of_inBounds (hb : h.InBounds) (hne : h.lines ≠ []) :
    h.older = (h.seek (h.position - 1), h.lines[h.position - 1]?) := by
  obtain ⟨cap, lines, cursor⟩ := h
  cases lines with
  | nil => exact absurd rfl hne
  | cons l lines =>
      have hp := position_le hb
      cases cursor with
      | none => simp [older, Recall.older, seek, position]
      | some i =>
          have hi : i < lines.length + 1 := hb i rfl
          have hmin : min (i - 1) lines.length = i - 1 := by omega
          have hlt : i - 1 < lines.length + 1 := by omega
          simp [older, Recall.older, seek, position, hmin, hlt]

theorem newer_of_position_eq (hb : h.InBounds) (hp : h.position = h.lines.length) :
    h.newer = (h, none) := by
  have hc := cursor_of_position_eq hb hp
  obtain ⟨cap, lines, cursor⟩ := h
  obtain rfl : cursor = none := hc
  rfl

/-- Behind the newest line there is no text. -/
theorem newer_of_position_lt (hp : h.position < h.lines.length) :
    h.newer = (h.seek (h.position + 1), some (h.lines.getD (h.position + 1) "")) := by
  have hc := cursor_of_position_lt hp
  generalize h.position = p at hc hp ⊢
  obtain ⟨cap, lines, cursor⟩ := h
  obtain rfl : cursor = some p := hc
  by_cases hlt : p + 1 < lines.length
  · simp [newer, Recall.newer, seek, hlt]
  · simp [newer, Recall.newer, seek, hlt]

/-! ## Runs -/

/-- The line that a move pushes. -/
def Move.line? : Move → Option String
  | .push line => some line
  | .older | .newer => none

theorem inBounds_seek (h : History) (p : Nat) : (h.seek p).InBounds := by
  intro i hi
  simp only [seek] at hi
  split at hi
  · rename_i hlt
    rwa [← Option.some.inj hi]
  · cases hi

/-- One case for each move; a recall step only looks for another place. -/
theorem inBounds_move (hb : h.InBounds) (m : Move) : (h.move m).InBounds := by
  cases m with
  | push line =>
      intro i hi
      cases hi
  | older =>
      show h.older.1.InBounds
      by_cases hnil : h.lines = []
      · rwa [older_of_nil hnil]
      · rw [older_of_inBounds hb hnil]
        exact inBounds_seek h _
  | newer =>
      show h.newer.1.InBounds
      rcases Nat.lt_or_eq_of_le (position_le hb) with hp | hp
      · rw [newer_of_position_lt hp]
        exact inBounds_seek h _
      · rwa [newer_of_position_eq hb hp]

theorem inBounds_moveAll (hb : h.InBounds) (moves : List Move) : (h.moveAll moves).InBounds := by
  induction moves generalizing h with
  | nil => exact hb
  | cons m moves ih => exact ih (inBounds_move hb m)

/-- Pushes alone decide about the lines. -/
theorem lines_moveAll (hfit : h.lines.length ≤ h.cap) (moves : List Move) :
    (h.moveAll moves).lines = lastN h.cap (h.lines ++ moves.filterMap Move.line?) := by
  induction moves generalizing h with
  | nil =>
      rw [List.filterMap_nil, List.append_nil, lastN_of_length_le hfit]
      rfl
  | cons m moves ih =>
      have hrest : (h.moveAll (m :: moves)).lines = _ := ih (length_lines_move hfit m)
      rw [hrest, cap_move, List.filterMap_cons]
      cases m with
      | push line =>
          show lastN h.cap (lastN h.cap (h.lines ++ [line]) ++ moves.filterMap Move.line?) = _
          rw [lastN_lastN_append, List.append_assoc, List.singleton_append]
          rfl
      | older => rfl
      | newer => rfl

/-- A history in use holds the newest of the lines that were pushed, as many as it has room for, and
its recall is at one of their places or behind them. A push moves the recall behind the lines, and
the two recall steps move it to the neighbouring place, recalling the line there: the older one as
far as the oldest line, and the newer one as far as behind the lines, where the text is empty.
Beyond that they change nothing. No step of the recall changes a line. -/
theorem moveAll_empty_recalls (cap : Nat) (moves : List Move) :
    let h := (empty cap).moveAll moves
    h.lines = lastN (max 1 cap) (moves.filterMap Move.line?) ∧
      (h.cursor = none ∨ ∃ i, h.cursor = some i ∧ i < h.lines.length) ∧
      (∀ line, (h.push line).position = (h.push line).lines.length) ∧
      (h.lines = [] → h.older = (h, none)) ∧
      (h.lines ≠ [] → ∃ line, h.lines[h.position - 1]? = some line ∧
        h.older = (h.seek (h.position - 1), some line)) ∧
      (h.position = h.lines.length → h.newer = (h, none)) ∧
      (h.position < h.lines.length →
        h.newer = (h.seek (h.position + 1), some (h.lines.getD (h.position + 1) ""))) ∧
      ∀ p ≤ h.lines.length, (h.seek p).position = p ∧ (h.seek p).lines = h.lines := by
  intro h
  have hb : h.InBounds := inBounds_moveAll (fun i hi => by cases hi) moves
  refine ⟨?_, ?_, position_push h, older_of_nil, ?_, newer_of_position_eq hb,
    newer_of_position_lt, fun p hp => ⟨position_seek hp, rfl⟩⟩
  · exact lines_moveAll (Nat.zero_le _) moves
  · cases hc : h.cursor with
    | none => exact Or.inl rfl
    | some i => exact Or.inr ⟨i, rfl, hb i hc⟩
  · intro hne
    have hlt : h.position - 1 < h.lines.length := by
      have hle := position_le hb
      have hpos := List.length_pos_iff.mpr hne
      omega
    rw [older_of_inBounds hb hne, List.getElem?_eq_getElem hlt]
    exact ⟨_, rfl, rfl⟩

end LineShell.History
