import LineShell.History

/-!
# The newest lines

The last elements of lists that were appended, and the lines of a history after many pushes. A
history that is in use is pushed to and recalled from in any order (`History.moveAll`); it never
holds more lines than it has room for, and a recall that gives no text changes nothing.
-/

namespace LineShell.History

/-! ## The last elements -/

variable {α β : Type} {n : Nat} {as bs : List α}

theorem lastN_of_length_le (h : as.length ≤ n) : lastN n as = as := by
  rw [lastN, Nat.sub_eq_zero_of_le h, List.drop_zero]

theorem lastN_zero (as : List α) : lastN 0 as = [] := by
  rw [lastN, Nat.sub_zero, List.drop_length]

theorem length_lastN (n : Nat) (as : List α) : (lastN n as).length = min n as.length := by
  rw [lastN, List.length_drop]
  omega

theorem lastN_append_of_le (as : List α) (h : n ≤ bs.length) :
    lastN n (as ++ bs) = lastN n bs := by
  have hle : as.length ≤ (as ++ bs).length - n := by
    rw [List.length_append]
    omega
  rw [lastN, List.drop_append, List.drop_of_length_le hle, List.nil_append, lastN,
    List.length_append]
  congr 1
  omega

theorem lastN_append_of_length_le (as : List α) (h : bs.length ≤ n) :
    lastN n (as ++ bs) = lastN (n - bs.length) as ++ bs := by
  have hzero : (as ++ bs).length - n - as.length = 0 := by
    rw [List.length_append]
    omega
  rw [lastN, List.drop_append, hzero, List.drop_zero, lastN, List.length_append]
  congr 2
  omega

theorem lastN_lastN {m : Nat} (h : n ≤ m) (as : List α) : lastN n (lastN m as) = lastN n as := by
  simp only [lastN, List.drop_drop, List.length_drop]
  congr 1
  omega

/-- What was dropped before is not among the last elements later. -/
theorem lastN_lastN_append (n : Nat) (as bs : List α) :
    lastN n (lastN n as ++ bs) = lastN n (as ++ bs) := by
  rcases Nat.le_total n bs.length with hle | hle
  · rw [lastN_append_of_le _ hle, lastN_append_of_le _ hle]
  · rw [lastN_append_of_length_le _ hle, lastN_append_of_length_le _ hle,
      lastN_lastN (Nat.sub_le _ _)]

theorem map_lastN (f : α → β) (n : Nat) (as : List α) :
    (lastN n as).map f = lastN n (as.map f) := by
  rw [lastN, lastN, List.map_drop, List.length_map]

theorem lastN_suffix (n : Nat) (as : List α) : lastN n as <:+ as := List.drop_suffix _ _

/-- What is among the last elements of an end is among those of the whole. -/
theorem mem_lastN_append {a : α} (as : List α) (h : a ∈ lastN n bs) : a ∈ lastN n (as ++ bs) := by
  rcases Nat.le_total n bs.length with hle | hle
  · rwa [lastN_append_of_le as hle]
  · rw [lastN_append_of_length_le as hle]
    exact List.mem_append_right _ ((lastN_suffix n bs).subset h)

/-! ## Many pushes -/

theorem cap_pushAll (h : History) (lines : List String) : (h.pushAll lines).cap = h.cap := by
  induction lines generalizing h with
  | nil => rfl
  | cons l lines ih => exact ih (h.push l)

theorem lines_pushAll {h : History} (hfit : h.lines.length ≤ h.cap) (lines : List String) :
    (h.pushAll lines).lines = lastN h.cap (h.lines ++ lines) := by
  induction lines generalizing h with
  | nil =>
      rw [List.append_nil, lastN_of_length_le hfit]
      rfl
  | cons l lines ih =>
      have hpush := ih (h.length_lines_push l)
      show ((h.push l).pushAll lines).lines = _
      rw [hpush]
      show lastN h.cap (lastN h.cap (h.lines ++ [l]) ++ lines) = _
      rw [List.append_cons h.lines l lines, lastN_lastN_append]

/-- A new history takes all lines that there is room for. -/
theorem lines_pushAll_empty {cap : Nat} {lines : List String} (hfit : lines.length ≤ max 1 cap) :
    ((empty cap).pushAll lines).lines = lines := by
  rw [lines_pushAll (Nat.zero_le _)]
  exact lastN_of_length_le hfit

/-- The lines after pushes on a history that was begun with a few lines. -/
theorem lines_pushAll_pushAll {cap : Nat} {before : List String}
    (hfit : before.length ≤ max 1 cap) (lines : List String) :
    (((empty cap).pushAll before).pushAll lines).lines = lastN (max 1 cap) (before ++ lines) := by
  rw [lines_pushAll, lines_pushAll_empty hfit, cap_pushAll]
  · rfl
  · rw [lines_pushAll_empty hfit, cap_pushAll]
    exact hfit

/-! ## Histories in use -/

/-- What is done to a history while it is in use. -/
inductive Move
  | push (line : String)
  | older
  | newer

def move (h : History) : Move → History
  | .push line => h.push line
  | .older => h.older.1
  | .newer => h.newer.1

/-- Does one thing after the other. -/
def moveAll (h : History) (moves : List Move) : History := moves.foldl move h

theorem cap_move (h : History) (m : Move) : (h.move m).cap = h.cap := by
  cases m <;> rfl

theorem length_lines_move {h : History} (hfit : h.lines.length ≤ h.cap) (m : Move) :
    (h.move m).lines.length ≤ (h.move m).cap := by
  cases m with
  | push line => exact h.length_lines_push line
  | older => exact hfit
  | newer => exact hfit

theorem length_lines_moveAll {h : History} (hfit : h.lines.length ≤ h.cap) (moves : List Move) :
    (h.moveAll moves).cap = h.cap ∧ (h.moveAll moves).lines.length ≤ h.cap := by
  induction moves generalizing h with
  | nil => exact ⟨rfl, hfit⟩
  | cons m moves ih =>
      have hcap := h.cap_move m
      have hrest := ih (length_lines_move hfit m)
      rwa [hcap] at hrest

theorem length_lines_moveAll_empty (cap : Nat) (moves : List Move) :
    ((empty cap).moveAll moves).cap = max 1 cap ∧
      ((empty cap).moveAll moves).lines.length ≤ ((empty cap).moveAll moves).cap := by
  obtain ⟨hcap, hlen⟩ := length_lines_moveAll (h := empty cap) (Nat.zero_le _) moves
  exact ⟨hcap, hcap ▸ hlen⟩

theorem older_of_eq_none {h : History} (hnone : h.older.2 = none) : h.older.1 = h := by
  obtain ⟨cap, lines, cursor⟩ := h
  cases lines with
  | nil => rfl
  | cons l lines =>
      -- There is a line at the new cursor, so there is a text.
      simp only [older, Recall.older, List.getElem?_eq_none_iff, List.length_cons] at hnone
      split at hnone <;> omega

theorem newer_of_eq_none {h : History} (hnone : h.newer.2 = none) : h.newer.1 = h := by
  obtain ⟨cap, lines, cursor⟩ := h
  cases cursor with
  | none => rfl
  | some i =>
      simp only [newer, Recall.newer] at hnone
      split at hnone
      · rename_i hlt
        exact absurd hlt (Nat.not_lt.mpr (List.getElem?_eq_none_iff.mp hnone))
      · cases hnone

end LineShell.History
