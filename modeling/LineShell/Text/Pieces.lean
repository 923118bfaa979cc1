/-!
# Pieces of a text

A text as the pieces between the occurrences of a separator. Main statements: joining the pieces
gives the text back, and no piece holds the separator.
-/

namespace LineShell.Text

/-- The pieces between separators: always one more than there are separators. -/
def pieces (sep : Char) : List Char → List (List Char)
  | [] => [[]]
  | c :: cs =>
    if c = sep then [] :: pieces sep cs
    else
      match pieces sep cs with
      | [] => [[c]]
      | p :: ps => (c :: p) :: ps

/-- Pieces put together again with separators between them. -/
def joinPieces (sep : Char) : List (List Char) → List Char
  | [] => []
  | [p] => p
  | p :: q :: ps => p ++ sep :: joinPieces sep (q :: ps)

/-- The text in front of the first separator, and the text behind it if there is one. -/
def splitFirst (sep : Char) (cs : List Char) : List Char × Option (List Char) :=
  match cs.dropWhile (· ≠ sep) with
  | [] => (cs, none)
  | _ :: rest => (cs.takeWhile (· ≠ sep), some rest)

theorem pieces_ne_nil (sep : Char) (cs : List Char) : pieces sep cs ≠ [] := by
  cases cs with
  | nil => simp [pieces]
  | cons c cs =>
    simp only [pieces]
    split
    · simp
    · split <;> simp

theorem joinPieces_pieces (sep : Char) (cs : List Char) : joinPieces sep (pieces sep cs) = cs := by
  induction cs with
  | nil => rfl
  | cons c cs ih =>
    obtain ⟨p, ps, h⟩ := List.exists_cons_of_ne_nil (pieces_ne_nil sep cs)
    rw [h] at ih
    by_cases hc : c = sep
    · subst hc
      simp [pieces, joinPieces, h, ih]
    · cases ps with
      | nil => simp_all [pieces, joinPieces]
      | cons q qs => simp_all [pieces, joinPieces]

theorem separator_notMem_pieces (sep : Char) (cs : List Char) : ∀ p ∈ pieces sep cs, sep ∉ p := by
  induction cs with
  | nil => simp [pieces]
  | cons c cs ih =>
    obtain ⟨p, ps, h⟩ := List.exists_cons_of_ne_nil (pieces_ne_nil sep cs)
    rw [h] at ih
    by_cases hc : c = sep
    · simpa [pieces, hc, h] using ih
    · intro q hq
      simp only [pieces, hc, h, if_false, List.mem_cons] at hq
      rcases hq with rfl | hq
      · simpa [Ne.symm hc] using ih p (by simp)
      · exact ih q (by simp [hq])

@[simp] theorem length_pieces (sep : Char) (cs : List Char) :
    (pieces sep cs).length = cs.count sep + 1 := by
  induction cs with
  | nil => rfl
  | cons c cs ih =>
    obtain ⟨p, ps, h⟩ := List.exists_cons_of_ne_nil (pieces_ne_nil sep cs)
    rw [h] at ih
    by_cases hc : c = sep <;> simp_all [pieces]

end LineShell.Text
