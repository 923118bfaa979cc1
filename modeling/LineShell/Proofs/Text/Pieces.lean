import LineShell.Text.Lines

/-!
# Pieces and texts made of them

How texts fall into pieces when they are put together, and what is left of a text when some of its
pieces are left out.
-/

namespace LineShell.Text

variable {sep : Char}

theorem pieces_of_notMem {cs : List Char} (h : sep ∉ cs) : pieces sep cs = [cs] := by
  induction cs with
  | nil => rfl
  | cons c cs ih =>
      rw [List.mem_cons, not_or] at h
      rw [pieces, if_neg (Ne.symm h.1), ih h.2]

theorem pieces_append_separator (sep : Char) (cs ds : List Char) :
    pieces sep (cs ++ sep :: ds) = pieces sep cs ++ pieces sep ds := by
  induction cs with
  | nil => simp [pieces]
  | cons c cs ih =>
      obtain ⟨p, ps, hps⟩ := List.exists_cons_of_ne_nil (pieces_ne_nil sep cs)
      by_cases hc : c = sep
      · rw [List.cons_append, pieces, if_pos hc, ih, pieces, if_pos hc, List.cons_append]
      · rw [List.cons_append, pieces, if_neg hc, ih, pieces, if_neg hc, hps]
        rfl

/-- What holds no separator only makes the first piece longer. -/
theorem pieces_append_of_notMem {bs cs : List Char} (h : sep ∉ bs) {p : List Char}
    {ps : List (List Char)} (hcs : pieces sep cs = p :: ps) :
    pieces sep (bs ++ cs) = (bs ++ p) :: ps := by
  induction bs with
  | nil => exact hcs
  | cons b bs ih =>
      rw [List.mem_cons, not_or] at h
      rw [List.cons_append, pieces, if_neg (Ne.symm h.1), ih h.2, List.cons_append]

theorem pieces_joinPieces {ps : List (List Char)} (hne : ps ≠ []) (h : ∀ p ∈ ps, sep ∉ p) :
    pieces sep (joinPieces sep ps) = ps := by
  induction ps with
  | nil => exact absurd rfl hne
  | cons p ps ih =>
      have hp := h p List.mem_cons_self
      cases ps with
      | nil => exact pieces_of_notMem hp
      | cons q qs =>
          rw [joinPieces, pieces_append_separator, pieces_of_notMem hp,
            ih (List.cons_ne_nil q qs) fun r hr => h r (List.mem_cons_of_mem p hr),
            List.singleton_append]

theorem joinPieces_concat {ps : List (List Char)} (h : ps ≠ []) (p : List Char) :
    joinPieces sep (ps ++ [p]) = joinPieces sep ps ++ sep :: p := by
  induction ps with
  | nil => exact absurd rfl h
  | cons q ps ih =>
      cases ps with
      | nil => rfl
      | cons r rs =>
          have hrest := ih (List.cons_ne_nil r rs)
          simp only [List.cons_append, joinPieces] at hrest ⊢
          rw [hrest, List.append_assoc, List.cons_append]

theorem joinPieces_sublist_joinPieces (sep : Char) {ps qs : List (List Char)}
    (h : ps.Sublist qs) :
    (joinPieces sep ps).Sublist (joinPieces sep qs) := by
  induction h with
  | slnil => exact List.Sublist.refl []
  | @cons ps qs q h ih =>
      cases qs with
      | nil =>
          obtain rfl := List.sublist_nil.mp h
          exact List.nil_sublist _
      | cons r rs =>
          exact ih.trans ((List.sublist_cons_self sep _).trans (List.sublist_append_right q _))
  | @cons_cons ps qs q h ih =>
      cases qs with
      | nil =>
          obtain rfl := List.sublist_nil.mp h
          exact List.Sublist.refl _
      | cons r rs =>
          cases ps with
          | nil => exact List.sublist_append_left q _
          | cons p ps => exact (List.Sublist.refl q).append (ih.cons_cons sep)

theorem eq_or_mem_of_mem_joinPieces {ps : List (List Char)} {c : Char}
    (h : c ∈ joinPieces sep ps) : c = sep ∨ ∃ p ∈ ps, c ∈ p := by
  induction ps with
  | nil => cases h
  | cons p ps ih =>
      cases ps with
      | nil => exact Or.inr ⟨p, List.mem_cons_self, h⟩
      | cons q qs =>
          rw [joinPieces, List.mem_append, List.mem_cons] at h
          rcases h with h | rfl | h
          · exact Or.inr ⟨p, List.mem_cons_self, h⟩
          · exact Or.inl rfl
          · rcases ih h with h | ⟨r, hr, h⟩
            · exact Or.inl h
            · exact Or.inr ⟨r, List.mem_cons_of_mem p hr, h⟩

/-- What stands in a piece stands in the text. -/
theorem mem_of_mem_pieces {c : Char} {cs p : List Char} (hp : p ∈ pieces sep cs) (hc : c ∈ p) :
    c ∈ cs := by
  have hsub := joinPieces_sublist_joinPieces sep (List.singleton_sublist.mpr hp)
  rw [joinPieces_pieces] at hsub
  exact hsub.subset hc

theorem mem_of_mem_splitLines {s line : String} {c : Char} (hline : line ∈ splitLines s)
    (hc : c ∈ line.toList) : c ∈ s.toList := by
  obtain ⟨p, hp, rfl⟩ := List.mem_map.mp hline
  rw [String.toList_ofList] at hc
  exact mem_of_mem_pieces hp hc

theorem splitLines_joinLines {ls : List String} (hne : ls ≠ []) (h : ∀ l ∈ ls, '\n' ∉ l.toList) :
    splitLines (joinLines ls) = ls := by
  have hfeed : ∀ p ∈ ls.map String.toList, '\n' ∉ p := by
    intro p hp
    obtain ⟨l, hl, rfl⟩ := List.mem_map.mp hp
    exact h l hl
  have hid : String.ofList ∘ String.toList = id := funext fun l => String.ofList_toList
  rw [splitLines, joinLines, String.toList_ofList,
    pieces_joinPieces (mt List.map_eq_nil_iff.mp hne) hfeed, List.map_map, hid, List.map_id]

end LineShell.Text
