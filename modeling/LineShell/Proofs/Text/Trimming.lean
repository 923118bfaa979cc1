import LineShell.Text.Blank
import Mathlib.Data.List.TakeWhile

/-!
# Trimming

Which part of a text is left when the blanks at its ends are taken off: blanks around it make no
difference, nothing is left of a blank text, and what is left is part of the text.
-/

namespace LineShell.Text

variable {bs cs : List Char}

theorem dropWhile_isBlank_append (h : ∀ b ∈ bs, isBlank b = true) (cs : List Char) :
    (bs ++ cs).dropWhile isBlank = cs.dropWhile isBlank := by
  rw [List.dropWhile_append, List.dropWhile_eq_nil_iff.mpr h, List.isEmpty_nil, if_pos rfl]

theorem trimChars_blank_append (h : ∀ b ∈ bs, isBlank b = true) (cs : List Char) :
    trimChars (bs ++ cs) = trimChars cs := by
  rw [trimChars, dropWhile_isBlank_append h, trimChars]

theorem trimChars_cons_of_blank {c : Char} (hc : isBlank c = true) (cs : List Char) :
    trimChars (c :: cs) = trimChars cs := by
  rw [trimChars, List.dropWhile_cons_of_pos hc, trimChars]

theorem trimChars_append_blank (h : ∀ b ∈ bs, isBlank b = true) (cs : List Char) :
    trimChars (cs ++ bs) = trimChars cs := by
  rw [trimChars, trimChars, List.dropWhile_append]
  split
  · rename_i hnil
    rw [List.dropWhile_eq_nil_iff.mpr h, List.isEmpty_iff.mp hnil]
  · rw [trimEnd, trimEnd, List.reverse_append, dropWhile_isBlank_append]
    exact fun b hb => h b (List.mem_reverse.mp hb)

theorem trimChars_eq_nil_iff : trimChars cs = [] ↔ ∀ c ∈ cs, isBlank c = true := by
  constructor
  · intro h c hc
    have hdrop : cs.dropWhile isBlank = [] := by
      rw [trimChars, trimEnd, List.reverse_eq_nil_iff, List.dropWhile_eq_nil_iff] at h
      cases hd : cs.dropWhile isBlank with
      | nil => rfl
      | cons d ds =>
          have hblank := h d (List.mem_reverse.mpr (hd ▸ List.mem_cons_self))
          have hfirst := head?_dropWhile_isBlank cs d (by rw [hd]; rfl)
          rw [hfirst] at hblank
          cases hblank
    exact List.dropWhile_eq_nil_iff.mp hdrop c hc
  · intro h
    have hnil := trimChars_append_blank h []
    rwa [List.nil_append] at hnil

theorem mem_of_mem_trimChars {c : Char} (h : c ∈ trimChars cs) : c ∈ cs := by
  obtain ⟨bs, hbs, -⟩ := exists_append_trimEnd (cs.dropWhile isBlank)
  have hmem : c ∈ cs.dropWhile isBlank := hbs ▸ List.mem_append_left bs h
  exact (List.dropWhile_sublist isBlank).subset hmem

/-- Something in front of a trimmed text stays there unless it is blank. -/
theorem blank_of_trimChars_append (hne : cs ≠ []) (hcs : trimChars cs = cs)
    (h : trimChars (bs ++ cs) = cs) : ∀ b ∈ bs, isBlank b = true := by
  rw [← List.dropWhile_eq_nil_iff]
  by_contra hdrop
  have hkeep : (bs ++ cs).dropWhile isBlank = bs.dropWhile isBlank ++ cs := by
    rw [List.dropWhile_append, if_neg (mt List.isEmpty_iff.mp hdrop)]
  have hlast : ∀ c ∈ ((bs ++ cs).dropWhile isBlank).getLast?, isBlank c = false := by
    obtain ⟨d, hd⟩ := Option.isSome_iff_exists.mp (List.getLast?_isSome.mpr hne)
    intro c hc
    rw [hkeep, List.getLast?_append, hd] at hc
    refine (trimmed_trimChars cs).2 c ?_
    rw [hcs, hd]
    exact hc
  rw [trimChars, trimEnd_eq_self hlast, hkeep] at h
  exact hdrop (List.append_left_eq_self.mp h)

/-- A text is trimmed if its first character is not blank and its end is trimmed. -/
theorem trimmed_cons_append {c : Char} {ds : List Char} (hc : isBlank c = false) (hne : ds ≠ [])
    (hlast : ∀ d ∈ ds.getLast?, isBlank d = false) (cs : List Char) :
    Trimmed (c :: (cs ++ ds)) := by
  constructor
  · intro b hb
    obtain rfl := Option.some.inj hb
    exact hc
  · intro b hb
    obtain ⟨d, hd⟩ := Option.isSome_iff_exists.mp (List.getLast?_isSome.mpr hne)
    rw [← List.cons_append, List.getLast?_append, hd] at hb
    exact hlast b (hd ▸ hb)

theorem trimmed_between {c d : Char} (hc : isBlank c = false) (hd : isBlank d = false)
    (cs : List Char) : Trimmed (c :: (cs ++ [d])) := by
  refine trimmed_cons_append hc (List.cons_ne_nil d []) (fun b hb => ?_) cs
  obtain rfl := Option.some.inj hb
  exact hd

theorem trim_of_trimmed {s : String} (h : Trimmed s.toList) : trim s = s := by
  rw [trim, trimChars_eq_self h, String.ofList_toList]

end LineShell.Text
