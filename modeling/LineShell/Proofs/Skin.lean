import LineShell.Skin

/-!
# What skins add

A skin draws a text with codes around it. Taking the codes off again (`Style.strip`) gives back what
was painted, as long as no escape character stands in it (`shown_paint`), also where several texts
stand one behind the other. So all skins draw an entry alike but for the codes
(`strip_renderEntry`).
-/

namespace LineShell

namespace Style

variable {cs ds : List Char} {s : String}

/-! ## Taking codes off -/

/-- The characters that are shown: all but those of the codes. A code begins with an escape
character and a bracket and ends with the next `m`; the flag says that one has begun. -/
def shown : Bool → List Char → List Char
  | _, [] => []
  | true, c :: cs => shown (c != 'm') cs
  | false, c :: cs =>
    if c = '\x1b' ∧ cs.head? = some '[' then shown true cs else c :: shown false cs

/-- The text without the codes in it. -/
def strip (s : String) : String := String.ofList (shown false s.toList)

theorem shown_append (h : '\x1b' ∉ cs) (ds : List Char) :
    shown false (cs ++ ds) = cs ++ shown false ds := by
  induction cs with
  | nil => rfl
  | cons c cs ih =>
      rw [List.mem_cons, not_or] at h
      rw [List.cons_append, shown, if_neg fun hc => h.1 hc.1.symm, ih h.2, List.cons_append]

theorem shown_code (h : 'm' ∉ cs) (ds : List Char) :
    shown true (cs ++ 'm' :: ds) = shown false ds := by
  induction cs with
  | nil => rfl
  | cons c cs ih =>
      rw [List.mem_cons, not_or] at h
      have hc : (c != 'm') = true := bne_iff_ne.mpr (Ne.symm h.1)
      rw [List.cons_append, shown, hc, ih h.2]

/-! ## What is painted -/

/-- Between the numbers of a code stand semicolons. -/
theorem isDigit_or_of_mem_intercalate {codes : List Nat} {c : Char}
    (h : c ∈ [';'].intercalate (codes.map (Nat.toDigits 10))) : c.isDigit = true ∨ c = ';' := by
  have hdigit : ∀ {n}, c ∈ Nat.toDigits 10 n → c.isDigit = true :=
    Nat.isDigit_of_mem_toDigits (by decide) (by decide)
  induction codes with
  | nil => cases h
  | cons n codes ih =>
      cases codes with
      | nil =>
          rw [List.map_singleton, List.intercalate_singleton] at h
          exact Or.inl (hdigit h)
      | cons k codes =>
          rw [List.map_cons, List.map_cons, List.intercalate_cons_cons, List.append_assoc,
            List.mem_append, List.singleton_append, List.mem_cons] at h
          rcases h with h | h | h
          · exact Or.inl (hdigit h)
          · exact Or.inr h
          · exact ih h

theorem shown_sequence (codes : List Nat) (ds : List Char) :
    shown false (sequence codes ++ ds) = shown false ds := by
  have hm : 'm' ∉ '[' :: [';'].intercalate (codes.map (Nat.toDigits 10)) := by
    rw [List.mem_cons, not_or]
    refine ⟨by decide, fun h => ?_⟩
    rcases isDigit_or_of_mem_intercalate h with h | h
    · revert h
      decide
    · cases h
  have hcs : sequence codes ++ ds =
      '\x1b' :: (('[' :: [';'].intercalate (codes.map (Nat.toDigits 10))) ++ 'm' :: ds) := by
    simp [sequence]
  rw [hcs, shown, if_pos ⟨rfl, rfl⟩, shown_code hm]

theorem shown_paint (st : Style) (h : '\x1b' ∉ s.toList) (ds : List Char) :
    shown false ((st.paint s).toList ++ ds) = s.toList ++ shown false ds := by
  unfold paint
  split
  · exact shown_append h ds
  · rw [String.toList_ofList, List.append_assoc, List.append_assoc, shown_sequence,
      shown_append h, shown_sequence]

end Style

namespace Skin

open Style

/-- All skins show the same. -/
theorem strip_renderEntry (k : Skin) {prompt : String} {e : Entry}
    (hprompt : '\x1b' ∉ prompt.toList) (htext : '\x1b' ∉ e.text.toList) :
    strip (k.renderEntry prompt e) = Skin.plain.renderEntry prompt e := by
  have hshown := shown_paint (k.entryStyle e.kind) htext []
  rw [List.append_nil, shown, List.append_nil] at hshown
  obtain ⟨kind, text⟩ := e
  cases kind with
  | input =>
      show String.ofList (shown false (k.promptStyle.paint prompt ++
        (k.entryStyle .input).paint text).toList) = prompt ++ text
      rw [String.toList_append, shown_paint _ hprompt, hshown, ← String.toList_append,
        String.ofList_toList]
  | output | error => exact (congrArg String.ofList hshown).trans String.ofList_toList

end Skin

end LineShell
