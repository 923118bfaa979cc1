import LineShell.Assignment
import LineShell.Proofs.Expr.Words
import LineShell.Proofs.Text.Runs
import LineShell.Proofs.Text.Trimming

/-!
# Lines that assign

When a line is cut into a name and a text: a word alone is not, nor is what does not begin with a
word, and a name, an equals sign and a trimmed text are, if the text has no line feed in it. No text
that is assigned has one, for of the text behind the equals sign only the first character may be a
line feed, and there it is trimmed away.
-/

namespace LineShell

variable {c : Char} {cs line name rest : List Char}

theorem splitAssignment?_of_isWord (h : isWord cs = true) : splitAssignment? cs = none := by
  have hall := isWordChar_of_mem h
  have htake : cs.takeWhile isWordChar = cs := List.takeWhile_eq_self_iff.mpr hall
  have hdrop : cs.dropWhile isWordChar = [] := List.dropWhile_eq_nil_iff.mpr hall
  rw [splitAssignment?, htake, hdrop, if_pos h]
  rfl

theorem assignment?_of_isWord {line : String} (h : isWord line.toList = true) :
    assignment? line = none := by
  rw [assignment?, splitAssignment?_of_isWord h]
  rfl

theorem splitAssignment?_cons_of_not (h : isWordStart c = false) (cs : List Char) :
    splitAssignment? (c :: cs) = none := by
  have hword : isWord ((c :: cs).takeWhile isWordChar) = false := by
    rw [List.takeWhile_cons]
    split
    · rw [isWord, h, Bool.false_and]
    · rfl
  rw [splitAssignment?, hword]
  rfl

theorem splitAssignment?_spelled (hname : isWord name = true) (htrimmed : Text.Trimmed rest)
    (hne : rest ≠ []) (hfeed : '\n' ∉ rest) :
    splitAssignment? (name ++ ' ' :: '=' :: ' ' :: rest) = some (name, rest) := by
  have hall := isWordChar_of_mem hname
  have hstop : isWordChar ' ' = false := by decide
  have htrim : Text.trimChars (' ' :: rest) = rest := by
    rw [Text.trimChars_cons_of_blank (by decide), Text.trimChars_eq_self htrimmed]
  have htext : assignedText? (' ' :: rest) = some rest := by
    have hok : ¬ (' ' = '=' ∨ '\n' ∈ rest) := not_or.mpr ⟨by decide, hfeed⟩
    rw [assignedText?, if_neg hok, htrim]
    cases rest with
    | nil => exact absurd rfl hne
    | cons d ds => rfl
  rw [splitAssignment?, Text.takeWhile_run_cons hall hstop, Text.dropWhile_run_cons hall hstop,
    if_pos hname]
  show (assignedText? (' ' :: rest)).map _ = _
  rw [htext]
  rfl

theorem feed_notMem_of_assignedText? (h : assignedText? cs = some rest) : '\n' ∉ rest := by
  obtain ⟨rfl, -⟩ := assignedText?_eq_some h
  cases cs with
  | nil => cases h
  | cons c cs =>
      have hok : ¬ (c = '=' ∨ '\n' ∈ cs) := by
        intro hor
        rw [assignedText?, if_pos hor] at h
        cases h
      obtain ⟨-, hcs⟩ := not_or.mp hok
      intro hmem
      by_cases hc : c = '\n'
      · -- The line feed is blank, so all that is left was behind it.
        rw [hc, Text.trimChars_cons_of_blank (by decide)] at hmem
        exact hcs (Text.mem_of_mem_trimChars hmem)
      · rcases List.mem_cons.mp (Text.mem_of_mem_trimChars hmem) with h | h
        · exact hc h.symm
        · exact hcs h

theorem feed_notMem_of_splitAssignment? (h : splitAssignment? line = some (name, rest)) :
    '\n' ∉ rest := by
  unfold splitAssignment? at h
  dsimp only at h
  split at h
  · split at h
    · obtain ⟨r, hr, heq⟩ := Option.map_eq_some_iff.mp h
      obtain ⟨-, rfl⟩ := Prod.mk.inj heq
      exact feed_notMem_of_assignedText? hr
    · cases h
  · cases h

end LineShell
