import Mathlib.Data.List.TakeWhile

/-!
# Runs at the head of a text

A run of characters of one class is cut off a text where a character of another class, or nothing,
follows.
-/

namespace LineShell.Text

variable {p : Char → Bool} {c d : Char} {cs rest : List Char}

/-- Characters that a class tells apart. -/
theorem ne_of_class (hc : p c = true) (hd : p d = false) : c ≠ d := by
  rintro rfl
  rw [hc] at hd
  cases hd

theorem takeWhile_run_cons (h : ∀ c ∈ cs, p c = true) (hd : p d = false) (rest : List Char) :
    (cs ++ d :: rest).takeWhile p = cs := by
  rw [List.takeWhile_append_of_pos h, List.takeWhile_cons_of_neg (by simp [hd]), List.append_nil]

theorem dropWhile_run_cons (h : ∀ c ∈ cs, p c = true) (hd : p d = false) (rest : List Char) :
    (cs ++ d :: rest).dropWhile p = d :: rest := by
  rw [List.dropWhile_append_of_pos h, List.dropWhile_cons_of_neg (by simp [hd])]

theorem takeWhile_run (h : ∀ c ∈ cs, p c = true) (hrest : ∀ c ∈ rest.head?, p c = false) :
    (cs ++ rest).takeWhile p = cs := by
  cases rest with
  | nil => rw [List.append_nil, List.takeWhile_eq_self_iff.mpr h]
  | cons d rest => exact takeWhile_run_cons h (hrest d rfl) rest

theorem dropWhile_run (h : ∀ c ∈ cs, p c = true) (hrest : ∀ c ∈ rest.head?, p c = false) :
    (cs ++ rest).dropWhile p = rest := by
  cases rest with
  | nil => rw [List.append_nil, List.dropWhile_eq_nil_iff.mpr h]
  | cons d rest => exact dropWhile_run_cons h (hrest d rfl) rest

end LineShell.Text
