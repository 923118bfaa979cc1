/-!
# Blank characters and trimming

The white space of the Unicode standard, and the text that is left when it is taken off both ends.
Main statements: trimming a second time changes nothing, and trimmed text neither starts nor ends
with a blank.
-/

namespace LineShell.Text

/-- The characters with the property White_Space. -/
def isBlank (c : Char) : Bool :=
  let n := c.toNat
  (9 ≤ n && n ≤ 13) || n == 0x20 || n == 0x85 || n == 0xA0 || n == 0x1680
    || (0x2000 ≤ n && n ≤ 0x200A) || n == 0x2028 || n == 0x2029 || n == 0x202F
    || n == 0x205F || n == 0x3000

/-- Drops blanks at the end. -/
def trimEnd (cs : List Char) : List Char :=
  (cs.reverse.dropWhile isBlank).reverse

/-- Drops blanks at both ends. -/
def trimChars (cs : List Char) : List Char :=
  trimEnd (cs.dropWhile isBlank)

/-- The text without the blanks at both ends. -/
def trim (s : String) : String :=
  String.ofList (trimChars s.toList)

/-- No blank at either end. -/
def Trimmed (cs : List Char) : Prop :=
  (∀ c ∈ cs.head?, isBlank c = false) ∧ (∀ c ∈ cs.getLast?, isBlank c = false)

theorem head?_dropWhile_isBlank (cs : List Char) :
    ∀ c ∈ (cs.dropWhile isBlank).head?, isBlank c = false := by
  intro c hc
  have := List.head?_dropWhile_not isBlank cs
  simp_all

theorem dropWhile_eq_self {cs : List Char} (h : ∀ c ∈ cs.head?, isBlank c = false) :
    cs.dropWhile isBlank = cs := by
  cases cs with
  | nil => rfl
  | cons c cs => simp [List.dropWhile, h c (by simp)]

theorem trimEnd_eq_self {cs : List Char} (h : ∀ c ∈ cs.getLast?, isBlank c = false) :
    trimEnd cs = cs := by
  unfold trimEnd
  rw [dropWhile_eq_self (by simpa using h), List.reverse_reverse]

theorem trimChars_eq_self {cs : List Char} (h : Trimmed cs) : trimChars cs = cs := by
  unfold trimChars
  rw [dropWhile_eq_self h.1, trimEnd_eq_self h.2]

/-- What the end loses is blank. -/
theorem exists_append_trimEnd (cs : List Char) :
    ∃ bs, cs = trimEnd cs ++ bs ∧ ∀ b ∈ bs, isBlank b := by
  refine ⟨(cs.reverse.takeWhile isBlank).reverse, ?_, ?_⟩
  · rw [trimEnd, ← List.reverse_append, List.takeWhile_append_dropWhile, List.reverse_reverse]
  · intro b hb
    exact List.all_eq_true.1 List.all_takeWhile b (List.mem_reverse.1 hb)

theorem trimmed_trimChars (cs : List Char) : Trimmed (trimChars cs) := by
  constructor
  · intro c hc
    obtain ⟨bs, hbs, -⟩ := exists_append_trimEnd (cs.dropWhile isBlank)
    refine head?_dropWhile_isBlank cs c ?_
    rw [hbs]
    unfold trimChars at hc
    cases h : trimEnd (cs.dropWhile isBlank) with
    | nil => simp [h] at hc
    | cons d ds => simpa [h] using hc
  · intro c hc
    refine head?_dropWhile_isBlank (cs.dropWhile isBlank).reverse c ?_
    simpa [trimChars, trimEnd] using hc

@[simp] theorem trimChars_trimChars (cs : List Char) : trimChars (trimChars cs) = trimChars cs :=
  trimChars_eq_self (trimmed_trimChars cs)

@[simp] theorem trim_trim (s : String) : trim (trim s) = trim s := by
  simp [trim]

end LineShell.Text
