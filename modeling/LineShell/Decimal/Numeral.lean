/-!
# Decimal numerals

Numerals as lists of digit characters, the numbers they stand for, and the double nearest to a
numeral with a point in it. Main statement: the numeral of a number stands for that number.
-/

namespace LineShell.Decimal

/-- The number a digit stands for. -/
def digitValue (c : Char) : Nat := c.toNat - 48

/-- The number a numeral stands for, its digits read from the left. -/
def ofDigits (cs : List Char) : Nat :=
  cs.foldl (fun n c => n * 10 + digitValue c) 0

/-- The numeral of a number. -/
def digits (n : Nat) : List Char := Nat.toDigits 10 n

/-- The text of an integer: its digits, behind a minus sign if it is negative. -/
def signedDigits (n : Int) : List Char :=
  if n < 0 then '-' :: digits n.natAbs else digits n.natAbs

/-- A nonempty run of digits. -/
def IsNumeral (cs : List Char) : Bool :=
  !cs.isEmpty && cs.all Char.isDigit

/-- The double nearest to the numeral `whole`, a point, and the digits `fraction`. -/
def toFloat (whole fraction : List Char) : Float :=
  Float.ofScientific (ofDigits (whole ++ fraction)) true fraction.length

/-- The double nearest to an integer. -/
def floatOfInt (n : Int) : Float := Float.ofInt n

theorem ofDigits_concat (cs : List Char) (c : Char) :
    ofDigits (cs ++ [c]) = ofDigits cs * 10 + digitValue c := by
  simp [ofDigits]

theorem digitValue_digitChar {d : Nat} (h : d < 10) : digitValue (Nat.digitChar d) = d := by
  have : ∀ d : Fin 10, digitValue (Nat.digitChar d) = d := by decide
  exact this ⟨d, h⟩

theorem ofDigits_digits (n : Nat) : ofDigits (digits n) = n := by
  induction n using Nat.strongRecOn with
  | _ n ih =>
    by_cases h : n < 10
    · simp [digits, Nat.toDigits_of_lt_base h, ofDigits, digitValue_digitChar h]
    · have hlt : n / 10 < n := by omega
      have h10 : n % 10 < 10 := Nat.mod_lt _ (by decide)
      have := ih _ hlt
      rw [digits] at this ⊢
      rw [Nat.toDigits_of_base_le (by decide) (by omega), ofDigits_concat, this,
        digitValue_digitChar h10]
      omega

theorem isDigit_of_mem_digits {n : Nat} {c : Char} (h : c ∈ digits n) : c.isDigit :=
  Nat.isDigit_of_mem_toDigits (by decide) (by decide) h

theorem digits_ne_nil (n : Nat) : digits n ≠ [] := Nat.toDigits_ne_nil

theorem isNumeral_digits (n : Nat) : IsNumeral (digits n) := by
  simp [IsNumeral, digits_ne_nil, List.all_eq_true]
  exact fun c hc => isDigit_of_mem_digits hc

end LineShell.Decimal
