/-!
# Hexadecimal digits

Numbers in hexadecimal, with letters in either case.
-/

namespace LineShell.Text

/-- The value of a hexadecimal digit. -/
def hexDigit? (c : Char) : Option Nat :=
  if '0' ≤ c ∧ c ≤ '9' then some (c.toNat - '0'.toNat)
  else if 'a' ≤ c ∧ c ≤ 'f' then some (c.toNat - 'a'.toNat + 10)
  else if 'A' ≤ c ∧ c ≤ 'F' then some (c.toNat - 'A'.toNat + 10)
  else none

/-- The number that hexadecimal digits behind the number `n` stand for. -/
def hexNumberFrom? (n : Nat) : List Char → Option Nat
  | [] => some n
  | c :: cs => do
    let d ← hexDigit? c
    hexNumberFrom? (n * 16 + d) cs

/-- The number that hexadecimal digits stand for. -/
def hexNumber? (cs : List Char) : Option Nat := hexNumberFrom? 0 cs

end LineShell.Text
