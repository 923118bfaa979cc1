import LineShell.Decimal.Numeral

/-!
# The shortest decimal of a binary number

A double is the nearest double to many decimals. This module finds, among those with the fewest
digits, the one nearest to it. The value is held as a fraction, together with the ends of the
interval of numbers that round to it; for one digit, two digits and so on, the two neighbours of
the value on the decimal grid with so many digits are tried, all in exact arithmetic.
-/

namespace LineShell.Decimal

/-- Which of two equally near decimals to take. -/
inductive Tie
  | up
  | even
deriving DecidableEq, Repr

/-- A positive decimal: the numeral of `coefficient` times ten to the power `scale`. -/
structure Scientific where
  coefficient : Nat
  scale : Int
deriving DecidableEq, Repr

namespace Scientific

/-- Moves zeros at the end of the coefficient into the scale. -/
def normalize (x : Scientific) : Scientific :=
  if h : 0 < x.coefficient ∧ x.coefficient % 10 = 0 then
    normalize ⟨x.coefficient / 10, x.scale + 1⟩
  else x
termination_by x.coefficient
decreasing_by exact Nat.div_lt_self h.1 (by decide)

/-- The exponent of the first digit: the number lies between ten to this power and the next. -/
def exponent (x : Scientific) : Int :=
  x.scale + (digits x.coefficient).length - 1

end Scientific

/-- A positive number and the ends of the interval that rounds to it, as fractions over one
denominator. The ends belong to the interval if it is `closed`. -/
structure Interval where
  below : Nat
  value : Nat
  above : Nat
  denominator : Nat
  closed : Bool
deriving Repr

namespace Interval

/-- The interval around `m · 2^q`. The neighbour below is only half as far away as the one above
where `m` is the least significand of its binade and a smaller exponent exists (`narrow`). An even
significand wins the ties, so its interval holds its ends. -/
def ofBinary (m : Nat) (q : Int) (narrow : Bool) : Interval :=
  let down := if narrow then 1 else 2
  let up := 1 <<< (q - 2).toNat
  { below := (4 * m - down) * up
    value := 4 * m * up
    above := (4 * m + 2) * up
    denominator := 1 <<< (2 - q).toNat
    closed := m % 2 == 0 }

/-- The interval in units of ten to the power `p`. -/
def inUnits (i : Interval) (p : Int) : Interval :=
  let up := Nat.pow 10 (-p).toNat
  { below := i.below * up
    value := i.value * up
    above := i.above * up
    denominator := i.denominator * Nat.pow 10 p.toNat
    closed := i.closed }

/-- Whether the whole number `c` lies in the interval. -/
def holds (i : Interval) (c : Nat) : Bool :=
  let n := c * i.denominator
  if i.closed then i.below ≤ n && n ≤ i.above else i.below < n && n < i.above

/-- The exponent of the first decimal digit of the value. -/
def exponent (i : Interval) : Int :=
  if i.denominator ≤ i.value then
    (digits (i.value / i.denominator)).length - 1
  else
    -((digits ((i.denominator - 1) / i.value)).length : Int)

/-- The whole number in the interval that is nearest to the value, if one of the value's two
neighbours is in it. -/
def nearest? (tie : Tie) (i : Interval) : Option Nat :=
  let lower := i.value / i.denominator
  let rest := i.value % i.denominator
  match i.holds lower, i.holds (lower + 1) with
  | true, true =>
    if 2 * rest < i.denominator then some lower
    else if i.denominator < 2 * rest then some (lower + 1)
    else
      match tie with
      | .up => some (lower + 1)
      | .even => some (if lower % 2 = 0 then lower else lower + 1)
  | true, false => some lower
  | false, true => some (lower + 1)
  | false, false => none

/-- The nearest decimal with `n + 1` digits, if it lies in the interval. -/
def withDigits? (tie : Tie) (i : Interval) (n : Nat) : Option Scientific :=
  let scale := i.exponent - n
  ((i.inUnits scale).nearest? tie).map fun c => ⟨c, scale⟩

/-- The nearest decimal of the interval among those with the fewest digits. Seventeen digits are
always enough for a double. -/
def shortest (tie : Tie) (i : Interval) : Scientific :=
  match (List.range 17).findSome? (i.withDigits? tie) with
  | some x => x.normalize
  | none => ⟨i.value / i.denominator, 0⟩

end Interval

/-- The shortest decimal of the double `m · 2^q`, nearest among the shortest. -/
def shortest (tie : Tie) (m : Nat) (q : Int) : Scientific :=
  (Interval.ofBinary m q (m == 1 <<< 52 && -1074 < q)).shortest tie

end LineShell.Decimal
