import LineShell.Json
import LineShell.Json.Reader
import LineShell.Value

/-!
# Values as JSON

Values are written as the JSON values of their kind. Read back, a numeral without point and
exponent is an integer if it fits, and any other numeral is a float.

Floats are read by a quick rule, not to the nearest double: the digits make a significand of 64
bits, digits for which it has no room are dropped, and the power of ten is then multiplied in or
divided out as a double.
-/

namespace LineShell.Json.Numeral

/-- The greatest significand. -/
def maxSignificand : Nat := UInt64.size - 1

/-- The greatest number in an exponent. -/
def maxExponent : Nat := Int32.maxValue.toNatClampNeg

/-- Appends digits to a significand while there is room, and gives back those that are left. -/
def accumulate (limit : Nat) (n : Nat) : List Char → Nat × List Char
  | [] => (n, [])
  | d :: ds =>
    let n' := n * 10 + (d.toNat - '0'.toNat)
    if n' ≤ limit then accumulate limit n' ds else (n, d :: ds)

/-- A power of ten, to the nearest double. -/
def powerOfTen (n : Nat) : Float := Float.ofScientific 1 false n

/-- The number `f` times ten to the `n`, unless that is too large. -/
def scaleUp? (f : Float) (n : Nat) : Option Float :=
  if n ≤ 308 then
    let g := f * powerOfTen n
    if g.isInf then none else some g
  else if f == 0.0 then some f
  else none

/-- The number `f` divided by ten to the `n`, in steps of at most 308. -/
def scaleDown (f : Float) (n : Nat) : Float :=
  if n ≤ 308 then f / powerOfTen n
  else if f == 0.0 then f
  else scaleDown (f / powerOfTen 308) (n - 308)
termination_by n

/-- The float with the given significand and exponent, unless it is too large. -/
def scaled? (significand : Nat) (exponent : Int) : Option Float :=
  let f := Decimal.floatOfInt significand
  if 0 ≤ exponent then scaleUp? f exponent.toNat else some (scaleDown f (-exponent).toNat)

/-- The size of a numeral as a float, unless it is too large. -/
def size? (n : Numeral) : Option Float :=
  let (s, left) := accumulate maxSignificand 0 n.whole
  let (s, left') := accumulate maxSignificand s n.fraction
  let exponent : Int := left.length - (n.fraction.length - left'.length : Nat)
  match n.exponent with
  | none => scaled? s exponent
  | some (negative, ds) =>
    match accumulate maxExponent 0 ds with
    | (x, []) => scaled? s (if negative then exponent - x else exponent + x)
    | (_, _ :: _) => if s = 0 ∨ negative then some 0.0 else none

/-- The numeral as a float. -/
def float? (n : Numeral) : Option Float :=
  n.size?.map fun x => if n.negative then -x else x

/-- The numeral as a value. Minus zero is a float. -/
def value? (n : Numeral) : Option Value :=
  let i : Int := Decimal.ofDigits n.whole
  let i := if n.negative then -i else i
  if n.fraction = [] ∧ n.exponent = none ∧ ¬(n.negative ∧ i = 0) then
    match Number.ofInt? i with
    | some i => some (.integer i)
    | none => n.float?.map .float
  else n.float?.map .float

end LineShell.Json.Numeral

namespace LineShell.Value

/-- The JSON value of the same kind. -/
def toJson : Value → Json
  | .text s => .text s
  | .integer n => .integer n.toInt
  | .float x => .float x
  | .boolean b => .boolean b

/-- The value that a JSON value stands for. Nothing stands for null, arrays and objects. -/
def ofRaw? : Json.Raw → Option Value
  | .text ps => (Json.Piece.text? ps).map .text
  | .numeral n => n.value?
  | .boolean b => some (.boolean b)
  | .null | .array _ | .object _ => none

/-- The value of a JSON text. -/
def ofJson? (s : String) : Option Value :=
  (Json.Raw.ofChars? s.toList).bind ofRaw?

end LineShell.Value
