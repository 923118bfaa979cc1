import LineShell.Decimal.Shortest

/-!
# Styles of float text

A float is written with the fewest digits that read back, in the style of the place where it
appears. A style is one record; `Style.render` writes a float in it.
-/

namespace LineShell.Decimal

/-- How floats are written. -/
structure Style where
  /-- Which of two equally near decimals is written. -/
  tie : Tie
  /-- The least exponent of the first digit that is written without an exponent. -/
  leastPlain : Int
  /-- The greatest exponent of the first digit that is written without an exponent. -/
  greatestPlain : Int
  /-- Whole numbers without an exponent keep a point and a zero, and zero keeps its sign. -/
  pointed : Bool
  /-- Exponents from zero on carry a plus sign. -/
  signedExponent : Bool
  /-- The text of what is no number. -/
  nan : String
  /-- The text of infinity. -/
  infinity : String
  /-- The text of negative infinity. -/
  negativeInfinity : String

namespace Style

/-- The digits `cs` with the point after the first `n` of them, filled up with zeros where there
are too few. -/
def placePoint (pointed : Bool) (cs : List Char) (n : Nat) : List Char :=
  let whole := cs.take n ++ List.replicate (n - cs.length) '0'
  let fraction := cs.drop n
  if fraction.isEmpty then (if pointed then whole ++ ['.', '0'] else whole)
  else whole ++ '.' :: fraction

/-- A positive decimal without an exponent. -/
def plain (st : Style) (x : Scientific) : List Char :=
  let cs := digits x.coefficient
  if x.exponent < 0 then
    '0' :: '.' :: (List.replicate (-x.exponent - 1).toNat '0' ++ cs)
  else placePoint st.pointed cs (x.exponent + 1).toNat

/-- A positive decimal with an exponent. -/
def scientific (st : Style) (x : Scientific) : List Char :=
  let sign := if st.signedExponent && 0 ≤ x.exponent then ['+'] else []
  placePoint false (digits x.coefficient) 1 ++ 'e' :: (sign ++ signedDigits x.exponent)

/-- A positive decimal. -/
def positive (st : Style) (x : Scientific) : List Char :=
  if st.leastPlain ≤ x.exponent ∧ x.exponent ≤ st.greatestPlain then st.plain x
  else st.scientific x

/-- The text of a zero. -/
def zero (st : Style) (negative : Bool) : List Char :=
  if st.pointed then (if negative then ['-', '0', '.', '0'] else ['0', '.', '0']) else ['0']

/-- The text of a float. -/
def chars (st : Style) (x : Float) : List Char :=
  match x.toModel.unpack with
  | .notANumber => st.nan.toList
  | .infinity .positive => st.infinity.toList
  | .infinity .negative => st.negativeInfinity.toList
  | .zero .positive => st.zero false
  | .zero .negative => st.zero true
  | .finite .positive m q _ => st.positive (shortest st.tie m q)
  | .finite .negative m q _ => '-' :: st.positive (shortest st.tie m q)

/-- The text of a float. -/
def render (st : Style) (x : Float) : String := String.ofList (st.chars x)

end Style

/-- Floats as results and values: whole numbers drop the point, and magnitudes from 1e+21 on and
below 1e-6 have an exponent. -/
def displayed : Style :=
  { tie := .up, leastPlain := -6, greatestPlain := 20, pointed := false, signedExponent := true
    nan := "NaN", infinity := "Infinity", negativeInfinity := "-Infinity" }

/-- Floats as pieces of the input in messages: whole numbers keep the point, and magnitudes from
1e16 on and below 1e-4 have an exponent. -/
def quoted : Style :=
  { tie := .up, leastPlain := -4, greatestPlain := 15, pointed := true, signedExponent := false
    nan := "NaN", infinity := "inf", negativeInfinity := "-inf" }

/-- Floats in JSON, which has no text for what is not finite. -/
def interchanged : Style :=
  { tie := .even, leastPlain := -5, greatestPlain := 15, pointed := true, signedExponent := true
    nan := "null", infinity := "null", negativeInfinity := "null" }

end LineShell.Decimal
