import LineShell.Decimal.Numeral

/-!
# Numbers

Whole numbers have 64 bits. Their arithmetic is done on mathematical integers and checked: a result
that does not fit is no whole number. Floats are doubles; their remainder is exact.
-/

namespace LineShell.Number

/-- The 64-bit integer with the given value, if it fits. -/
def ofInt? (n : Int) : Option Int64 :=
  if Int64.minValue.toInt ≤ n ∧ n ≤ Int64.maxValue.toInt then some (Int64.ofInt n) else none

theorem ofInt?_eq_some_iff {n : Int} {i : Int64} : ofInt? n = some i ↔ i.toInt = n := by
  unfold ofInt?
  constructor
  · intro h
    split at h
    · rename_i hn
      obtain rfl := Option.some.inj h
      exact Int64.toInt_ofInt_of_le hn.1 (Int.lt_add_one_of_le hn.2)
    · simp at h
  · rintro rfl
    rw [if_pos ⟨Int64.le_toInt i, Int.le_of_lt_add_one (Int64.toInt_lt i)⟩, Int64.ofInt_toInt]

theorem ofInt?_eq_none_iff {n : Int} : 
    ofInt? n = none ↔ n < Int64.minValue.toInt ∨ Int64.maxValue.toInt < n := by
  unfold ofInt?
  split
  · simp only [reduceCtorEq, false_iff]
    omega
  · simp only [true_iff]
    omega

@[simp] theorem ofInt?_toInt (i : Int64) : ofInt? i.toInt = some i :=
  ofInt?_eq_some_iff.2 rfl

/-- A checked operation on whole numbers. -/
def lift₂ (f : Int → Int → Int) (a b : Int64) : Option Int64 :=
  ofInt? (f a.toInt b.toInt)

/-- The remainder of a division rounded toward zero. The least integer has no remainder by minus
one, because the quotient does not fit. -/
def remainder? (a b : Int64) : Option Int64 :=
  match ofInt? (a.toInt.tdiv b.toInt) with
  | some _ => ofInt? (a.toInt.tmod b.toInt)
  | none => none

/-- The nearest double. -/
def toFloat (n : Int64) : Float := Decimal.floatOfInt n.toInt

/-- The whole number `n` with a sign. -/
def withSign (s : Float.Model.UnpackedFloat.Sign) (n : Nat) : Int :=
  match s with
  | .positive => n
  | .negative => -n

/-- The remainder of the division of two doubles rounded toward zero. It has the sign of the
dividend and is exact: over the smaller of the two exponents it is a remainder of whole numbers. -/
def floatRemainder (x y : Float) : Float :=
  match x.toModel.unpack, y.toModel.unpack with
  | .notANumber, _ => x
  | _, .notANumber => y
  | .infinity _, _ => 0.0 / 0.0
  | _, .zero _ => 0.0 / 0.0
  | .zero _, _ => x
  | _, .infinity _ => x
  | .finite s m e _, .finite _ n f _ =>
    let g := min e f
    let r := (m <<< (e - g).toNat) % (n <<< (f - g).toNat)
    Float.ofModel (.pack (.normalize .binary64 (withSign s r) g s))

end LineShell.Number
