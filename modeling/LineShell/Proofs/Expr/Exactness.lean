import LineShell.Proofs.Expr.Arithmetic

/-!
# Exact whole numbers

An expression of whole numbers is made of integers and booleans with signs, sums, differences and
products. Its exact value is a mathematical integer (`Expr.exactValue?`), and so is that of each of
its parts. If all of these fit into 64 bits, the expression comes to its exact value. If one does
not fit, that part is a float, and so is everything that is made of it: no operator makes a whole
number of a float. The invariant of the induction says both at once (`exists_eval_whole`).
-/

namespace LineShell

namespace Number

/-- The number fits into 64 bits. -/
def Fits (n : Int) : Prop := Int64.minValue.toInt ≤ n ∧ n ≤ Int64.maxValue.toInt

instance (n : Int) : Decidable (Fits n) := inferInstanceAs (Decidable (_ ∧ _))

theorem fits_iff_exists {n : Int} : Fits n ↔ ∃ i : Int64, i.toInt = n := by
  constructor
  · intro h
    refine ⟨Int64.ofInt n, ?_⟩
    rw [← ofInt?_eq_some_iff, ofInt?]
    exact if_pos h
  · rintro ⟨i, rfl⟩
    exact ⟨Int64.le_toInt i, Int.le_of_lt_add_one (Int64.toInt_lt i)⟩

end Number

open Number

/-! ## One operator -/

namespace Value

variable {v : Value} {n : Int}

theorem exists_integer? (h : v.kind = .integer ∨ v.kind = .boolean) :
    v.kind ≠ .text ∧ ∃ i, v.integer? = some i := by
  cases v with
  | integer n | boolean b => exact ⟨nofun, _, rfl⟩
  | text s | float x => rcases h with h | h <;> cases h

/-- The value of an expression of whole numbers with the exact value `n`: that number if all parts
fit, and else a float. -/
structure Reckons (v : Value) (n : Int) (fit : Prop) : Prop where
  numeric : v.kind ≠ .text
  integer?_eq_some_iff (i : Int64) : v.integer? = some i ↔ i.toInt = n ∧ fit

theorem Reckons.of_integer? {i : Int64} {fit : Prop} (htext : v.kind ≠ .text)
    (hi : v.integer? = some i) (hfit : fit) : Reckons v i.toInt fit := by
  refine ⟨htext, fun j => ?_⟩
  rw [hi, Option.some_inj, and_iff_left hfit, Int64.toInt_inj, eq_comm]

theorem Reckons.sign {op : UnaryOp} {f : Int → Int} {fit : Prop} (h : Reckons v n fit)
    (hfit : fit → Fits n) (hop : op.sign? = some f) :
    ∃ w, op.apply v = .ok w ∧ Reckons w (f n) (fit ∧ Fits (f n)) := by
  obtain ⟨x, hx⟩ := UnaryOp.exists_apply_of_sign? hop h.numeric
  refine ⟨_, hx, kind_ofWhole _ _, fun i => ?_⟩
  rw [integer?_ofWhole, Option.bind_eq_some_iff]
  constructor
  · rintro ⟨a, ha, hi⟩
    obtain ⟨rfl, hfits⟩ := (h.integer?_eq_some_iff a).mp ha
    have hi := ofInt?_eq_some_iff.mp hi
    exact ⟨hi, hfits, fits_iff_exists.mpr ⟨i, hi⟩⟩
  · rintro ⟨hi, hfits, -⟩
    obtain ⟨a, rfl⟩ := fits_iff_exists.mp (hfit hfits)
    exact ⟨a, (h.integer?_eq_some_iff a).mpr ⟨rfl, hfits⟩, ofInt?_eq_some_iff.mpr hi⟩

theorem Reckons.operation {op : BinaryOp} {f : Int → Int → Int} {w : Value} {m : Int}
    {fit fit' : Prop} (hv : Reckons v n fit) (hw : Reckons w m fit') (hfit : fit → Fits n)
    (hfit' : fit' → Fits m) (hop : op.operation? = some f) :
    ∃ u, op.apply v w = .ok u ∧ Reckons u (f n m) (fit ∧ fit' ∧ Fits (f n m)) := by
  obtain ⟨x, hx⟩ := BinaryOp.exists_apply_of_operation? hop hv.numeric hw.numeric
  refine ⟨_, hx, kind_ofWhole _ _, fun i => ?_⟩
  rw [integer?_ofWhole, wholeResult?_eq_some_iff]
  constructor
  · rintro ⟨a, b, ha, hb, hi⟩
    obtain ⟨rfl, hfits⟩ := (hv.integer?_eq_some_iff a).mp ha
    obtain ⟨rfl, hfits'⟩ := (hw.integer?_eq_some_iff b).mp hb
    have hi := ofInt?_eq_some_iff.mp hi
    exact ⟨hi, hfits, hfits', fits_iff_exists.mpr ⟨i, hi⟩⟩
  · -- A result that fits is not enough: the operands are whole because their parts fit.
    rintro ⟨hi, hfits, hfits', -⟩
    obtain ⟨a, rfl⟩ := fits_iff_exists.mp (hfit hfits)
    obtain ⟨b, rfl⟩ := fits_iff_exists.mp (hfit' hfits')
    exact ⟨a, b, (hv.integer?_eq_some_iff a).mpr ⟨rfl, hfits⟩,
      (hw.integer?_eq_some_iff b).mpr ⟨rfl, hfits'⟩, ofInt?_eq_some_iff.mpr hi⟩

end Value

/-! ## Exact values -/

namespace Expr

variable {vars : Variables} {e l r : Expr} {op : BinaryOp} {n : Int}

/-- What stands at the root belongs to an expression of whole numbers. -/
def IsWhole (vars : Variables) : Expr → Prop
  | .literal v => v.kind = .integer ∨ v.kind = .boolean
  | .variable w => ∃ v, vars.get? w = some v ∧ (v.kind = .integer ∨ v.kind = .boolean)
  | .unary op _ => op = .neg ∨ op = .plus
  | .binary op _ _ => op = .add ∨ op = .sub ∨ op = .mul
  | .compare _ _ | .and _ _ | .or _ _ => False

/-- The exact value of an expression of whole numbers. -/
def exactValue? (vars : Variables) : Expr → Option Int
  | .literal v => do return (← v.integer?).toInt
  | .variable w => do return (← (← vars.get? w).integer?).toInt
  | .unary op e => do return (← op.sign?) (← e.exactValue? vars)
  | .binary op l r => do return (← op.operation?) (← l.exactValue? vars) (← r.exactValue? vars)
  | .compare _ _ | .and _ _ | .or _ _ => none

/-- The exact values of all parts fit into 64 bits. -/
def PartsFit (vars : Variables) (e : Expr) : Prop :=
  ∀ s, e.HasPart s → ∃ k, s.exactValue? vars = some k ∧ Fits k

theorem PartsFit.fits (h : e.PartsFit vars) (hn : e.exactValue? vars = some n) : Fits n := by
  obtain ⟨k, hk, hfits⟩ := h e (.self e)
  rw [← Option.some.inj (hk.symm.trans hn)]
  exact hfits

theorem partsFit_leaf (hleaf : ∀ s, e.HasPart s → s = e) (hn : e.exactValue? vars = some n)
    (h : Fits n) : e.PartsFit vars := by
  intro s hs
  rw [hleaf s hs]
  exact ⟨n, hn, h⟩

theorem partsFit_unary {op : UnaryOp} (hn : (unary op e).exactValue? vars = some n) :
    (unary op e).PartsFit vars ↔ e.PartsFit vars ∧ Fits n := by
  refine ⟨fun h => ⟨fun s hs => h s (.unary hs), h.fits hn⟩, fun ⟨he, h⟩ s hs => ?_⟩
  cases hs with
  | self => exact ⟨n, hn, h⟩
  | unary hs => exact he s hs

theorem partsFit_binary (hn : (binary op l r).exactValue? vars = some n) :
    (binary op l r).PartsFit vars ↔ l.PartsFit vars ∧ r.PartsFit vars ∧ Fits n := by
  constructor
  · exact fun h => ⟨fun s hs => h s (.binaryLeft hs), fun s hs => h s (.binaryRight hs), h.fits hn⟩
  · rintro ⟨hl, hr, h⟩ s hs
    cases hs with
    | self => exact ⟨n, hn, h⟩
    | binaryLeft hs => exact hl s hs
    | binaryRight hs => exact hr s hs

/-! ## Whole expressions -/

theorem exists_eval_whole (h : ∀ s, e.HasPart s → s.IsWhole vars) :
    ∃ n v, e.exactValue? vars = some n ∧ e.eval vars = .ok v ∧ v.Reckons n (e.PartsFit vars) := by
  induction e using Expr.induction with
  | literal v =>
      obtain ⟨htext, i, hi⟩ := Value.exists_integer? (h _ (.self _))
      have hexact : (literal v).exactValue? vars = some i.toInt := by
        rw [exactValue?, hi]
        rfl
      have heval : (literal v).eval vars = .ok v := by
        rw [eval]
      refine ⟨_, v, hexact, heval, .of_integer? htext hi ?_⟩
      exact partsFit_leaf (fun s hs => by cases hs; rfl) hexact (fits_iff_exists.mpr ⟨i, rfl⟩)
  | name w =>
      obtain ⟨v, hget, hv⟩ := h _ (.self _)
      obtain ⟨htext, i, hi⟩ := Value.exists_integer? hv
      have hexact : (Expr.variable w).exactValue? vars = some i.toInt := by
        rw [exactValue?, hget, Option.bind_eq_bind, Option.bind_some, hi]
        rfl
      have heval : (Expr.variable w).eval vars = .ok v := by
        rw [eval, hget]
      refine ⟨_, v, hexact, heval, .of_integer? htext hi ?_⟩
      exact partsFit_leaf (fun s hs => by cases hs; rfl) hexact (fits_iff_exists.mpr ⟨i, rfl⟩)
  | unary op e ih =>
      obtain ⟨n, v, hn, hv, hr⟩ := ih fun s hs => h s (.unary hs)
      obtain ⟨f, hop⟩ : ∃ f, op.sign? = some f := by
        rcases h _ (.self _) with rfl | rfl
        · exact ⟨_, rfl⟩
        · exact ⟨_, rfl⟩
      obtain ⟨w, hw, hr⟩ := hr.sign (fun hfit => hfit.fits hn) hop
      have hexact : (unary op e).exactValue? vars = some (f n) := by
        rw [exactValue?, hop, hn]
        rfl
      refine ⟨f n, w, hexact, ?_, ?_⟩
      · rw [eval, hv]
        exact hw
      · rw [partsFit_unary hexact]
        exact hr
  | binary op l r ihl ihr =>
      obtain ⟨n, v, hn, hv, hrl⟩ := ihl fun s hs => h s (.binaryLeft hs)
      obtain ⟨m, w, hm, hw, hrr⟩ := ihr fun s hs => h s (.binaryRight hs)
      obtain ⟨f, hop⟩ : ∃ f, op.operation? = some f := by
        rcases h _ (.self _) with rfl | rfl | rfl
        · exact ⟨_, rfl⟩
        · exact ⟨_, rfl⟩
        · exact ⟨_, rfl⟩
      obtain ⟨u, hu, hr⟩ :=
        hrl.operation hrr (fun hfit => hfit.fits hn) (fun hfit => hfit.fits hm) hop
      have hexact : (binary op l r).exactValue? vars = some (f n m) := by
        rw [exactValue?, hop, hn, hm]
        rfl
      refine ⟨f n m, u, hexact, ?_, ?_⟩
      · rw [eval, hv, hw]
        exact hu
      · rw [partsFit_binary hexact]
        exact hr
  | compare | and | or => exact (h _ (.self _)).elim

/-- Arithmetic on whole numbers never wraps. An expression of integers and booleans with signs,
sums, differences and products has an exact value, in which booleans count as one and zero, and it
has a value. If the exact values of all its parts fit into 64 bits, its value stands for its exact
value, and if not, its value is a float. So if its value is an integer, that is its exact value. -/
theorem eval_whole (h : ∀ s, e.HasPart s → s.IsWhole vars) :
    ∃ n v, e.exactValue? vars = some n ∧ e.eval vars = .ok v ∧
      ((∀ s, e.HasPart s → ∃ k, s.exactValue? vars = some k ∧ Fits k) →
        ∃ i, v.integer? = some i ∧ i.toInt = n) ∧
      (¬ (∀ s, e.HasPart s → ∃ k, s.exactValue? vars = some k ∧ Fits k) → ∃ x, v = .float x) ∧
      ∀ i, v = .integer i → i.toInt = n := by
  obtain ⟨n, v, hn, hv, hr⟩ := exists_eval_whole h
  refine ⟨n, v, hn, hv, fun hfit => ?_, fun hfit => ?_, ?_⟩
  · obtain ⟨i, hi⟩ := fits_iff_exists.mp (PartsFit.fits hfit hn)
    exact ⟨i, (hr.integer?_eq_some_iff i).mpr ⟨hi, hfit⟩, hi⟩
  · refine Value.exists_eq_float hr.numeric (Option.eq_none_iff_forall_ne_some.mpr fun i hi => ?_)
    exact hfit ((hr.integer?_eq_some_iff i).mp hi).2
  · rintro i rfl
    exact ((hr.integer?_eq_some_iff i).mp rfl).1

/-- A sum that does not fit stays a float, also if what is taken away from it makes up for it. -/
theorem eval_whole_overflow :
    let vars : Variables := OrderedMap.insert ∅ "b" (.boolean true)
    let e : Expr := .binary .sub
      (.binary .add (.literal (.integer Int64.maxValue)) (.variable "b")) (.literal (.integer 1))
    (∀ s, e.HasPart s → s.IsWhole vars) ∧ e.exactValue? vars = some Int64.maxValue.toInt ∧
      ∃ x, e.eval vars = .ok (.float x) := by
  intro vars e
  have hwhole : ∀ s, e.HasPart s → s.IsWhole vars := by
    intro s hs
    dsimp only [e] at hs
    cases hs with
    | self => exact Or.inr (Or.inl rfl)
    | binaryLeft hs =>
        cases hs with
        | self => exact Or.inl rfl
        | binaryLeft hs =>
            cases hs
            exact Or.inl rfl
        | binaryRight hs =>
            cases hs
            exact ⟨.boolean true, rfl, Or.inr rfl⟩
    | binaryRight hs =>
        cases hs
        exact Or.inl rfl
  obtain ⟨n, v, hn, hv, -, hfloat, -⟩ := eval_whole hwhole
  obtain ⟨x, rfl⟩ := hfloat fun hfit => by
    obtain ⟨k, hk, hfits⟩ := hfit _ (.binaryLeft (.self _))
    obtain rfl : 9223372036854775808 = k := Option.some.inj ((by decide : _ = _).trans hk)
    exact absurd hfits (by decide)
  exact ⟨hwhole, by decide, x, hv⟩

end Expr

end LineShell
