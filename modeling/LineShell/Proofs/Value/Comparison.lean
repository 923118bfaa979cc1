import LineShell.Proofs.Number.Rounding

/-!
# The order of values

Whole numbers are compared exactly, and a whole number and a float as floats. So the comparison
operators are those of an order between any two values that can be compared (`existsUnique_holds`),
but three values can be compared by different rules: two whole numbers that are rounded to one float
equal it both and differ from each other. Nothing else keeps `==` and `<=` from being transitive
(`values_ordered`).

A comparison sees less of a value than its kind (`Comparand`), and all the operators follow from one
order of what it sees (`compares_comparand`). The two rules agree as far as they can: the rank among
the floats never decreases along the order (`key_le`), since rounding keeps the order of whole
numbers. That carries the order from two links to their ends wherever the ends are not both compared
exactly.
-/

namespace LineShell

open Number

/-- What a comparison sees of a value: a boolean is a whole number. -/
inductive Comparand
  | text (s : String)
  | whole (n : Int64)
  | float (x : Float)

namespace Comparand

/-- The rank of a number among the floats. -/
def key : Comparand → ℤ ×ₗ ℤ ×ₗ ℤ
  | .text _ => 0
  | .whole n => rank (toFloat n)
  | .float x => rank x

/-- The order of two comparands. Whole numbers are compared exactly, and all other numbers as
floats. -/
def order? : Comparand → Comparand → Option Ordering
  | .text s, .text t => some (compare s t)
  | .text _, _ | _, .text _ => none
  | .whole m, .whole n => some (compare m.toInt n.toInt)
  | a, b => some (compare a.key b.key)

/-- The first comparand is not above the second. -/
def Le : Comparand → Comparand → Prop
  | .text s, .text t => s ≤ t
  | .text _, _ | _, .text _ => False
  | .whole m, .whole n => m.toInt ≤ n.toInt
  | p, q => p.key ≤ q.key

attribute [local simp] order? Le

variable {p q r : Comparand}

theorem exists_order?_iff : (∃ o, p.order? q = some o ∧ o ≠ .gt) ↔ p.Le q := by
  cases p <;> cases q <;> simp [compare_le_iff_le]

theorem order?_eq_iff : p.order? q = some .eq ↔ p.Le q ∧ q.Le p := by
  cases p <;> cases q <;> simp [compare_eq_iff_eq, le_antisymm_iff]

theorem order?_lt_iff : p.order? q = some .lt ↔ p.Le q ∧ ¬ q.Le p := by
  cases p <;> cases q <;>
    simp only [order?, Le, Option.some.injEq, reduceCtorEq, false_and, compare_lt_iff_lt,
      lt_iff_le_not_ge]

/-- Whole numbers keep their order where they are rounded. -/
theorem Le.key_le (h : p.Le q) : p.key ≤ q.key := by
  cases p with
  | text s =>
      cases q with
      | text t => exact le_refl _
      | _ => exact h.elim
  | whole m =>
      cases q with
      | text t => exact h.elim
      | whole n => exact rank_toFloat_mono h
      | float y => exact h
  | float x =>
      cases q with
      | text t => exact h.elim
      | _ => exact h

theorem Le.exists_text {s : String} (h : p.Le (.text s)) : ∃ t, p = .text t := by
  cases p with
  | text t => exact ⟨t, rfl⟩
  | _ => exact h.elim

/-- The order carries over from two links to their ends, but for two whole numbers with a float
between them. -/
theorem Le.trans (hpq : p.Le q) (hqr : q.Le r) :
    p.Le r ∨ ∃ m x n, p = .whole m ∧ q = .float x ∧ r = .whole n := by
  have hkey : p.key ≤ r.key := hpq.key_le.trans hqr.key_le
  cases p with
  | text s =>
      cases q with
      | text t =>
          cases r with
          | text u => exact .inl (le_trans (α := String) hpq hqr)
          | _ => exact hqr.elim
      | _ => exact hpq.elim
  | whole m =>
      cases r with
      | text u =>
          obtain ⟨t, rfl⟩ := hqr.exists_text
          exact hpq.elim
      | whole n =>
          cases q with
          | text t => exact hpq.elim
          | whole k => exact .inl (le_trans (α := Int) hpq hqr)
          | float y => exact .inr ⟨m, y, n, rfl, rfl, rfl⟩
      | float z => exact .inl hkey
  | float x =>
      cases r with
      | text u =>
          obtain ⟨t, rfl⟩ := hqr.exists_text
          exact hpq.elim
      | _ => exact .inl hkey

/-- Two different whole numbers with a float between them that both are rounded to. -/
def Meet (p q r : Comparand) : Prop :=
  ∃ m x n, p = .whole m ∧ q = .float x ∧ r = .whole n ∧ m ≠ n ∧
    rank (toFloat m) = rank x ∧ rank (toFloat n) = rank x

theorem le_trans_iff :
    (p.Le q → q.Le r → p.Le r) ↔ ¬ (Meet p q r ∧ r.order? p = some .lt) := by
  constructor
  · rintro htrans ⟨⟨m, x, n, rfl, rfl, rfl, -, hm, hn⟩, hlt⟩
    exact (order?_lt_iff.mp hlt).2 (htrans hm.le hn.ge)
  · intro hmeet hpq hqr
    rcases hpq.trans hqr with hpr | ⟨m, x, n, rfl, rfl, rfl⟩
    · exact hpr
    · by_contra hpr
      have hlt : n.toInt < m.toInt := not_le.mp hpr
      have hnm : rank (toFloat n) ≤ rank (toFloat m) := rank_toFloat_mono hlt.le
      refine hmeet ⟨⟨m, x, n, rfl, rfl, rfl, ?_, le_antisymm hpq.key_le (hqr.key_le.trans hnm),
        le_antisymm (hnm.trans hpq.key_le) hqr.key_le⟩, order?_lt_iff.mpr ⟨hlt.le, hpr⟩⟩
      rintro rfl
      exact lt_irrefl _ hlt

/-- Two comparands are equal if each is not above the other, so equality carries over where the
order does. -/
theorem eq_trans_iff :
    (p.order? q = some .eq → q.order? r = some .eq → p.order? r = some .eq) ↔ ¬ Meet p q r := by
  rw [order?_eq_iff, order?_eq_iff, order?_eq_iff]
  constructor
  · rintro htrans ⟨m, x, n, rfl, rfl, rfl, hne, hm, hn⟩
    have hmn := htrans ⟨hm.le, hm.ge⟩ ⟨hn.ge, hn.le⟩
    exact hne (Int64.toInt_inj.mp (le_antisymm hmn.1 hmn.2))
  · rintro hmeet ⟨hpq, hqp⟩ ⟨hqr, hrq⟩
    have hpr := le_trans_iff.mpr (fun h => hmeet h.1) hpq hqr
    refine ⟨hpr, le_trans_iff.mpr ?_ hrq hqp⟩
    rintro ⟨⟨n, x, m, rfl, rfl, rfl, hne, hn, hm⟩, -⟩
    exact hmeet ⟨m, x, n, rfl, rfl, rfl, hne.symm, hm, hn⟩

end Comparand

namespace Value

def comparand : Value → Comparand
  | .text s => .text s
  | .integer n => .whole n
  | .float x => .float x
  | .boolean b => .whole (if b then 1 else 0)

def isNaN : Value → Bool
  | .float x => x.isNaN
  | _ => false

variable {a b c : Value} {m n : Int64} {x y : Float}

theorem float_boolean (t : Bool) :
    (if t then 1.0 else 0.0 : Float) = toFloat (if t then 1 else 0) := by
  cases t <;> decide

/-! ## What is compared -/

theorem eq_text_of_comparand {s : String} (h : a.comparand = .text s) : a = .text s := by
  cases a <;> simp_all [comparand]

theorem eq_float_of_comparand (h : a.comparand = .float x) : a = .float x := by
  cases a <;> simp_all [comparand]

theorem views_of_comparand (h : a.comparand = .whole n) :
    a.integer? = some n ∧ a.float? = some (toFloat n) := by
  cases a with
  | text s => cases h
  | integer m =>
      cases h
      exact ⟨rfl, rfl⟩
  | float x => cases h
  | boolean t =>
      cases h
      exact ⟨rfl, congrArg some (float_boolean t)⟩

theorem comparand_of_integer? (h : a.integer? = some n) : a.comparand = .whole n := by
  cases a <;> cases h <;> rfl

theorem compare_text_left {s : String} (hb : b.float? = some y) :
    (text s).order b = .error (.incomparable .text b.kind) ∧ (text s).equals b = false := by
  cases b <;> cases hb <;> exact ⟨rfl, rfl⟩

theorem compare_text_right {s : String} (ha : a.float? = some x) :
    a.order (text s) = .error (.incomparable a.kind .text) ∧ a.equals (text s) = false := by
  cases a <;> cases ha <;> exact ⟨rfl, rfl⟩

theorem compare_float_left (hb : b.float? = some y) :
    (float x).order b = .ok (floatOrder x y) ∧ (float x).equals b = (x == y) := by
  cases b <;> cases hb <;> exact ⟨rfl, rfl⟩

theorem compare_float_right (ha : a.float? = some x) :
    a.order (float y) = .ok (floatOrder x y) ∧ a.equals (float y) = (x == y) := by
  cases a <;> cases ha <;> exact ⟨rfl, rfl⟩

theorem compare_wholes (ha : a.integer? = some m) (hb : b.integer? = some n) :
    a.order b = .ok (some (compare m.toInt n.toInt)) ∧ a.equals b = (m == n) := by
  cases a <;> cases ha <;> cases b <;> cases hb <;> exact ⟨rfl, rfl⟩

/-- All that a comparison of two values comes to. -/
def Compares (a b : Value) : Option Ordering → Prop
  | some o => a.order b = .ok (some o) ∧ (a.equals b = true ↔ o = .eq)
  | none => a.order b = .error (.incomparable a.kind b.kind) ∧ a.equals b = false

theorem compares_of_ranks (hx : x.isNaN = false) (hy : y.isNaN = false)
    (h : a.order b = .ok (floatOrder x y) ∧ a.equals b = (x == y)) :
    Compares a b (some (compare (rank x) (rank y))) := by
  constructor
  · rw [h.1, floatOrder_eq hx hy]
  · rw [h.2, beq_iff_rank_eq hx hy, compare_eq_iff_eq]

theorem compares_comparand (ha : a.isNaN = false) (hb : b.isNaN = false) :
    Compares a b (a.comparand.order? b.comparand) := by
  cases hca : a.comparand with
  | text s =>
      obtain rfl := eq_text_of_comparand hca
      cases hcb : b.comparand with
      | text t =>
          obtain rfl := eq_text_of_comparand hcb
          refine ⟨rfl, ?_⟩
          rw [compare_eq_iff_eq]
          exact beq_iff_eq
      | whole n => exact compare_text_left (views_of_comparand hcb).2
      | float y =>
          obtain rfl := eq_float_of_comparand hcb
          exact compare_text_left rfl
  | whole m =>
      obtain ⟨hm, hx⟩ := views_of_comparand hca
      cases hcb : b.comparand with
      | text t =>
          obtain rfl := eq_text_of_comparand hcb
          exact compare_text_right hx
      | whole n =>
          obtain ⟨horder, hequals⟩ := compare_wholes hm (views_of_comparand hcb).1
          refine ⟨horder, ?_⟩
          rw [hequals, compare_eq_iff_eq, beq_iff_eq, Int64.toInt_inj]
      | float y =>
          obtain rfl := eq_float_of_comparand hcb
          exact compares_of_ranks (isNaN_toFloat m) hb (compare_float_right hx)
  | float x =>
      obtain rfl := eq_float_of_comparand hca
      cases hcb : b.comparand with
      | text t =>
          obtain rfl := eq_text_of_comparand hcb
          exact compare_text_right rfl
      | whole n =>
          exact compares_of_ranks ha (isNaN_toFloat n)
            (compare_float_left (views_of_comparand hcb).2)
      | float y =>
          obtain rfl := eq_float_of_comparand hcb
          exact compares_of_ranks ha hb (compare_float_left rfl)

/-- `a` and `c` are different whole numbers, and `b` is a float that both of them round to. -/
def RoundTogether (a b c : Value) : Prop :=
  ∃ m n x, a.integer? = some m ∧ b = .float x ∧ c.integer? = some n ∧ m ≠ n ∧
    (toFloat m == x) = true ∧ (toFloat n == x) = true

end Value

namespace CompareOp

open Value

variable {a b c : Value} {o : Option Ordering}

theorem eq_holds_iff (h : Compares a b o) : eq.holds a b = .ok true ↔ o = some .eq := by
  show Except.ok (a.equals b) = .ok true ↔ _
  cases o with
  | none => simp [h.2]
  | some o => simp [h.2]

theorem holds_iff_accepts (h : Compares a b o) {op : CompareOp} (hop : op ∈ [lt, le, gt, ge]) :
    op.holds a b = .ok true ↔ op.accepts o = true := by
  have hholds : op.holds a b = (a.order b).map op.accepts := by
    simp only [List.mem_cons, List.not_mem_nil, or_false] at hop
    rcases hop with rfl | rfl | rfl | rfl <;> rfl
  rw [hholds]
  cases o with
  | none =>
      rw [h.1]
      cases op <;> simp [Except.map, accepts]
  | some o =>
      rw [h.1]
      simp [Except.map]

theorem lt_holds_iff (h : Compares a b o) : lt.holds a b = .ok true ↔ o = some .lt := by
  rw [holds_iff_accepts h (by simp)]
  rcases o with _ | _ | _ | _ <;> simp [accepts]

theorem gt_holds_iff (h : Compares a b o) : gt.holds a b = .ok true ↔ o = some .gt := by
  rw [holds_iff_accepts h (by simp)]
  rcases o with _ | _ | _ | _ <;> simp [accepts]

theorem le_holds_iff (h : Compares a b o) :
    le.holds a b = .ok true ↔ ∃ p, o = some p ∧ p ≠ .gt := by
  rw [holds_iff_accepts h (by simp)]
  rcases o with _ | _ | _ | _ <;> simp [accepts]

theorem existsUnique_holds {p : Ordering} (h : Compares a b (some p)) :
    ∃! op, op ∈ [lt, eq, gt] ∧ op.holds a b = .ok true := by
  have hlt := lt_holds_iff h
  have heq := eq_holds_iff h
  have hgt := gt_holds_iff h
  rw [Option.some_inj] at hlt heq hgt
  have honly {op : CompareOp} (hop : op ∈ [lt, eq, gt]) (hholds : op.holds a b = .ok true) :
      op = lt ∧ p = .lt ∨ op = eq ∧ p = .eq ∨ op = gt ∧ p = .gt := by
    simp only [List.mem_cons, List.not_mem_nil, or_false] at hop
    rcases hop with rfl | rfl | rfl
    · exact .inl ⟨rfl, hlt.mp hholds⟩
    · exact .inr (.inl ⟨rfl, heq.mp hholds⟩)
    · exact .inr (.inr ⟨rfl, hgt.mp hholds⟩)
  cases p with
  | lt =>
      refine ⟨lt, ⟨by simp, hlt.mpr rfl⟩, fun op hop => ?_⟩
      simpa using honly hop.1 hop.2
  | eq =>
      refine ⟨eq, ⟨by simp, heq.mpr rfl⟩, fun op hop => ?_⟩
      simpa using honly hop.1 hop.2
  | gt =>
      refine ⟨gt, ⟨by simp, hgt.mpr rfl⟩, fun op hop => ?_⟩
      simpa using honly hop.1 hop.2

theorem le_holds_iff_lt_or_eq (h : Compares a b o) :
    le.holds a b = .ok true ↔ lt.holds a b = .ok true ∨ eq.holds a b = .ok true := by
  rw [le_holds_iff h, lt_holds_iff h, eq_holds_iff h]
  rcases o with _ | _ | _ | _ <;> simp

/-! ## Where the order is transitive -/

theorem meet_iff_roundTogether (hb : b.isNaN = false) :
    Comparand.Meet a.comparand b.comparand c.comparand ↔ RoundTogether a b c := by
  constructor
  · rintro ⟨m, x, n, hm, hx, hn, hne, hmx, hnx⟩
    obtain rfl := eq_float_of_comparand hx
    exact ⟨m, n, x, (views_of_comparand hm).1, rfl, (views_of_comparand hn).1, hne,
      (beq_iff_rank_eq (isNaN_toFloat m) hb).mpr hmx,
      (beq_iff_rank_eq (isNaN_toFloat n) hb).mpr hnx⟩
  · rintro ⟨m, n, x, hm, rfl, hn, hne, hmx, hnx⟩
    exact ⟨m, x, n, comparand_of_integer? hm, rfl, comparand_of_integer? hn, hne,
      (beq_iff_rank_eq (isNaN_toFloat m) hb).mp hmx,
      (beq_iff_rank_eq (isNaN_toFloat n) hb).mp hnx⟩

theorem le_natAbs_of_roundTogether (hb : b.isNaN = false) (h : RoundTogether a b c) :
    ∃ m n, a.integer? = some m ∧ c.integer? = some n ∧
      2 ^ 53 ≤ m.toInt.natAbs ∧ 2 ^ 53 ≤ n.toInt.natAbs := by
  obtain ⟨m, n, x, hm, rfl, hn, hne, hmx, hnx⟩ := h
  have hranks := (beq_iff_rank_eq (isNaN_toFloat m) hb).mp hmx
  have hranks' := (beq_iff_rank_eq (isNaN_toFloat n) hb).mp hnx
  exact ⟨m, n, hm, hn, le_natAbs_of_rank_toFloat_eq hne (hranks.trans hranks'.symm)⟩

/-- The comparison operators order all values that are not NaN, but for whole numbers that are
compared by way of a float: `==` is transitive if and only if they are not rounded to it both, and
`<=` if they are not, or are in their order. Such numbers have more than 53 bits. -/
theorem values_ordered (ha : a.isNaN = false) (hb : b.isNaN = false) (hc : c.isNaN = false) :
    (∀ o, a.order b = .ok o →
      (∃! op, op ∈ [lt, eq, gt] ∧ op.holds a b = .ok true) ∧
        (le.holds a b = .ok true ↔ lt.holds a b = .ok true ∨ eq.holds a b = .ok true)) ∧
      ((eq.holds a b = .ok true → eq.holds b c = .ok true → eq.holds a c = .ok true) ↔
        ¬ RoundTogether a b c) ∧
      ((le.holds a b = .ok true → le.holds b c = .ok true → le.holds a c = .ok true) ↔
        ¬ (RoundTogether a b c ∧ lt.holds c a = .ok true)) ∧
      (RoundTogether a b c → ∃ m n, a.integer? = some m ∧ c.integer? = some n ∧
        2 ^ 53 ≤ m.toInt.natAbs ∧ 2 ^ 53 ≤ n.toInt.natAbs) := by
  have hab := compares_comparand ha hb
  have hbc := compares_comparand hb hc
  have hac := compares_comparand ha hc
  have hca := compares_comparand hc ha
  refine ⟨?_, ?_, ?_, le_natAbs_of_roundTogether hb⟩
  · intro o hok
    cases horder : a.comparand.order? b.comparand with
    | none =>
        rw [horder] at hab
        cases hab.1.symm.trans hok
    | some p =>
        rw [horder] at hab
        exact ⟨existsUnique_holds hab, le_holds_iff_lt_or_eq hab⟩
  · rw [eq_holds_iff hab, eq_holds_iff hbc, eq_holds_iff hac, ← meet_iff_roundTogether hb]
    exact Comparand.eq_trans_iff
  · rw [le_holds_iff hab, le_holds_iff hbc, le_holds_iff hac, lt_holds_iff hca,
      ← meet_iff_roundTogether hb, Comparand.exists_order?_iff, Comparand.exists_order?_iff,
      Comparand.exists_order?_iff]
    exact Comparand.le_trans_iff

/-- The numbers 1 and 1.0 and true are equal, each to the next one and the first to the last. -/
theorem values_ordered_one :
    let a := Value.integer 1
    let b := Value.float 1.0
    let c := Value.boolean true
    (∃! op, op ∈ [lt, eq, gt] ∧ op.holds a b = .ok true) ∧ ¬ RoundTogether a b c ∧
      eq.holds a b = .ok true ∧ eq.holds b c = .ok true ∧ eq.holds a c = .ok true ∧
      le.holds a b = .ok true ∧ le.holds b c = .ok true ∧ le.holds a c = .ok true := by
  intro a b c
  have hb : b.isNaN = false := by decide
  have horder : a.order b = .ok (some .eq) := by decide
  obtain ⟨hone, heq, hle, hlarge⟩ := @values_ordered a b c rfl hb rfl
  have hapart : ¬ RoundTogether a b c := by
    intro hround
    obtain ⟨m, n, hm, -, hlong, -⟩ := hlarge hround
    obtain rfl := Option.some.inj hm
    exact absurd hlong (by decide)
  have hab : eq.holds a b = .ok true := by decide
  have hbc : eq.holds b c = .ok true := by decide
  have hab' : le.holds a b = .ok true := by decide
  have hbc' : le.holds b c = .ok true := by decide
  exact ⟨(hone _ horder).1, hapart, hab, hbc, heq.mpr hapart hab hbc, hab', hbc',
    hle.mpr (fun h => hapart h.1) hab' hbc'⟩

/-- The float `2 ^ 53` equals `2 ^ 53 + 1` and `2 ^ 53`, one more than the other. -/
theorem eq_not_trans_of_float :
    (Value.float 9007199254740992.0).isNaN = false ∧
      eq.holds (.integer 9007199254740993) (.float 9007199254740992.0) = .ok true ∧
      eq.holds (.float 9007199254740992.0) (.integer 9007199254740992) = .ok true ∧
      eq.holds (.integer 9007199254740993) (.integer 9007199254740992) = .ok false ∧
      le.holds (.integer 9007199254740993) (.float 9007199254740992.0) = .ok true ∧
      le.holds (.float 9007199254740992.0) (.integer 9007199254740992) = .ok true ∧
      le.holds (.integer 9007199254740993) (.integer 9007199254740992) = .ok false := by
  decide

end CompareOp

end LineShell
