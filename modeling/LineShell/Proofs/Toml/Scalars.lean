import LineShell.Proofs.Text.Runs
import LineShell.Proofs.Toml.Quoted
import LineShell.Toml.Scalar

/-!
# Written scalars are read back

Text, truth values and numbers, each in front of the end of its line. A numeral has to be told apart
from what else begins with a digit: dates, times and floats go on with a character that is neither a
digit nor a line feed (`after?_of_digits?`), numbers of another base have a letter behind a zero,
and numbers of several digits do not begin with zero (`Decimal.digits_eq_of_head?`).
-/

namespace LineShell

theorem Decimal.digits_eq_of_head? {n : Nat} (h : (digits n).head? = some '0') :
    digits n = ['0'] := by
  induction n using Nat.strongRecOn with
  | _ n ih =>
    by_cases hsmall : n < 10
    · rw [digits, Nat.toDigits_of_lt_base hsmall] at h ⊢
      rw [Option.some.inj h]
    · -- What stands in front of the last digit is the numeral of a number that is not zero.
      have hdigits : digits n = digits (n / 10) ++ [Nat.digitChar (n % 10)] :=
        Nat.toDigits_of_base_le (by decide) (by omega)
      have hhead : (digits n).head? = (digits (n / 10)).head? := by
        obtain ⟨c, cs, hcs⟩ := List.exists_cons_of_ne_nil (digits_ne_nil (n / 10))
        rw [hdigits, hcs]
        rfl
      have hzero := ofDigits_digits (n / 10)
      rw [ih (n / 10) (by omega) (hhead.symm.trans h)] at hzero
      have hvalue : ofDigits ['0'] = 0 := rfl
      omega

namespace Toml

variable {c : Char} {ds cs rest : List Char}

/-! ## What is no date and no time -/

theorem after?_of_digits? {k m : Nat} (hds : ∀ d ∈ ds, d.isDigit = true) (hc : c.isDigit = false)
    (hline : c ≠ '\n') (h : digits? k (ds ++ '\n' :: rest) = some (m, cs)) :
    after? c cs = none := by
  rw [digits?] at h
  split at h
  · rename_i hall
    obtain ⟨-, rfl⟩ := Prod.mk.inj (Option.some.inj h)
    have hk : k ≤ ds.length := by
      by_contra hlt
      have hmem : '\n' ∈ (ds ++ '\n' :: rest).take k := by
        rw [List.take_append, List.mem_append]
        refine Or.inr ?_
        obtain ⟨j, hj⟩ : ∃ j, k - ds.length = j + 1 := ⟨k - ds.length - 1, by omega⟩
        rw [hj, List.take_succ_cons]
        exact List.mem_cons_self
      have hdigit := List.all_eq_true.mp hall.2 '\n' hmem
      cases hdigit
    rw [List.drop_append_of_le_length hk]
    cases hdrop : ds.drop k with
    | nil => exact if_neg (Ne.symm hline)
    | cons d ds' =>
        have hdigit := hds d (List.mem_of_mem_drop (hdrop ▸ List.mem_cons_self))
        exact if_neg (Text.ne_of_class hdigit hc)
  · cases h

theorem afterMoment?_digits (hds : ∀ d ∈ ds, d.isDigit = true) :
    afterMoment? (ds ++ '\n' :: rest) = none := by
  have hdate : afterDate? (ds ++ '\n' :: rest) = none := by
    rw [afterDate?]
    cases h : digits? 4 (ds ++ '\n' :: rest) with
    | none => rfl
    | some r =>
        obtain ⟨m, cs⟩ := r
        have hafter : after? '-' cs = none := after?_of_digits? hds rfl (by decide) h
        simp only [Option.bind_eq_bind, Option.bind_some, hafter, Option.bind_none]
  have htime : afterTime? (ds ++ '\n' :: rest) = none := by
    rw [afterTime?, afterMinutes?]
    cases h : digits? 2 (ds ++ '\n' :: rest) with
    | none => rfl
    | some r =>
        obtain ⟨m, cs⟩ := r
        have hafter : after? ':' cs = none := after?_of_digits? hds rfl (by decide) h
        simp only [Option.bind_eq_bind, Option.bind_some, hafter, Option.bind_none]
  rw [afterMoment?, hdate]
  exact htime

/-! ## Numbers -/

theorem isGrouped_of_all (hne : ds ≠ []) (hds : ∀ d ∈ ds, d.isDigit = true) :
    isGrouped Char.isDigit ds = true := by
  induction ds with
  | nil => exact absurd rfl hne
  | cons d ds ih =>
      have hd := hds d List.mem_cons_self
      have htail : ∀ e ∈ ds, e.isDigit = true := fun e he => hds e (List.mem_cons_of_mem d he)
      cases ds with
      | nil => exact hd
      | cons e ds =>
          have hunderscore : e ≠ '_' := Text.ne_of_class (htail e List.mem_cons_self) rfl
          rw [isGrouped, hd, ih (List.cons_ne_nil e ds) htail]
          · rfl
          · exact List.cons_ne_nil e ds
          · intro cs heq
            exact hunderscore (List.cons.inj heq).1

theorem whole?_digits (n : Nat) (rest : List Char) :
    whole? (Decimal.digits n ++ '\n' :: rest) = some (Decimal.digits n, '\n' :: rest) := by
  have hdigit : ∀ c ∈ Decimal.digits n, c.isDigit = true :=
    fun c hc => Decimal.isDigit_of_mem_digits hc
  have hrun : ∀ c ∈ Decimal.digits n, (c.isDigit || c == '_') = true := by
    intro c hc
    rw [hdigit c hc, Bool.true_or]
  have hstop : ('\n'.isDigit || '\n' == '_') = false := rfl
  have htake := Text.takeWhile_run_cons hrun hstop rest
  have hdrop := Text.dropWhile_run_cons hrun hstop rest
  rw [whole?, grouped?]
  dsimp only
  rw [htake, hdrop,
    if_pos (isGrouped_of_all (Decimal.digits_ne_nil n) hdigit), List.filter_eq_self.mpr hdigit]
  exact if_neg fun h => h.2 (Decimal.digits_eq_of_head? h.1)

theorem decimal?_digits {n : Nat} (hn : n ≤ Int64.maxValue.toNatClampNeg) (rest : List Char) :
    decimal? false (Decimal.digits n ++ '\n' :: rest) = some (.integer n, '\n' :: rest) := by
  have hsigned : decimal?.signed false (Decimal.digits n) = some (.integer n) := by
    have hmax : Int64.maxValue.toInt = 9223372036854775807 := rfl
    have hmin : Int64.minValue.toInt = -9223372036854775808 := rfl
    have hnat : Int64.maxValue.toNatClampNeg = 9223372036854775807 := rfl
    rw [decimal?.signed, Decimal.ofDigits_digits]
    exact if_pos (by omega)
  rw [decimal?, whole?_digits]
  simp only [Option.bind_eq_bind, Option.bind_some, hsigned]
  rfl

theorem number?_of_isDigit (hc : c.isDigit = true)
    (hcs : ∀ d ∈ cs.head?, d ≠ 'x' ∧ d ≠ 'o' ∧ d ≠ 'b') :
    number? (c :: cs) = decimal? false (c :: cs) := by
  have hunsigned : unsigned? false (c :: cs) = decimal? false (c :: cs) := by
    unfold unsigned?
    split
    · rename_i heq
      exact absurd (List.cons.inj heq).1 (Text.ne_of_class hc rfl)
    · rename_i heq
      exact absurd (List.cons.inj heq).1 (Text.ne_of_class hc rfl)
    · rfl
  unfold number?
  split
  · rename_i heq
    exact absurd (List.cons.inj heq).1 (Text.ne_of_class hc rfl)
  · rename_i heq
    exact absurd (List.cons.inj heq).1 (Text.ne_of_class hc rfl)
  · rename_i heq
    obtain ⟨-, rfl⟩ := List.cons.inj heq
    exact absurd rfl (hcs 'x' rfl).1
  · rename_i heq
    obtain ⟨-, rfl⟩ := List.cons.inj heq
    exact absurd rfl (hcs 'o' rfl).2.1
  · rename_i heq
    obtain ⟨-, rfl⟩ := List.cons.inj heq
    exact absurd rfl (hcs 'b' rfl).2.2
  · exact hunsigned

/-! ## Scalars -/

theorem scalar?_of_isDigit (hc : c.isDigit = true) :
    scalar? (c :: cs) = match afterMoment? (c :: cs) with
      | some rest => some (.moment, rest)
      | none => number? (c :: cs) := by
  unfold scalar?
  split
  · rename_i heq
    exact absurd (List.cons.inj heq).1 (Text.ne_of_class hc rfl)
  · rename_i heq
    exact absurd (List.cons.inj heq).1 (Text.ne_of_class hc rfl)
  · rename_i heq
    obtain ⟨rfl, rfl⟩ := List.cons.inj heq
    refine if_neg ?_
    rintro (h | h)
    · exact Text.ne_of_class hc rfl h
    · exact Text.ne_of_class hc rfl h
  · rename_i heq
    cases heq

theorem scalar?_digits {n : Nat} (hn : n ≤ Int64.maxValue.toNatClampNeg) (rest : List Char) :
    scalar? (Decimal.digits n ++ '\n' :: rest) = some (.integer n, '\n' :: rest) := by
  have hall : ∀ c ∈ Decimal.digits n, c.isDigit = true :=
    fun c hc => Decimal.isDigit_of_mem_digits hc
  have hmoment : afterMoment? (Decimal.digits n ++ '\n' :: rest) = none := afterMoment?_digits hall
  have hdecimal := decimal?_digits hn rest
  obtain ⟨c, cs, hcs⟩ := List.exists_cons_of_ne_nil (Decimal.digits_ne_nil n)
  rw [hcs] at hall
  rw [hcs, List.cons_append] at hmoment hdecimal ⊢
  rw [scalar?_of_isDigit (hall c List.mem_cons_self), hmoment]
  refine (number?_of_isDigit (hall c List.mem_cons_self) ?_).trans hdecimal
  intro d hd
  cases cs with
  | nil =>
      obtain rfl := Option.some.inj hd
      decide
  | cons e cs =>
      obtain rfl := Option.some.inj hd
      have hdigit := hall e (List.mem_cons_of_mem c List.mem_cons_self)
      exact ⟨Text.ne_of_class hdigit rfl, Text.ne_of_class hdigit rfl, Text.ne_of_class hdigit rfl⟩

theorem Quoted.exists_write (cs : List Char) :
    ∃ q ds, (q = '\x22' ∨ q = '\x27') ∧ write cs = q :: ds := by
  rw [write]
  cases formOf cs with
  | basic => exact ⟨_, _, Or.inl rfl, rfl⟩
  | literal => exact ⟨_, _, Or.inr rfl, rfl⟩
  | longBasic => exact ⟨_, _, Or.inl rfl, rfl⟩
  | longLiteral => exact ⟨_, _, Or.inr rfl, rfl⟩

theorem scalar?_write (s : String) (rest : List Char) :
    scalar? (Quoted.write s.toList ++ '\n' :: rest) = some (.text s, '\n' :: rest) := by
  have hread : Quoted.read? (Quoted.write s.toList ++ '\n' :: rest) =
      some (s.toList, '\n' :: rest) := by
    refine Quoted.read?_write _ (fun c hc => ?_) fun c hc => ?_ <;>
      obtain rfl := Option.some.inj hc <;> decide
  obtain ⟨q, ds, hq, hds⟩ := Quoted.exists_write s.toList
  rw [hds, List.cons_append] at hread ⊢
  have hscalar : scalar? (q :: (ds ++ '\n' :: rest)) =
      (Quoted.read? (q :: (ds ++ '\n' :: rest))).map fun r => (.text (String.ofList r.1), r.2) := by
    rcases hq with rfl | rfl <;> rfl
  rw [hscalar, hread, Option.map_some, String.ofList_toList]

end Toml

end LineShell
