import LineShell.Proofs.Expr.Grammar
import LineShell.Proofs.Sequence

/-!
# What is read is derived

Whatever the readers take from the tokens derives what they give (`sound_readers`). The invariant is
a property of readers that share a budget (`Sound`), and is handed up from a budget to the next: a
chain is sound if, put behind tokens that derive its left side, the tokens that it takes derive the
whole.

The tables of operators of the readers are related to those of the grammar first.
-/

namespace LineShell

namespace Parser

open Grammar

variable {bound : String → Bool}

/-! ## The tables of operators -/

theorem isKeyword_eq_true {keyword : String} {t : Token} :
    isKeyword bound keyword t = true ↔ t = .word keyword ∧ bound keyword = false := by
  cases t <;> simp [isKeyword]
  rintro rfl
  rfl

theorem joint?_eq_some {level : Level} {t : Token} {join : Expr → Expr → Expr} :
    joint? bound level t = some join ↔ Joins bound level t join := by
  constructor
  · intro h
    unfold joint? at h
    split at h
    case h_1 t | h_2 t =>
      split at h
      · rename_i hk
        obtain ⟨rfl, hb⟩ := isKeyword_eq_true.mp hk
        obtain rfl := Option.some.inj h
        constructor
        exact hb
      · cases h
    case h_8 => nomatch h
    all_goals
      obtain rfl := Option.some.inj h
      constructor
  · intro h
    cases h <;> simp_all [joint?, isKeyword]

theorem sign?_eq_some {t : Token} {op : UnaryOp} : sign? t = some op ↔ Signs t op := by
  constructor
  · intro h
    cases t <;> simp only [sign?, reduceCtorEq, Option.some.injEq] at h <;> subst h <;> constructor
  · intro h
    cases h <;> rfl

theorem comparison?_eq_some {t : Token} {op : CompareOp} (h : comparison? t = some op) :
    Compares bound [t] op := by
  cases t <;> simp only [comparison?, reduceCtorEq, Option.some.injEq] at h <;> subst h <;>
    constructor

/-- The operator that is found is spelled by the tokens in front of the rest. -/
theorem exists_of_compare?_eq_some {ts rest : List Token} {op : CompareOp}
    (h : compare? bound ts = some (op, rest)) :
    ∃ sign, ts = sign ++ rest ∧ Compares bound sign op := by
  unfold compare? at h
  split at h
  · cases h
  · rename_i t us
    split at h
    · rename_i his
      obtain ⟨rfl, hb⟩ := isKeyword_eq_true.mp his
      split at h
      · rename_i u vs
        split at h
        · rename_i hnot
          obtain ⟨rfl, hb'⟩ := isKeyword_eq_true.mp hnot
          obtain ⟨rfl, rfl⟩ := Prod.mk.inj (Option.some.inj h)
          exact ⟨_, rfl, .isNot hb hb'⟩
        · obtain ⟨rfl, rfl⟩ := Prod.mk.inj (Option.some.inj h)
          exact ⟨_, rfl, .is hb⟩
      · obtain ⟨rfl, rfl⟩ := Prod.mk.inj (Option.some.inj h)
        exact ⟨_, rfl, .is hb⟩
    · obtain ⟨op', hop, heq⟩ := Option.map_eq_some_iff.mp h
      obtain ⟨rfl, rfl⟩ := Prod.mk.inj heq
      exact ⟨[t], rfl, comparison?_eq_some hop⟩

/-- A word that is read as an operand is one. -/
theorem ofWord_eq_ok {w : String} {e : Expr} (h : ofWord bound w = .ok e) :
    Derives bound .primary [.word w] e := by
  unfold ofWord at h
  split at h
  · rename_i hb
    obtain rfl := Except.ok.inj h
    exact .name (Or.inl hb)
  · rename_i hb
    rw [Bool.not_eq_true] at hb
    split at h
    · rename_i hw
      subst hw
      obtain rfl := Except.ok.inj h
      exact .trueWord hb
    · split at h
      · rename_i hw
        subst hw
        obtain rfl := Except.ok.inj h
        exact .falseWord hb
      · split at h
        · cases h
        · rename_i htrue hfalse hop
          obtain rfl := Except.ok.inj h
          exact .name (Or.inr (by simp_all [operatorWords, constantWords]))

theorem primary_word (bound : String → Bool) (deeper : Option Readers) (w : String)
    (ts : List Token) :
    primary bound deeper (.word w :: ts) = (ofWord bound w >>= fun e => .ok (e, ts)) := rfl

theorem primary_openParen (bound : String → Bool) (deeper : Option Readers) (ts : List Token) :
    primary bound deeper (.openParen :: ts) = (do
      let readers ← descend deeper
      let (inner, rest) ← readers.expr .or ts
      match rest with
      | .closeParen :: rest => .ok (inner, rest)
      | _ => .error .unclosedParen) := rfl

/-! ## Soundness -/

/-- What the readers take from the tokens derives what they give. -/
structure Sound (bound : String → Bool) (readers : Readers) : Prop where
  expr {level : Level} {ts rest : List Token} {e : Expr} :
    readers.expr level ts = .ok (e, rest) → ∃ us, ts = us ++ rest ∧ Derives bound level us e
  chain {level operand : Level} {left e : Expr} {ls ts rest : List Token} :
    Chained level operand → Derives bound level ls left →
      readers.chain level operand left ts = .ok (e, rest) →
        ∃ us, ts = us ++ rest ∧ Derives bound level (ls ++ us) e
  links {ts rest : List Token} {entries : List (CompareOp × Expr)} :
    readers.links ts = .ok (entries, rest) →
      ∃ links : List Link, ts = links.flatMap Link.tokens ++ rest ∧
        entries = links.map Link.entry ∧ (∀ l ∈ links, Compares bound l.sign l.op) ∧
          ∀ l ∈ links, Derives bound .sum l.spelled l.operand

theorem descend_eq_ok {deeper : Option Readers} {readers : Readers}
    (h : descend deeper = .ok readers) : readers ∈ deeper := by
  cases deeper with
  | none => cases h
  | some r => exact congrArg some (Except.ok.inj h)

section

variable {deeper : Option Readers} (hd : ∀ r ∈ deeper, Sound bound r)
include hd

theorem sound_chain {level operand : Level} {left e : Expr} {ls ts rest : List Token}
    (hc : Chained level operand) (hl : Derives bound level ls left)
    (h : chain bound deeper level operand left ts = .ok (e, rest)) :
    ∃ us, ts = us ++ rest ∧ Derives bound level (ls ++ us) e := by
  cases ts with
  | nil =>
      obtain ⟨rfl, rfl⟩ := Prod.mk.inj (Except.ok.inj h)
      exact ⟨[], rfl, by rwa [List.append_nil]⟩
  | cons t ts =>
      simp only [chain] at h
      split at h
      · obtain ⟨rfl, rfl⟩ := Prod.mk.inj (Except.ok.inj h)
        exact ⟨[], rfl, by rwa [List.append_nil]⟩
      · rename_i join hj
        obtain ⟨r, hr, h₁⟩ := exists_of_bind_eq_ok h
        obtain ⟨⟨right, mid⟩, hop, h₂⟩ := exists_of_bind_eq_ok h₁
        have hsound := hd r (descend_eq_ok hr)
        obtain ⟨rs, rfl, hright⟩ := hsound.expr hop
        have hjoin := Derives.chain hc (joint?_eq_some.mp hj) hl hright
        obtain ⟨us, rfl, hus⟩ := hsound.chain hc hjoin h₂
        exact ⟨t :: rs ++ us, by simp, by simpa using hus⟩

theorem sound_links {ts rest : List Token} {entries : List (CompareOp × Expr)}
    (h : links bound deeper ts = .ok (entries, rest)) :
    ∃ links : List Link, ts = links.flatMap Link.tokens ++ rest ∧
      entries = links.map Link.entry ∧ (∀ l ∈ links, Compares bound l.sign l.op) ∧
        ∀ l ∈ links, Derives bound .sum l.spelled l.operand := by
  unfold links at h
  split at h
  · obtain ⟨rfl, rfl⟩ := Prod.mk.inj (Except.ok.inj h)
    exact ⟨[], rfl, rfl, by simp, by simp⟩
  · rename_i op ts' hop
    obtain ⟨sign, rfl, hsign⟩ := exists_of_compare?_eq_some hop
    obtain ⟨r, hr, h₁⟩ := exists_of_bind_eq_ok h
    obtain ⟨⟨operand, mid⟩, hoperand, h₂⟩ := exists_of_bind_eq_ok h₁
    obtain ⟨⟨more, mid'⟩, hmore, h₃⟩ := exists_of_bind_eq_ok h₂
    obtain ⟨rfl, rfl⟩ := Prod.mk.inj (Except.ok.inj h₃)
    have hsound := hd r (descend_eq_ok hr)
    obtain ⟨us, rfl, hus⟩ := hsound.expr hoperand
    obtain ⟨ls, rfl, rfl, hcs, hds⟩ := hsound.links hmore
    refine ⟨⟨sign, op, us, operand⟩ :: ls, by simp [Link.tokens], rfl, ?_, ?_⟩
    · exact List.forall_mem_cons.mpr ⟨hsign, hcs⟩
    · exact List.forall_mem_cons.mpr ⟨hus, hds⟩

theorem sound_primary {ts rest : List Token} {e : Expr}
    (h : primary bound deeper ts = .ok (e, rest)) :
    ∃ us, ts = us ++ rest ∧ Derives bound .primary us e := by
  cases ts with
  | nil => cases h
  | cons t ts =>
      cases t with
      | integer n =>
          obtain ⟨rfl, rfl⟩ := Prod.mk.inj (Except.ok.inj h)
          exact ⟨_, rfl, .integer n⟩
      | float x =>
          obtain ⟨rfl, rfl⟩ := Prod.mk.inj (Except.ok.inj h)
          exact ⟨_, rfl, .float x⟩
      | text s =>
          obtain ⟨rfl, rfl⟩ := Prod.mk.inj (Except.ok.inj h)
          exact ⟨_, rfl, .text s⟩
      | word w =>
          rw [primary_word] at h
          obtain ⟨e', hw, h₁⟩ := exists_of_bind_eq_ok h
          obtain ⟨rfl, rfl⟩ := Prod.mk.inj (Except.ok.inj h₁)
          exact ⟨[.word w], rfl, ofWord_eq_ok hw⟩
      | openParen =>
          rw [primary_openParen] at h
          obtain ⟨r, hr, h₁⟩ := exists_of_bind_eq_ok h
          obtain ⟨⟨inner, mid⟩, hinner, h₂⟩ := exists_of_bind_eq_ok h₁
          obtain ⟨us, rfl, hus⟩ := (hd r (descend_eq_ok hr)).expr hinner
          simp only at h₂
          split at h₂
          · obtain ⟨rfl, rfl⟩ := Prod.mk.inj (Except.ok.inj h₂)
            exact ⟨_, by simp, .brackets hus⟩
          · cases h₂
      | _ => cases h

theorem sound_signed {ts rest : List Token} {e : Expr}
    (h : signed bound deeper ts = .ok (e, rest)) :
    ∃ us, ts = us ++ rest ∧ Derives bound .sign us e := by
  have ofPrimary {ts : List Token} (h : primary bound deeper ts = .ok (e, rest)) :
      ∃ us, ts = us ++ rest ∧ Derives bound .sign us e := by
    obtain ⟨us, hts, hus⟩ := sound_primary hd h
    exact ⟨us, hts, .primary hus⟩
  unfold signed at h
  split at h
  · exact ofPrimary h
  · rename_i t ts'
    split at h
    · exact ofPrimary h
    · rename_i op hs
      obtain ⟨r, hr, h₁⟩ := exists_of_bind_eq_ok h
      obtain ⟨⟨operand, mid⟩, hoperand, h₂⟩ := exists_of_bind_eq_ok h₁
      obtain ⟨rfl, rfl⟩ := Prod.mk.inj (Except.ok.inj h₂)
      obtain ⟨us, rfl, hus⟩ := (hd r (descend_eq_ok hr)).expr hoperand
      exact ⟨t :: us, rfl, .sign (sign?_eq_some.mp hs) hus⟩

/-- A chain level is sound if the level of its operands is. -/
theorem sound_chained {level operand : Level} (hc : Chained level operand) {left : Reader Expr}
    (hleft : ∀ {ts rest : List Token} {e : Expr}, left ts = .ok (e, rest) →
      ∃ us, ts = us ++ rest ∧ Derives bound operand us e)
    {ts rest : List Token} {e : Expr}
    (h : (do let (l, mid) ← left ts; chain bound deeper level operand l mid) = .ok (e, rest)) :
    ∃ us, ts = us ++ rest ∧ Derives bound level us e := by
  obtain ⟨⟨l, mid⟩, hl, h₁⟩ := exists_of_bind_eq_ok h
  obtain ⟨us, rfl, hus⟩ := hleft hl
  obtain ⟨vs, rfl, hvs⟩ := sound_chain hd hc (.operand hc hus) h₁
  exact ⟨us ++ vs, by simp, hvs⟩

theorem sound_product {ts rest : List Token} {e : Expr}
    (h : product bound deeper ts = .ok (e, rest)) :
    ∃ us, ts = us ++ rest ∧ Derives bound .product us e :=
  sound_chained hd .product (sound_signed hd) h

theorem sound_sum {ts rest : List Token} {e : Expr} (h : sum bound deeper ts = .ok (e, rest)) :
    ∃ us, ts = us ++ rest ∧ Derives bound .sum us e :=
  sound_chained hd .sum (sound_product hd) h

theorem sound_comparison {ts rest : List Token} {e : Expr}
    (h : comparison bound deeper ts = .ok (e, rest)) :
    ∃ us, ts = us ++ rest ∧ Derives bound .comparison us e := by
  obtain ⟨⟨first, mid⟩, hfirst, h₁⟩ := exists_of_bind_eq_ok h
  obtain ⟨⟨entries, mid'⟩, hlinks, h₂⟩ := exists_of_bind_eq_ok h₁
  obtain ⟨rfl, rfl⟩ := Prod.mk.inj (Except.ok.inj h₂)
  obtain ⟨us, rfl, hus⟩ := sound_sum hd hfirst
  obtain ⟨ls, rfl, rfl, hcs, hds⟩ := sound_links hd hlinks
  by_cases hne : ls = []
  · subst hne
    exact ⟨us, rfl, .sum hus⟩
  · refine ⟨_, (List.append_assoc _ _ _).symm, ?_⟩
    rw [if_neg (by simpa using hne)]
    exact .compare ls hne hus hcs hds

theorem sound_negated {ts rest : List Token} {e : Expr}
    (h : negated bound deeper ts = .ok (e, rest)) :
    ∃ us, ts = us ++ rest ∧ Derives bound .not us e := by
  have ofComparison {ts : List Token} (h : comparison bound deeper ts = .ok (e, rest)) :
      ∃ us, ts = us ++ rest ∧ Derives bound .not us e := by
    obtain ⟨us, hts, hus⟩ := sound_comparison hd h
    exact ⟨us, hts, .comparison hus⟩
  unfold negated at h
  split at h
  · exact ofComparison h
  · rename_i t ts'
    split at h
    · rename_i hk
      obtain ⟨rfl, hb⟩ := isKeyword_eq_true.mp hk
      obtain ⟨r, hr, h₁⟩ := exists_of_bind_eq_ok h
      obtain ⟨⟨operand, mid⟩, hoperand, h₂⟩ := exists_of_bind_eq_ok h₁
      obtain ⟨rfl, rfl⟩ := Prod.mk.inj (Except.ok.inj h₂)
      obtain ⟨us, rfl, hus⟩ := (hd r (descend_eq_ok hr)).expr hoperand
      exact ⟨_ :: us, rfl, .not hb hus⟩
    · exact ofComparison h

theorem sound_conjunction {ts rest : List Token} {e : Expr}
    (h : conjunction bound deeper ts = .ok (e, rest)) :
    ∃ us, ts = us ++ rest ∧ Derives bound .and us e :=
  sound_chained hd .and (sound_negated hd) h

theorem sound_disjunction {ts rest : List Token} {e : Expr}
    (h : disjunction bound deeper ts = .ok (e, rest)) :
    ∃ us, ts = us ++ rest ∧ Derives bound .or us e :=
  sound_chained hd .or (sound_conjunction hd) h

/-- One budget up from sound readers, the readers are sound. -/
theorem sound_ascend : Sound bound (ascend bound deeper) where
  expr {level _ _ _} h :=
    match level with
    | .or => sound_disjunction hd h
    | .and => sound_conjunction hd h
    | .not => sound_negated hd h
    | .comparison => sound_comparison hd h
    | .sum => sound_sum hd h
    | .product => sound_product hd h
    | .sign => sound_signed hd h
    | .primary => sound_primary hd h
  chain := sound_chain hd
  links := sound_links hd

end

/-- The readers one step below a budget, if it has that step. -/
def below (bound : String → Bool) : Nat → Option Readers
  | 0 => none
  | budget + 1 => some (readers bound budget)

theorem readers_eq_ascend (bound : String → Bool) (budget : Nat) :
    readers bound budget = ascend bound (below bound budget) := by
  cases budget <;> rfl

theorem sound_readers (budget : Nat) : Sound bound (readers bound budget) := by
  induction budget with
  | zero => exact sound_ascend nofun
  | succ budget ih =>
      refine sound_ascend fun r hr => ?_
      obtain rfl := Option.some.inj hr
      exact ih

theorem sound_below {budget : Nat} : ∀ r ∈ below bound budget, Sound bound r := by
  intro r hr
  cases budget with
  | zero => cases hr
  | succ budget =>
      obtain rfl := Option.some.inj hr
      exact sound_readers budget

end Parser

end LineShell
