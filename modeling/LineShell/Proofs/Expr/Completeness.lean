import LineShell.Proofs.Expr.Depth
import LineShell.Proofs.Expr.Soundness

/-!
# What is derived is read

The converse of soundness: from tokens that derive an expression, and others behind them that do
not go on with it, the readers take just those tokens and give just that expression, unless the
budget runs out (`readAs_of_derivesIn`). A budget that is enough for two derivations of the same
tokens reads both, so the grammar is unambiguous (`derives_unique`). One step for each operator is
always enough (`affords_readers`).

A chain is read from the left and derived from the right: its last operand is the top of its tree.
What the induction carries through a chain is therefore not where reading ends but that it comes
by: having read the tokens of a derivation, the reader of the level is about to go on with a chain
whose left side is the expression that they derive (`GrowsTo`).
-/

namespace LineShell

namespace Parser

open Grammar

variable {bound : String → Bool}

/-! ## Where expressions end -/

/-- The level at which a token joins two operands. -/
def joinLevel? (bound : String → Bool) : Token → Option Level
  | .word w =>
      if bound w then none
      else if w = "or" then some .or
      else if w = "and" then some .and
      else if w = "is" then some .comparison
      else none
  | .plus | .minus => some .sum
  | .star | .slash | .percent => some .product
  | .equal | .notEqual | .less | .lessEqual | .greater | .greaterEqual => some .comparison
  | _ => none

/-- The tokens do not go on with an expression of the level. -/
def Stops (bound : String → Bool) (level : Level) (ts : List Token) : Prop :=
  ∀ t ∈ ts.head?, ∀ l, joinLevel? bound t = some l → tightness l < tightness level

theorem stops_nil (level : Level) : Stops bound level [] := by
  simp [Stops]

theorem Stops.mono {level level' : Level} {ts : List Token} (h : Stops bound level ts)
    (hl : tightness level ≤ tightness level') : Stops bound level' ts :=
  fun t ht l hj => Nat.lt_of_lt_of_le (h t ht l hj) hl

theorem stops_of_joinLevel? {level l : Level} {t : Token} {ts : List Token}
    (hj : joinLevel? bound t = some l) (hl : tightness l < tightness level) :
    Stops bound level (t :: ts) := by
  intro t' ht l' hj'
  obtain rfl := Option.some.inj ht
  obtain rfl := Option.some.inj (hj.symm.trans hj')
  exact hl

theorem stops_closeParen (level : Level) (ts : List Token) :
    Stops bound level (.closeParen :: ts) := by
  intro t ht l hj
  obtain rfl := Option.some.inj ht
  cases hj

theorem joinLevel?_of_joins {level : Level} {t : Token} {join : Expr → Expr → Expr}
    (h : Joins bound level t join) : joinLevel? bound t = some level := by
  cases h <;> simp_all [joinLevel?]

theorem exists_cons_of_compares {sign : List Token} {op : CompareOp}
    (h : Compares bound sign op) :
    ∃ t us, sign = t :: us ∧ joinLevel? bound t = some .comparison := by
  cases h <;> exact ⟨_, _, rfl, by simp_all [joinLevel?]⟩

theorem joint?_eq_none {level : Level} {t : Token} {ts : List Token}
    (h : Stops bound level (t :: ts)) : joint? bound level t = none := by
  cases hj : joint? bound level t with
  | none => rfl
  | some join =>
      have hlt := h t rfl level (joinLevel?_of_joins (joint?_eq_some.mp hj))
      exact absurd hlt (Nat.lt_irrefl _)

theorem compare?_eq_none {ts : List Token} (h : Stops bound .comparison ts) :
    compare? bound ts = none := by
  cases hc : compare? bound ts with
  | none => rfl
  | some p =>
      obtain ⟨sign, rfl, hs⟩ := exists_of_compare?_eq_some hc
      obtain ⟨t, us, rfl, hj⟩ := exists_cons_of_compares hs
      exact absurd (h t rfl _ hj) (Nat.lt_irrefl _)

/-- An operator is found in front of its operand, which does not begin with `not`. -/
theorem compare?_of_compares {sign ts : List Token} {op : CompareOp}
    (h : Compares bound sign op) (hts : ∀ t ∈ ts.head?, isKeyword bound "not" t = false) :
    compare? bound (sign ++ ts) = some (op, ts) := by
  cases h with
  | is hb =>
      have his : isKeyword bound "is" (.word "is") = true := isKeyword_eq_true.mpr ⟨rfl, hb⟩
      cases ts with
      | nil => simp [compare?, his]
      | cons t ts => simp [compare?, his, hts t rfl]
  | isNot hb hb' => simp [compare?, isKeyword, hb, hb']
  | eq | ne | lt | le | gt | ge => rfl

/-- A primary that is a single token is read from it. -/
theorem primary_of_derives {deeper : Option Readers} {t : Token} {e : Expr}
    (h : Derives bound .primary [t] e) (rest : List Token) :
    primary bound deeper (t :: rest) = .ok (e, rest) := by
  generalize hts : [t] = ts at h
  cases h with
  | operand hc _ => cases hc
  | chain hc _ _ _ => cases hc
  | brackets h =>
      obtain ⟨u, us, rfl, -⟩ := h.exists_cons
      cases hts
  | integer | float | text =>
      obtain rfl := (List.cons.inj hts).1
      rfl
  | trueWord hb | falseWord hb =>
      obtain rfl := (List.cons.inj hts).1
      rw [primary_word]
      simp [ofWord, hb, bind, Except.bind]
  | @name w hw =>
      obtain rfl := (List.cons.inj hts).1
      have hword : ofWord bound w = .ok (.variable w) := by
        rcases hw with hb | hw
        · simp [ofWord, hb]
        · simp only [operatorWords, constantWords, List.cons_append, List.nil_append,
            List.mem_cons, List.not_mem_nil, or_false, not_or] at hw
          simp [ofWord, hw]
      rw [primary_word, hword]
      rfl

/-! ## Reading within a budget -/

/-- What comes of reading something of the given depth: it is given if the budget allows. -/
def within {α : Type} (depth budget : Nat) (result : Except ParseError α) : Except ParseError α :=
  if depth ≤ budget then result else .error .tooDeep

theorem within_bind {α β : Type} {depth depth' budget : Nat} {a : α}
    {f : α → Except ParseError β} {y : Except ParseError β} (hf : f a = within depth' budget y) :
    (within depth budget (.ok a) >>= f) = within (max depth depth') budget y := by
  unfold within at *
  by_cases hd : depth ≤ budget
  · simp only [hd, if_true, Nat.max_le, true_and]
    exact hf
  · simp only [hd, if_false, Nat.max_le, false_and]
    rfl

theorem within_bind_ok {α β : Type} {depth budget : Nat} {a : α} {f : α → Except ParseError β}
    {b : β} (hf : f a = .ok b) :
    (within depth budget (.ok a) >>= f) = within depth budget (.ok b) := by
  unfold within
  split
  · exact hf
  · rfl

/-- A step down takes one from the budget. -/
theorem descend_within {β : Type} {depth budget : Nat} {y : Except ParseError β}
    {f : Readers → Except ParseError β}
    (hf : ∀ budget', f (readers bound budget') = within depth budget' y) :
    (descend (below bound budget) >>= f) = within (depth + 1) budget y := by
  cases budget with
  | zero => rfl
  | succ budget =>
      show f (readers bound budget) = _
      rw [hf]
      simp only [within, Nat.add_le_add_iff_right]

variable (bound) in
/-- A chain level reads an operand and then what goes on with the chain. -/
theorem expr_of_chained {level operand : Level} (hc : Chained level operand) (budget : Nat)
    (ts : List Token) :
    (readers bound budget).expr level ts = (do
      let (left, rest) ← (readers bound budget).expr operand ts
      (readers bound budget).chain level operand left rest) := by
  rw [readers_eq_ascend]
  cases hc <;> rfl

theorem chain_of_stops {level operand : Level} {left : Expr} {budget : Nat} {ts : List Token}
    (h : Stops bound level ts) :
    (readers bound budget).chain level operand left ts = .ok (left, ts) := by
  rw [readers_eq_ascend]
  cases ts with
  | nil => rfl
  | cons t ts => simp [ascend, chain, joint?_eq_none h]

theorem links_of_stops (deeper : Option Readers) {ts : List Token}
    (h : Stops bound .comparison ts) : links bound deeper ts = .ok ([], ts) := by
  simp [links, compare?_eq_none h]

theorem chain_of_joins {level operand : Level} {t : Token} {join : Expr → Expr → Expr}
    (h : Joins bound level t join) (left : Expr) (budget : Nat) (ts : List Token) :
    (readers bound budget).chain level operand left (t :: ts) = (do
      let r ← descend (below bound budget)
      let (right, rest) ← r.expr operand ts
      r.chain level operand (join left right) rest) := by
  rw [readers_eq_ascend]
  simp [ascend, chain, joint?_eq_some.mpr h]

/-! ## Completeness -/

/-- With tokens behind them that do not go on with it, the tokens are read as the expression, if the
budget allows for the depth. -/
def ReadAs (bound : String → Bool) (level : Level) (depth : Nat) (us : List Token) (e : Expr) :
    Prop :=
  ∀ budget rest, Stops bound level rest →
    (readers bound budget).expr level (us ++ rest) = within depth budget (.ok (e, rest))

/-- Reading the tokens, a chain comes by the expression, and each of its steps has taken one from
the budget that it goes on with. -/
def GrowsTo (bound : String → Bool) (level operand : Level) (steps depth : Nat)
    (us : List Token) (e : Expr) : Prop :=
  ∀ budget rest, Stops bound operand rest →
    (readers bound budget).expr level (us ++ rest) =
      within depth budget ((readers bound (budget - steps)).chain level operand e rest)

theorem readAs_of_growsTo {level operand : Level} (hc : Chained level operand) {k d : Nat}
    {us : List Token} {e : Expr} (h : GrowsTo bound level operand k d us e) :
    ReadAs bound level d us e := by
  intro budget rest hs
  rw [h budget rest (hs.mono (Nat.le_of_lt hc.tightness_lt)), chain_of_stops hs]

theorem growsTo_operand {level operand : Level} (hc : Chained level operand) {d : Nat}
    {us : List Token} {e : Expr} (h : ReadAs bound operand d us e) :
    GrowsTo bound level operand 0 d us e := by
  intro budget rest hs
  rw [expr_of_chained bound hc, h budget rest hs]
  unfold within
  split <;> rfl

theorem growsTo_chain {level operand : Level} (hc : Chained level operand) {t : Token}
    {join : Expr → Expr → Expr} (hj : Joins bound level t join) {k d d' : Nat}
    {ls rs : List Token} {l r : Expr} (hl : GrowsTo bound level operand k d ls l)
    (hr : ReadAs bound operand d' rs r) :
    GrowsTo bound level operand (k + 1) (max d (k + 1 + d')) (ls ++ t :: rs) (join l r) := by
  intro budget rest hs
  have ht : Stops bound operand (t :: (rs ++ rest)) :=
    stops_of_joinLevel? (joinLevel?_of_joins hj) hc.tightness_lt
  rw [List.append_assoc, List.cons_append, hl budget _ ht, chain_of_joins hj]
  -- The budget that is left for the step may be used up.
  cases hb : budget - k with
  | zero =>
      have hdeep : ¬ max d (k + 1 + d') ≤ budget := by omega
      simp only [within, hdeep, if_false]
      split <;> rfl
  | succ b =>
      have hb' : budget - (k + 1) = b := by omega
      simp only [below, descend, hb', bind, Except.bind, hr b rest hs]
      by_cases hd : d ≤ budget ∧ d' ≤ b
      · have hall : max d (k + 1 + d') ≤ budget := by omega
        simp only [within, hd.1, hd.2, hall, if_true]
      · have hall : ¬ max d (k + 1 + d') ≤ budget := by omega
        rw [not_and_or] at hd
        rcases hd with hd | hd <;> simp only [within, hd, hall, if_false]
        split <;> rfl

theorem stops_links {links : List Link} (hne : links ≠ [])
    (hcs : ∀ l ∈ links, Compares bound l.sign l.op) (rest : List Token) :
    Stops bound .sum (links.flatMap Link.tokens ++ rest) := by
  obtain ⟨l, ls, rfl⟩ := List.exists_cons_of_ne_nil hne
  obtain ⟨t, us, hsign, hj⟩ := exists_cons_of_compares (hcs l (List.mem_cons_self ..))
  rw [List.flatMap_cons, Link.tokens, hsign]
  exact stops_of_joinLevel? hj (by decide)

theorem links_within {links : List Link} {depth : Link → Nat}
    (hcs : ∀ l ∈ links, Compares bound l.sign l.op)
    (hds : ∀ l ∈ links, Derives bound .sum l.spelled l.operand)
    (hrs : ∀ l ∈ links, ReadAs bound .sum (depth l) l.spelled l.operand) {rest : List Token}
    (hs : Stops bound .comparison rest) (budget : Nat) :
    (readers bound budget).links (links.flatMap Link.tokens ++ rest) =
      within (linksDepth (links.map depth)) budget (.ok (links.map Link.entry, rest)) := by
  induction links generalizing budget with
  | nil =>
      rw [readers_eq_ascend]
      exact links_of_stops _ hs
  | cons l ls ih =>
      obtain ⟨hc, hcs⟩ := List.forall_mem_cons.mp hcs
      obtain ⟨hd, hds⟩ := List.forall_mem_cons.mp hds
      obtain ⟨hr, hrs⟩ := List.forall_mem_cons.mp hrs
      -- The operand ends where the next link begins, or else where the whole comparison ends.
      have hstop : Stops bound .sum (ls.flatMap Link.tokens ++ rest) := by
        by_cases hne : ls = []
        · subst hne
          exact hs.mono (by decide)
        · exact stops_links hne hcs rest
      have hop : compare? bound (l.sign ++ (l.spelled ++ (ls.flatMap Link.tokens ++ rest))) =
          some (l.op, l.spelled ++ (ls.flatMap Link.tokens ++ rest)) := by
        refine compare?_of_compares hc fun t ht => ?_
        obtain ⟨t', us, heq, hn⟩ := hd.exists_cons
        rw [heq] at ht
        obtain rfl := Option.some.inj ht
        exact hn (by decide)
      rw [readers_eq_ascend, List.flatMap_cons, Link.tokens, List.append_assoc,
        List.append_assoc]
      simp only [ascend, Parser.links, hop]
      refine descend_within fun budget' => ?_
      rw [hr budget' _ hstop]
      refine within_bind ?_
      rw [ih hcs hds hrs budget']
      exact within_bind_ok rfl

theorem Chained.operand_unique {level operand operand' : Level} (h : Chained level operand)
    (h' : Chained level operand') : operand' = operand := by
  cases h <;> cases h' <;> rfl

/-- From the tokens of a derivation the readers take the expression. The induction carries along
that chains grow to it. -/
theorem readAs_of_derivesIn {level : Level} {k d : Nat} {us : List Token} {e : Expr}
    (h : DerivesIn bound level k d us e) :
    ReadAs bound level d us e ∧
      ∀ operand, Chained level operand → GrowsTo bound level operand k d us e := by
  induction h with
  | operand hc _ ih =>
      have hgrow := growsTo_operand hc ih.1
      refine ⟨readAs_of_growsTo hc hgrow, fun _ hc' => ?_⟩
      rw [Chained.operand_unique hc hc']
      exact hgrow
  | chain hc hj _ _ ihl ihr =>
      have hgrow := growsTo_chain hc hj (ihl.2 _ hc) ihr.1
      refine ⟨readAs_of_growsTo hc hgrow, fun _ hc' => ?_⟩
      rw [Chained.operand_unique hc hc']
      exact hgrow
  | not hb _ ih =>
      refine ⟨fun budget rest hs => ?_, nofun⟩
      have hk : isKeyword bound "not" (.word "not") = true := isKeyword_eq_true.mpr ⟨rfl, hb⟩
      rw [readers_eq_ascend]
      simp only [ascend, expr, List.cons_append, negated, hk, if_true]
      refine descend_within fun budget' => ?_
      rw [ih.1 budget' rest hs]
      exact within_bind_ok rfl
  | comparison hd ih =>
      refine ⟨fun budget rest hs => ?_, nofun⟩
      obtain ⟨t, us, rfl, hn⟩ := hd.derives.exists_cons
      have hread := ih.1 budget rest (hs.mono (by decide))
      rw [readers_eq_ascend] at hread ⊢
      simpa [ascend, expr, negated, hn (by decide)] using hread
  | compare links steps depth hne _ hcs hds ih ihs =>
      refine ⟨fun budget rest hs => ?_, nofun⟩
      have hfirst := ih.1 budget _ (stops_links hne hcs rest)
      have hlinks := links_within hcs (fun l hl => (hds l hl).derives)
        (fun l hl => (ihs l hl).1) hs budget
      rw [readers_eq_ascend] at hfirst hlinks ⊢
      rw [List.append_assoc]
      refine (congrArg (· >>= _) hfirst).trans (within_bind ?_)
      refine (congrArg (· >>= _) hlinks).trans (within_bind_ok ?_)
      simp [hne, pure, Except.pure]
  | sum _ ih =>
      refine ⟨fun budget rest hs => ?_, nofun⟩
      have hread := ih.1 budget rest (hs.mono (by decide))
      have hlinks := links_of_stops (below bound budget) hs
      rw [readers_eq_ascend] at hread ⊢
      refine (congrArg (· >>= _) hread).trans (within_bind_ok ?_)
      exact congrArg (· >>= _) hlinks
  | sign hsign _ ih =>
      refine ⟨fun budget rest hs => ?_, nofun⟩
      rw [readers_eq_ascend]
      simp only [ascend, expr, List.cons_append, signed, sign?_eq_some.mpr hsign]
      refine descend_within fun budget' => ?_
      rw [ih.1 budget' rest hs]
      exact within_bind_ok rfl
  | primary hd ih =>
      refine ⟨fun budget rest hs => ?_, nofun⟩
      obtain ⟨t, us, rfl, hn⟩ := hd.derives.exists_cons_primary
      have hread := ih.1 budget rest (hs.mono (by decide))
      rw [readers_eq_ascend] at hread ⊢
      simpa [ascend, expr, signed, hn] using hread
  | brackets _ ih =>
      refine ⟨fun budget rest _ => ?_, nofun⟩
      rw [readers_eq_ascend]
      simp only [ascend, expr, List.cons_append, List.append_assoc, List.nil_append,
        primary_openParen]
      refine descend_within fun budget' => ?_
      rw [ih.1 budget' _ (stops_closeParen _ rest)]
      exact within_bind_ok rfl
  | atom h =>
      refine ⟨fun budget rest _ => ?_, nofun⟩
      rw [readers_eq_ascend]
      exact primary_of_derives h rest

/-! ## The budget -/

/-- If the readers run out of a budget, there were more operators than it has steps. -/
structure Affords (bound : String → Bool) (budget : Nat) (readers : Readers) : Prop where
  expr {level : Level} {ts : List Token} :
    readers.expr level ts = .error .tooDeep → budget < operatorCount bound ts
  chain {level operand : Level} {left : Expr} {ts : List Token} :
    readers.chain level operand left ts = .error .tooDeep → budget < operatorCount bound ts
  links {ts : List Token} :
    readers.links ts = .error .tooDeep → budget < operatorCount bound ts

theorem operatorCount_append (us ts : List Token) :
    operatorCount bound (us ++ ts) = operatorCount bound us + operatorCount bound ts :=
  List.countP_append ..

theorem operatorCount_cons {t : Token} (ht : isOperator bound t = true) (ts : List Token) :
    operatorCount bound (t :: ts) = operatorCount bound ts + 1 :=
  List.countP_cons_of_pos ht

theorem isOperator_of_joins {level : Level} {t : Token} {join : Expr → Expr → Expr}
    (h : Joins bound level t join) : isOperator bound t = true := by
  cases h <;> simp_all [isOperator, operatorWords]

theorem isOperator_of_signs {t : Token} {op : UnaryOp} (h : Signs t op) :
    isOperator bound t = true := by
  cases h <;> rfl

theorem operatorCount_pos_of_compares {sign : List Token} {op : CompareOp}
    (h : Compares bound sign op) : 0 < operatorCount bound sign := by
  cases h <;> simp_all [operatorCount, isOperator, operatorWords]

theorem ofWord_ne_tooDeep {w : String} : ofWord bound w ≠ .error .tooDeep := by
  grind [ofWord]

section

variable {budget : Nat} (ih : ∀ r ∈ below bound budget, Affords bound (budget - 1) r)
include ih

/-- A step down either is not there or leads to readers that ran out of the budget below. -/
theorem exhausted_descend {β : Type} {f : Readers → Except ParseError β} {n : Nat} (hn : 0 < n)
    (hf : ∀ r, Affords bound (budget - 1) r → Sound bound r → f r = .error .tooDeep →
      budget - 1 < n - 1)
    (h : (descend (below bound budget) >>= f) = .error .tooDeep) : budget < n := by
  cases budget with
  | zero => exact hn
  | succ budget =>
      have hlt := hf _ (ih _ rfl) (sound_readers budget) h
      omega

theorem exhausted_chain {level operand : Level} {left : Expr} {ts : List Token}
    (h : chain bound (below bound budget) level operand left ts = .error .tooDeep) :
    budget < operatorCount bound ts := by
  cases ts with
  | nil => cases h
  | cons t ts =>
      simp only [chain] at h
      split at h
      · cases h
      · rename_i join hj
        rw [operatorCount_cons (isOperator_of_joins (joint?_eq_some.mp hj))]
        refine exhausted_descend ih (Nat.succ_pos _) (fun r hr hsound h₁ => ?_) h
        rcases error_of_bind_eq_error h₁ with h₂ | ⟨⟨right, rest⟩, hop, h₂⟩
        · exact hr.expr h₂
        · obtain ⟨us, rfl, -⟩ := hsound.expr hop
          have hlt : budget - 1 < operatorCount bound rest := hr.chain h₂
          rw [operatorCount_append]
          omega

theorem exhausted_links {ts : List Token}
    (h : links bound (below bound budget) ts = .error .tooDeep) :
    budget < operatorCount bound ts := by
  unfold links at h
  split at h
  · cases h
  · rename_i op ts' hop
    obtain ⟨sign, rfl, hsign⟩ := exists_of_compare?_eq_some hop
    have hpos := operatorCount_pos_of_compares hsign
    rw [operatorCount_append]
    refine exhausted_descend ih (by omega) (fun r hr hsound h₁ => ?_) h
    rcases error_of_bind_eq_error h₁ with h₂ | ⟨⟨operand, rest⟩, hoperand, h₂⟩
    · have hlt := hr.expr h₂
      omega
    · obtain ⟨us, rfl, -⟩ := hsound.expr hoperand
      rcases error_of_bind_eq_error h₂ with h₃ | ⟨_, _, h₃⟩
      · have hlt := hr.links h₃
        rw [operatorCount_append]
        omega
      · cases h₃

theorem exhausted_primary {ts : List Token}
    (h : primary bound (below bound budget) ts = .error .tooDeep) :
    budget < operatorCount bound ts := by
  cases ts with
  | nil => cases h
  | cons t ts =>
      cases t with
      | word w =>
          rw [primary_word] at h
          rcases error_of_bind_eq_error h with h₁ | ⟨_, _, h₁⟩
          · exact absurd h₁ ofWord_ne_tooDeep
          · cases h₁
      | openParen =>
          rw [primary_openParen] at h
          rw [operatorCount_cons rfl]
          refine exhausted_descend ih (Nat.succ_pos _) (fun r hr _ h₁ => ?_) h
          rcases error_of_bind_eq_error h₁ with h₂ | ⟨⟨inner, rest⟩, -, h₂⟩
          · exact hr.expr h₂
          · simp only at h₂
            split at h₂ <;> cases h₂
      | _ => cases h

theorem exhausted_signed {ts : List Token}
    (h : signed bound (below bound budget) ts = .error .tooDeep) :
    budget < operatorCount bound ts := by
  unfold signed at h
  split at h
  · exact exhausted_primary ih h
  · rename_i t ts'
    split at h
    · exact exhausted_primary ih h
    · rename_i op hs
      rw [operatorCount_cons (isOperator_of_signs (sign?_eq_some.mp hs))]
      refine exhausted_descend ih (Nat.succ_pos _) (fun r hr _ h₁ => ?_) h
      rcases error_of_bind_eq_error h₁ with h₂ | ⟨_, _, h₂⟩
      · exact hr.expr h₂
      · cases h₂

/-- A chain level affords what the level of its operands does. -/
theorem exhausted_chained {level operand : Level} {left : Reader Expr}
    (hsound : ∀ {ts rest : List Token} {e : Expr}, left ts = .ok (e, rest) →
      ∃ us, ts = us ++ rest ∧ Derives bound operand us e)
    (hleft : ∀ {ts : List Token}, left ts = .error .tooDeep → budget < operatorCount bound ts)
    {ts : List Token}
    (h : (do let (l, mid) ← left ts; chain bound (below bound budget) level operand l mid) =
      .error .tooDeep) :
    budget < operatorCount bound ts := by
  rcases error_of_bind_eq_error h with h₁ | ⟨⟨l, mid⟩, hl, h₁⟩
  · exact hleft h₁
  · obtain ⟨us, rfl, -⟩ := hsound hl
    have hlt : budget < operatorCount bound mid := exhausted_chain ih h₁
    rw [operatorCount_append]
    omega

end

section

variable {budget : Nat} (ih : ∀ r ∈ below bound budget, Affords bound (budget - 1) r)
include ih

theorem exhausted_product {ts : List Token}
    (h : product bound (below bound budget) ts = .error .tooDeep) :
    budget < operatorCount bound ts :=
  exhausted_chained ih (sound_signed sound_below) (exhausted_signed ih) h

theorem exhausted_sum {ts : List Token} (h : sum bound (below bound budget) ts = .error .tooDeep) :
    budget < operatorCount bound ts :=
  exhausted_chained ih (sound_product sound_below) (exhausted_product ih) h

theorem exhausted_comparison {ts : List Token}
    (h : comparison bound (below bound budget) ts = .error .tooDeep) :
    budget < operatorCount bound ts := by
  rcases error_of_bind_eq_error h with h₁ | ⟨⟨first, mid⟩, hfirst, h₁⟩
  · exact exhausted_sum ih h₁
  · obtain ⟨us, rfl, -⟩ := sound_sum sound_below hfirst
    rcases error_of_bind_eq_error h₁ with h₂ | ⟨_, _, h₂⟩
    · have hlt : budget < operatorCount bound mid := exhausted_links ih h₂
      rw [operatorCount_append]
      omega
    · cases h₂

theorem exhausted_negated {ts : List Token}
    (h : negated bound (below bound budget) ts = .error .tooDeep) :
    budget < operatorCount bound ts := by
  unfold negated at h
  split at h
  · exact exhausted_comparison ih h
  · rename_i t ts'
    split at h
    · rename_i hk
      obtain ⟨rfl, hb⟩ := isKeyword_eq_true.mp hk
      rw [operatorCount_cons (by simp [isOperator, hb, operatorWords])]
      refine exhausted_descend ih (Nat.succ_pos _) (fun r hr _ h₁ => ?_) h
      rcases error_of_bind_eq_error h₁ with h₂ | ⟨_, _, h₂⟩
      · exact hr.expr h₂
      · cases h₂
    · exact exhausted_comparison ih h

theorem exhausted_conjunction {ts : List Token}
    (h : conjunction bound (below bound budget) ts = .error .tooDeep) :
    budget < operatorCount bound ts :=
  exhausted_chained ih (sound_negated sound_below) (exhausted_negated ih) h

theorem exhausted_disjunction {ts : List Token}
    (h : disjunction bound (below bound budget) ts = .error .tooDeep) :
    budget < operatorCount bound ts :=
  exhausted_chained ih (sound_conjunction sound_below) (exhausted_conjunction ih) h

theorem affords_ascend : Affords bound budget (ascend bound (below bound budget)) where
  expr {level _} h :=
    match level with
    | .or => exhausted_disjunction ih h
    | .and => exhausted_conjunction ih h
    | .not => exhausted_negated ih h
    | .comparison => exhausted_comparison ih h
    | .sum => exhausted_sum ih h
    | .product => exhausted_product ih h
    | .sign => exhausted_signed ih h
    | .primary => exhausted_primary ih h
  chain := exhausted_chain ih
  links := exhausted_links ih

end

/-- A budget of one step for each operator is enough. -/
theorem affords_readers (budget : Nat) : Affords bound budget (readers bound budget) := by
  rw [readers_eq_ascend]
  induction budget with
  | zero => exact affords_ascend nofun
  | succ budget ih =>
      refine affords_ascend fun r hr => ?_
      obtain rfl := Option.some.inj hr
      rw [readers_eq_ascend]
      exact ih

end Parser

namespace Expr

open Grammar

variable {bound : String → Bool}

theorem ofTokens_eq {ts : List Token} (h : ts ≠ []) :
    ofTokens bound ts = (do
      let (e, rest) ← (Parser.readers bound maxDepth).expr .or ts
      match rest with
      | [] => .ok e
      | t :: _ => .error (.unexpectedToken t)) := by
  obtain ⟨t, ts, rfl⟩ := List.exists_cons_of_ne_nil h
  unfold ofTokens
  cases (Parser.readers bound maxDepth).expr .or (t :: ts) with
  | error e => rfl
  | ok p =>
      obtain ⟨e, _ | ⟨t, rest⟩⟩ := p <;> rfl

/-- What the tokens are read as they derive. -/
theorem derives_of_ofTokens {ts : List Token} {e : Expr} (h : ofTokens bound ts = .ok e) :
    Derives bound .or ts e := by
  have hne : ts ≠ [] := by
    rintro rfl
    cases h
  rw [ofTokens_eq hne] at h
  obtain ⟨⟨e', rest⟩, hread, h₁⟩ := exists_of_bind_eq_ok h
  obtain ⟨us, rfl, hus⟩ := (Parser.sound_readers _).expr hread
  cases rest with
  | nil =>
      obtain rfl := Except.ok.inj h₁
      rwa [List.append_nil]
  | cons t rest => cases h₁

/-- What the tokens derive at some depth they are read as, if the budget allows for the depth. -/
theorem ofTokens_of_derivesIn {k d : Nat} {ts : List Token} {e : Expr}
    (h : DerivesIn bound .or k d ts e) :
    ofTokens bound ts = Parser.within d maxDepth (.ok e) := by
  have hne : ts ≠ [] := by
    obtain ⟨t, us, rfl, -⟩ := h.derives.exists_cons
    nofun
  have hread := (Parser.readAs_of_derivesIn h).1 maxDepth [] (Parser.stops_nil .or)
  rw [List.append_nil] at hread
  rw [ofTokens_eq hne, hread]
  exact Parser.within_bind_ok rfl

/-- No tokens derive two expressions: with budget enough for both, one is read. -/
theorem derives_unique {ts : List Token} {e e' : Expr} (h : Derives bound .or ts e)
    (h' : Derives bound .or ts e') : e' = e := by
  obtain ⟨k, d, hd⟩ := h.exists_derivesIn
  obtain ⟨k', d', hd'⟩ := h'.exists_derivesIn
  have hread := (Parser.readAs_of_derivesIn hd).1 (max d d') [] (Parser.stops_nil .or)
  have hread' := (Parser.readAs_of_derivesIn hd').1 (max d d') [] (Parser.stops_nil .or)
  have heq := hread'.symm.trans hread
  simp only [Parser.within, Nat.le_max_left, Nat.le_max_right, if_true] at heq
  exact (Prod.mk.inj (Except.ok.inj heq)).1

/-- Tokens that are too deep hold more operators than the budget has steps. -/
theorem operatorCount_of_ofTokens {ts : List Token} (h : ofTokens bound ts = .error .tooDeep) :
    maxDepth < operatorCount bound ts := by
  have hne : ts ≠ [] := by
    rintro rfl
    cases h
  rw [ofTokens_eq hne] at h
  rcases error_of_bind_eq_error h with h₁ | ⟨⟨e, rest⟩, -, h₁⟩
  · exact (Parser.affords_readers _).expr h₁
  · cases rest with
    | nil => cases h₁
    | cons t rest => cases h₁

/-- The tokens are read by the grammar. For every set of bound names, what is read is derived by
all the tokens; what is derived is read, unless it is too deep, and is the only expression that is
derived; and nothing is too deep that has no more operators than there may be levels. -/
theorem ofTokens_iff_derives (bound : String → Bool) (ts : List Token) :
    (∀ e, ofTokens bound ts = .ok e → Derives bound .or ts e) ∧
      (∀ e, Derives bound .or ts e →
        (ofTokens bound ts = .ok e ∨ ofTokens bound ts = .error .tooDeep) ∧
          ∀ e', Derives bound .or ts e' → e' = e) ∧
        (operatorCount bound ts ≤ 200 → ofTokens bound ts ≠ .error .tooDeep) ∧
          ParseError.tooDeep.detail = "expression nested too deeply" := by
  refine ⟨fun e h => derives_of_ofTokens h, fun e h => ⟨?_, fun e' h' => derives_unique h h'⟩, ?_,
    rfl⟩
  · obtain ⟨k, d, hd⟩ := h.exists_derivesIn
    rw [ofTokens_of_derivesIn hd, Parser.within]
    by_cases hle : d ≤ maxDepth
    · exact Or.inl (if_pos hle)
    · exact Or.inr (if_neg hle)
  · intro hcount hdeep
    have hlt := operatorCount_of_ofTokens hdeep
    exact absurd hcount (Nat.not_le_of_lt hlt)

end Expr

end LineShell
