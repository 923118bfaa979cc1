import LineShell.Proofs.Expr.Completeness
import LineShell.Proofs.Expr.Lexing
import LineShell.Proofs.Expr.Paths

/-!
# How high expressions are

The depth up to which expressions are read does not bound the height of their trees. A chain nests
what it has read so far one deeper with every step, and what stands in front of its first operator
may have used the whole budget before. What the depth does bound is the number of turns that a path
takes to other than first operands (`count_other_le_of_derivesIn`), and thereby the height by a
square of the depth (`height_le_of_derivesIn`); some texts reach this bound.
-/

namespace LineShell

open LineShell.Expr Grammar

variable {bound : String → Bool}

/-! ## Turns -/

theorem eq_nil_of_atom {t : Token} {e : Expr} (h : Derives bound .primary [t] e)
    {p : List Turn} (hp : e.HasPath p) : p = [] := by
  generalize hts : [t] = ts at h
  cases h with
  | operand hc _ => cases hc
  | chain hc _ _ _ => cases hc
  | brackets h =>
      obtain ⟨u, us, rfl, -⟩ := h.exists_cons
      cases hts
  | integer | float | text | trueWord | falseWord | name =>
      cases hp
      rfl

/-- A path below a joint goes on to one of its sides. -/
theorem hasPath_join {level : Level} {t : Token} {join : Expr → Expr → Expr} {l r : Expr}
    {p : List Turn} (hj : Joins bound level t join) (h : (join l r).HasPath p) :
    (∃ q, p = .first :: q ∧ l.HasPath q) ∨ ∃ q, p = .other :: q ∧ r.HasPath q := by
  cases hj <;> cases h
  all_goals first
    | exact Or.inl ⟨_, rfl, ‹_›⟩
    | exact Or.inr ⟨_, rfl, ‹_›⟩

theorem lt_linksDepth {d : Nat} {ds : List Nat} (h : d ∈ ds) : d < linksDepth ds := by
  induction ds with
  | nil => cases h
  | cons d' ds ih =>
      simp only [linksDepth]
      rcases List.mem_cons.mp h with rfl | h
      · omega
      · have hlt := ih h
        omega

/-- No path takes more turns to other than first operands than the depth. -/
theorem count_other_le_of_derivesIn {level : Level} {k d : Nat} {ts : List Token} {e : Expr}
    (h : DerivesIn bound level k d ts e) {p : List Turn} (hp : e.HasPath p) :
    p.count .other ≤ d := by
  induction h generalizing p with
  | operand _ _ ih => exact ih hp
  | chain _ hj _ _ ihl ihr =>
      rcases hasPath_join hj hp with ⟨q, rfl, hq⟩ | ⟨q, rfl, hq⟩
      · have hle := ihl hq
        rw [List.count_cons_of_ne (by decide)]
        omega
      · have hle := ihr hq
        rw [List.count_cons_self]
        omega
  | not _ _ ih | sign _ _ ih =>
      cases hp with
      | unary hq =>
          rw [List.count_cons_self]
          exact Nat.succ_le_succ (ih hq)
  | comparison _ ih | sum _ ih | primary _ ih => exact ih hp
  | compare links _ depth _ _ _ _ ih ihs =>
      cases hp with
      | compareFirst hq =>
          have hle := ih hq
          rw [List.count_cons_of_ne (by decide)]
          omega
      | compareOther hmem hq =>
          obtain ⟨l, hl, rfl⟩ := List.mem_map.mp hmem
          have hle := ihs l hl hq
          have hlt := lt_linksDepth (List.mem_map_of_mem (f := depth) hl)
          rw [List.count_cons_self]
          omega
  | brackets _ ih => exact Nat.le_succ_of_le (ih hp)
  | atom h =>
      rw [eq_nil_of_atom h hp]
      exact Nat.le_refl _

/-! ## Heights -/

/-- The greatest height at the level of signs. One more step of depth may be spent on a bracket,
around the highest expression that there is without it. -/
def signHeight : Nat → Nat
  | 0 => 0
  | d + 1 => signHeight d + 4 * d + 1

/-- The greatest height at a level, the steps of its own chain apart. -/
def baseHeight : Level → Nat → Nat
  | .primary, d | .sign, d | .product, d => signHeight d
  | .sum, d => signHeight d + d
  | .comparison, d | .not, d | .and, d => signHeight d + 2 * d + min d 1
  | .or, d => signHeight d + 3 * d + min d 1

/-- The greatest number of steps of a chain of the level. -/
def chainLength : Level → Nat → Nat
  | .or, d | .and, d | .sum, d | .product, d => d
  | .not, _ | .comparison, _ | .sign, _ | .primary, _ => 0

theorem signHeight_mono {d d' : Nat} (h : d ≤ d') : signHeight d ≤ signHeight d' := by
  induction h with
  | refl => exact Nat.le_refl _
  | step _ ih =>
      simp only [signHeight]
      omega

theorem baseHeight_mono (level : Level) {d d' : Nat} (h : d ≤ d') :
    baseHeight level d ≤ baseHeight level d' := by
  have hsign := signHeight_mono h
  cases level <;> simp only [baseHeight] <;> omega

theorem baseHeight_of_chained {level operand : Level} (h : Chained level operand) (d : Nat) :
    baseHeight level d = baseHeight operand d + chainLength operand d := by
  cases h <;> simp only [baseHeight, chainLength] <;> omega

theorem chainLength_of_chained {level operand : Level} (h : Chained level operand) (d : Nat) :
    chainLength level d = d := by
  cases h <;> rfl

theorem height_join {level : Level} {t : Token} {join : Expr → Expr → Expr}
    (hj : Joins bound level t join) (l r : Expr) :
    (join l r).height = max l.height r.height + 1 := by
  cases hj <;> rfl

/-- The steps of the chain are counted apart, because what has been read so far was read within the
same depth and yet comes to stand below every later step. -/
theorem height_le_of_derivesIn {level : Level} {k d : Nat} {ts : List Token} {e : Expr}
    (h : DerivesIn bound level k d ts e) :
    e.height ≤ baseHeight level d + k ∧ k ≤ chainLength level d := by
  induction h with
  | @operand _ _ _ d _ _ hc _ ih =>
      have hbase := baseHeight_of_chained hc d
      omega
  | @chain level _ _ _ k d k' d' _ _ l r hc hj _ _ ihl ihr =>
      have hbase := baseHeight_of_chained hc d'
      have hleft := baseHeight_mono level (Nat.le_max_left d (k + 1 + d'))
      have hright := baseHeight_mono level
        (Nat.le_trans (Nat.le_add_left d' (k + 1)) (Nat.le_max_right d (k + 1 + d')))
      rw [height_join hj, chainLength_of_chained hc]
      omega
  | not _ _ ih =>
      simp only [height, baseHeight, chainLength, signHeight] at ih ⊢
      omega
  | comparison _ ih | primary _ ih | sum _ ih =>
      simp only [baseHeight, chainLength] at ih ⊢
      omega
  | @compare _ d _ e links steps depth hne _ _ _ ih ihs =>
      have hne' : links.map Link.entry ≠ [] := by simpa using hne
      obtain ⟨l', hmem, heq⟩ := exists_height_eq_heightOfLinks hne'
      obtain ⟨l, hl, rfl⟩ := List.mem_map.mp hmem
      have hlink := ihs l hl
      have hlt := lt_linksDepth (List.mem_map_of_mem (f := depth) hl)
      have hfirst := signHeight_mono (Nat.le_max_left d (linksDepth (links.map depth)))
      have hrest := signHeight_mono
        (Nat.le_trans (Nat.le_of_lt hlt) (Nat.le_max_right d (linksDepth (links.map depth))))
      rw [height, ← heq]
      simp only [Link.entry, baseHeight, chainLength] at hlink ih ⊢
      omega
  | sign _ _ ih =>
      simp only [height, baseHeight, chainLength, signHeight] at ih ⊢
      omega
  | brackets _ ih =>
      simp only [baseHeight, chainLength, signHeight] at ih ⊢
      omega
  | @atom _ e h =>
      obtain ⟨p, hp, hlen⟩ := e.exists_hasPath
      rw [← hlen, eq_nil_of_atom h hp]
      exact ⟨Nat.zero_le _, Nat.le_refl _⟩

/-- The greatest height of an expression that is read within the depth. -/
def worstHeight (d : Nat) : Nat := baseHeight .or d + d

theorem worstHeight_maxDepth : worstHeight maxDepth = 80601 := by decide +kernel

theorem height_le_worstHeight {k d d' : Nat} {ts : List Token} {e : Expr}
    (h : DerivesIn bound .or k d ts e) (hd : d ≤ d') : e.height ≤ worstHeight d' := by
  have hle := height_le_of_derivesIn h
  have hmono := baseHeight_mono .or hd
  simp only [chainLength, worstHeight] at hle ⊢
  omega

/-! ## Texts that reach the bound -/

/-- No word is bound. -/
def unbound : String → Bool := fun _ => false

/-- The tokens that the highest expressions are made of. -/
def highTokens : List Token :=
  [.integer 1, .plus, .minus, .star, .openParen, .closeParen, .equal, .word "and", .word "or"]

/-- At the level and within the depth there is an expression so high, made of those tokens. -/
def Reaches (level : Level) (d height : Nat) : Prop :=
  ∃ k ts e, DerivesIn unbound level k d ts e ∧ e.height = height ∧ ∀ t ∈ ts, t ∈ highTokens

theorem derivesIn_one (level : Level) :
    ∃ k, DerivesIn unbound level k 0 [.integer 1] (.literal (.integer 1)) := by
  have hsign : DerivesIn unbound .sign 0 0 [.integer 1] (.literal (.integer 1)) :=
    .primary (.atom (.integer 1))
  have hsum : DerivesIn unbound .sum 0 0 [.integer 1] (.literal (.integer 1)) :=
    .operand .sum (.operand .product hsign)
  have hnot : DerivesIn unbound .not 0 0 [.integer 1] (.literal (.integer 1)) :=
    .comparison (.sum hsum)
  cases level with
  | or => exact ⟨_, .operand .or (.operand .and hnot)⟩
  | and => exact ⟨_, .operand .and hnot⟩
  | not => exact ⟨_, hnot⟩
  | comparison => exact ⟨_, .sum hsum⟩
  | sum => exact ⟨_, hsum⟩
  | product => exact ⟨_, .operand .product hsign⟩
  | sign => exact ⟨_, hsign⟩
  | primary => exact ⟨_, .atom (.integer 1)⟩

/-- A chain may take as many steps as the depth, with an operand each that is no deeper. -/
theorem reaches_chain {level operand : Level} (hc : Chained level operand) {t : Token}
    {join : Expr → Expr → Expr} (hj : Joins unbound level t join) (ht : t ∈ highTokens)
    {d height : Nat} (h : Reaches operand d height) : Reaches level d (height + d) := by
  obtain ⟨k, ts, e, hd, hheight, hts⟩ := h
  obtain ⟨k', hone⟩ := derivesIn_one operand
  have hsteps : ∀ n ≤ d, ∃ us e', DerivesIn unbound level n d us e' ∧
      e'.height = height + n ∧ ∀ u ∈ us, u ∈ highTokens := by
    intro n hn
    induction n with
    | zero => exact ⟨ts, e, .operand hc hd, hheight, hts⟩
    | succ n ih =>
        obtain ⟨us, e', hd', hheight', hus⟩ := ih (Nat.le_of_succ_le hn)
        have hchain := DerivesIn.chain hc hj hd' hone
        rw [Nat.max_eq_left hn] at hchain
        refine ⟨_, _, hchain, ?_, ?_⟩
        · rw [height_join hj, hheight']
          simp only [Expr.height]
          omega
        · intro u hu
          rcases List.mem_append.mp hu with hu | hu
          · exact hus u hu
          · rcases List.mem_cons.mp hu with rfl | hu
            · exact ht
            · rw [List.mem_singleton.mp hu]
              decide
  obtain ⟨us, e', hd', hheight', hus⟩ := hsteps d (Nat.le_refl d)
  exact ⟨d, us, e', hd', hheight', hus⟩

theorem reaches_comparison {d height : Nat} (h : Reaches .sum (d + 1) height) :
    Reaches .not (d + 1) (height + 1) := by
  obtain ⟨k, ts, e, hd, hheight, hts⟩ := h
  obtain ⟨k', hone⟩ := derivesIn_one .sum
  have hcompare := DerivesIn.compare [⟨[.equal], .eq, [.integer 1], .literal (.integer 1)⟩]
    (fun _ => k') (fun _ => 0) (by decide) hd
    (fun l hl => by rw [List.mem_singleton.mp hl]; exact .eq)
    (fun l hl => by rw [List.mem_singleton.mp hl]; exact hone)
  have hdepth : max (d + 1) (linksDepth [0]) = d + 1 := by simp [linksDepth]
  rw [List.map_singleton, hdepth] at hcompare
  refine ⟨_, _, _, .comparison hcompare, ?_, ?_⟩
  · simp [Expr.height, Expr.height.heightOfLinks, Link.entry, hheight]
  · intro t ht
    rcases List.mem_append.mp ht with ht | ht
    · exact hts t ht
    · exact (by decide : ∀ u ∈ [Token.equal, .integer 1], u ∈ highTokens) t ht

/-- From the level of signs the other levels add all that their bounds allow. -/
theorem reaches_worst {d : Nat} (h : Reaches .sign (d + 1) (signHeight (d + 1))) :
    Reaches .or (d + 1) (worstHeight (d + 1)) := by
  have hproduct := reaches_chain .product .mul (by decide) h
  have hsum := reaches_chain .sum .add (by decide) hproduct
  have hnot := reaches_comparison hsum
  have hand := reaches_chain .and (.and rfl) (by decide) hnot
  have hor := reaches_chain .or (.or rfl) (by decide) hand
  have heq : worstHeight (d + 1) =
      signHeight (d + 1) + (d + 1) + (d + 1) + 1 + (d + 1) + (d + 1) := by
    simp only [worstHeight, baseHeight]
    omega
  rwa [heq]

/-- A sign in front of a constant is the highest sign of depth one. At any greater depth it is a
bracket around the highest expression of the depth below. -/
theorem reaches_sign (d : Nat) : Reaches .sign (d + 1) (signHeight (d + 1)) := by
  obtain ⟨k, hone⟩ := derivesIn_one .sign
  induction d with
  | zero => exact ⟨_, _, _, .sign .neg hone, rfl, by decide⟩
  | succ d ih =>
      obtain ⟨k', ts, e, hd, hheight, hts⟩ := reaches_worst ih
      refine ⟨_, _, _, .primary (.brackets hd), ?_, ?_⟩
      · rw [hheight]
        simp only [worstHeight, baseHeight, signHeight]
        omega
      · intro t ht
        simp only [List.cons_append, List.mem_cons, List.mem_append, List.not_mem_nil,
          or_false] at ht
        rcases ht with rfl | ht | rfl
        · decide
        · exact hts t ht
        · decide

/-- The height that no expression exceeds is the height of some. -/
theorem exists_height_eq : ∃ s e, ofText unbound s = .ok e ∧ e.height = 80601 := by
  rw [← worstHeight_maxDepth]
  obtain ⟨k, ts, e, hd, hheight, hts⟩ := reaches_worst (reaches_sign 199)
  obtain ⟨cs, hcs⟩ := Token.exists_ofChars fun t ht => Token.exists_spelledBy (hts t ht)
  refine ⟨String.ofList cs, e, ?_, hheight⟩
  rw [ofText, String.toList_ofList, hcs]
  exact ofTokens_of_derivesIn hd

/-! ## What the depth bounds -/

/-- What is read from a text derives within the depth. -/
theorem derivesIn_of_ofText {s : String} {e : Expr} (h : ofText bound s = .ok e) :
    ∃ k d ts, d ≤ maxDepth ∧ DerivesIn bound .or k d ts e := by
  unfold ofText at h
  split at h
  · cases h
  · rename_i ts hts
    obtain ⟨k, d, hd⟩ := (derives_of_ofTokens h).exists_derivesIn
    refine ⟨k, d, ts, ?_, hd⟩
    rw [ofTokens_of_derivesIn hd, Parser.within] at h
    split at h
    · assumption
    · cases h

/-- As many signs as the depth allows may stand in front of the first operand of a sum. -/
theorem derivesIn_signs (n : Nat) :
    ∃ e k, DerivesIn unbound .sign k n (List.replicate n .minus ++ [.integer 1]) e ∧
      e.height = n := by
  induction n with
  | zero => exact ⟨_, _, .primary (.atom (.integer 1)), rfl⟩
  | succ n ih =>
      obtain ⟨e, k, hd, hheight⟩ := ih
      exact ⟨_, _, .sign .neg hd, congrArg (· + 1) hheight⟩

theorem ofChars_signs (n : Nat) :
    Token.ofChars (List.replicate n '-' ++ "1 + 1".toList) =
      .ok (List.replicate n .minus ++ [.integer 1, .plus, .integer 1]) := by
  induction n with
  | zero =>
      have hone : Token.ofChars ['1'] = .ok [.integer 1] := by
        have hlex : Token.lexeme '1' [] = .ok (.integer 1, []) := rfl
        rw [Token.ofChars_lexeme (by decide) hlex, Token.ofChars_nil]
        rfl
      show Token.ofChars ['1', ' ', '+', ' ', '1'] = _
      rw [Token.ofChars_lexeme (by decide) rfl, Token.ofChars_blank (by decide),
        Token.ofChars_lexeme (by decide) rfl, Token.ofChars_blank (by decide), hone]
      rfl
  | succ n ih =>
      rw [List.replicate_succ, List.cons_append, Token.ofChars_lexeme (by decide) rfl, ih]
      rfl

theorem exists_ofText_signs {n : Nat} (h : n ≤ 200) :
    ∃ e, ofText unbound (String.ofList (List.replicate n '-' ++ "1 + 1".toList)) = .ok e ∧
      e.height = n + 1 := by
  obtain ⟨l, k, hl, hheight⟩ := derivesIn_signs n
  obtain ⟨k', hr⟩ := derivesIn_one .product
  have hd := DerivesIn.operand .or (.operand .and (.comparison (.sum
    (.chain .sum .add (.operand .sum (.operand .product hl)) hr))))
  rw [List.append_assoc] at hd
  refine ⟨.binary .add l (.literal (.integer 1)), ?_, ?_⟩
  · rw [ofText, String.toList_ofList, ofChars_signs]
    have hle : max n 1 ≤ maxDepth := Nat.max_le.mpr ⟨h, by decide⟩
    exact (ofTokens_of_derivesIn hd).trans (if_pos hle)
  · simp [Expr.height, hheight]

/-- What the depth bounds. Of an expression that is read, no path takes more than 200 turns to
other than first operands. So its height is at most 200 exactly if its paths through first operands
are no longer than that. In any case it is at most 80601, and that is the height of some
(`exists_height_eq`). -/
theorem height_le_maxDepth_iff {s : String} {e : Expr} (h : ofText bound s = .ok e) :
    (e.height ≤ 200 ↔ ∀ p, e.HasPath p → .first ∈ p → p.length ≤ 200) ∧
      (∀ p, e.HasPath p → p.count .other ≤ 200) ∧ e.height ≤ 80601 := by
  obtain ⟨k, d, ts, hle, hd⟩ := derivesIn_of_ofText h
  have hcount : ∀ p, e.HasPath p → p.count .other ≤ 200 := by
    intro p hp
    exact Nat.le_trans (count_other_le_of_derivesIn hd hp) hle
  refine ⟨⟨fun hh p hp _ => height_le_iff.mp hh p hp, fun hfirst => ?_⟩, hcount, ?_⟩
  · refine height_le_iff.mpr fun p hp => ?_
    by_cases hmem : .first ∈ p
    · exact hfirst p hp hmem
    · -- Every turn is to another than a first operand.
      have hall : p.count .other = p.length := by
        rw [List.count_eq_length]
        intro turn ht
        cases turn with
        | first => exact absurd ht hmem
        | other => rfl
      exact hall ▸ hcount p hp
  · rw [← worstHeight_maxDepth]
    exact height_le_worstHeight hd hle

/-- Behind 199 signs the height of a sum is just what the depth allows. -/
theorem height_le_of_signs :
    ∃ e, ofText (fun _ => false) (String.ofList (List.replicate 199 '-' ++ "1 + 1".toList)) =
        .ok e ∧ ∀ p, e.HasPath p → .first ∈ p → p.length ≤ 200 := by
  obtain ⟨e, hread, hheight⟩ := exists_ofText_signs (n := 199) (by decide)
  exact ⟨e, hread, (height_le_maxDepth_iff hread).1.mp (Nat.le_of_eq hheight)⟩

/-- Behind 200 signs it is greater. -/
theorem maxDepth_lt_height :
    ∃ e, ofText (fun _ => false) (String.ofList (List.replicate 200 '-' ++ "1 + 1".toList)) =
        .ok e ∧ ¬ e.height ≤ 200 := by
  obtain ⟨e, hread, hheight⟩ := exists_ofText_signs (n := 200) (by decide)
  exact ⟨e, hread, by omega⟩

end LineShell
