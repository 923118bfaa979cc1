import LineShell.Toml.Quoted
import LineShell.Toml.Quoted.Reader

/-!
# Written text is read back

A text that is written between quotes is what is read from there, whatever is behind it, as long as
that is no quote. Each of the two escaped forms is taken apart character by character: what stands
for a character, by itself or behind a backslash, adds that character to what is read
(`basic_printed`, `basic_escape` and their long counterparts). The literal forms hold no character
that ends them. Which form is chosen matters only for these conditions (`formOf`).
-/

namespace LineShell.Toml.Quoted

variable {c : Char} {cs e rest : List Char}

/-! ## Escapes -/

/-- What stands behind a backslash for a character, and does not continue a line. -/
structure IsEscape (e : List Char) (c : Char) : Prop where
  escaped : ∀ cs, Quoted.escaped (e ++ cs) = some (c, cs)
  notContinued : ∀ cs, continued? (e ++ cs) = none

theorem hexDigit?_upperHexDigit {d : Nat} (h : d < 16) :
    Text.hexDigit? (upperHexDigit d) = some d := by
  have hall : ∀ d : Fin 16, Text.hexDigit? (upperHexDigit d) = some d.val := by decide
  exact hall ⟨d, h⟩

/-- A code point that is written is that of the character. -/
theorem isEscape_codePoint (h : c.toNat < 256) : IsEscape (codePoint c).tail c := by
  have hhigh := hexDigit?_upperHexDigit (d := c.toNat / 16) (by omega)
  have hlow := hexDigit?_upperHexDigit (d := c.toNat % 16) (by omega)
  have hnumber : Text.hexNumber? ['0', '0', upperHexDigit (c.toNat / 16),
      upperHexDigit (c.toNat % 16)] = some c.toNat := by
    have hzero : Text.hexDigit? '0' = some 0 := rfl
    have hsum : ((0 * 16 + 0) * 16 + 0) * 16 + c.toNat / 16 = c.toNat / 16 := by omega
    have hback : c.toNat / 16 * 16 + c.toNat % 16 = c.toNat := by omega
    simp only [Text.hexNumber?, Text.hexNumberFrom?, hzero, hhigh, hlow, Option.bind_eq_bind,
      Option.bind_some, hsum, hback]
  refine ⟨fun cs => ?_, fun cs => rfl⟩
  have hvalid : c.toNat.isValidChar := c.valid
  have htake :
      (['0', '0', upperHexDigit (c.toNat / 16), upperHexDigit (c.toNat % 16)] ++ cs).take 4 =
      ['0', '0', upperHexDigit (c.toNat / 16), upperHexDigit (c.toNat % 16)] := rfl
  show codePoint? 4
    (['0', '0', upperHexDigit (c.toNat / 16), upperHexDigit (c.toNat % 16)] ++ cs) = _
  rw [codePoint?, if_pos (by simp), htake, hnumber]
  simp only [if_pos hvalid, Char.ofNat_toNat]
  rfl

theorem toNat_of_isControl (h : isControl c = true) : c.toNat < 256 := by
  simp only [isControl, Bool.or_eq_true, Bool.and_eq_true, decide_eq_true_eq, beq_iff_eq] at h
  omega

theorem isPrinted_of_not_isControl (h : isControl c = false) (hline : c ≠ '\n') :
    isPrinted c = true := by
  simp only [isControl, Bool.or_eq_false_iff, Bool.and_eq_false_iff, decide_eq_false_iff_not,
    bne_eq_false_iff_eq, beq_eq_false_iff_ne] at h
  simp only [isPrinted, Bool.or_eq_true, beq_iff_eq, Bool.and_eq_true, decide_eq_true_eq,
    bne_iff_ne]
  rcases h with ⟨(hsmall | rfl) | rfl, hdel⟩
  · exact Or.inr ⟨by omega, hdel⟩
  · exact absurd rfl hline
  · exact Or.inl rfl

/-- A character that is no quote and no line feed stands for itself or is escaped. -/
theorem escape_cases (hline : c ≠ '\n') :
    escape c = [c] ∧ isPrinted c = true ∧ c ≠ '\\' ∨ ∃ e, escape c = '\\' :: e ∧ IsEscape e c := by
  unfold escape
  split
  case h_6 hback =>
    cases hcontrol : isControl c with
    | true => exact Or.inr ⟨_, if_pos rfl, isEscape_codePoint (toNat_of_isControl hcontrol)⟩
    | false =>
        exact Or.inl ⟨if_neg Bool.false_ne_true, isPrinted_of_not_isControl hcontrol hline, hback⟩
  all_goals exact Or.inr ⟨_, rfl, fun _ => rfl, fun _ => rfl⟩

/-! ## Text on one line -/

theorem basic_quote (cs : List Char) : basic ('\x22' :: cs) = some ([], cs) := by
  rw [basic, if_pos rfl]

theorem basic_printed (hc : isPrinted c = true) (hquote : c ≠ '\x22') (hback : c ≠ '\\') :
    basic (c :: cs) = (basic cs).map fun (ds, rest) => (c :: ds, rest) := by
  rw [basic, if_neg hquote, if_neg hback, if_pos hc]

theorem basic_escape (he : IsEscape e c) :
    basic ('\\' :: (e ++ cs)) = (basic cs).map fun (ds, rest) => (c :: ds, rest) := by
  rw [basic, if_neg (by decide), if_pos rfl]
  split
  · rename_i hnone
    rw [he.escaped] at hnone
    cases hnone
  · rename_i d rest hsome
    rw [he.escaped] at hsome
    obtain ⟨rfl, rfl⟩ := Prod.mk.inj (Option.some.inj hsome)
    rfl

theorem basic_escapeBasic (cs rest : List Char) :
    basic (escapeBasic cs ++ '\x22' :: rest) = some (cs, rest) := by
  induction cs with
  | nil => exact basic_quote rest
  | cons c cs ih =>
      rw [escapeBasic, List.append_assoc]
      by_cases hquote : c = '\x22'
      · subst hquote
        have he : IsEscape ['\x22'] '\x22' := ⟨fun _ => rfl, fun _ => rfl⟩
        show basic ('\\' :: (['\x22'] ++ (escapeBasic cs ++ '\x22' :: rest))) = _
        rw [basic_escape he, ih]
        rfl
      by_cases hline : c = '\n'
      · subst hline
        have he : IsEscape ['n'] '\n' := ⟨fun _ => rfl, fun _ => rfl⟩
        show basic ('\\' :: (['n'] ++ (escapeBasic cs ++ '\x22' :: rest))) = _
        rw [basic_escape he, ih]
        rfl
      rw [if_neg hquote, if_neg hline]
      rcases escape_cases hline with ⟨hself, hprinted, hback⟩ | ⟨e, hescape, he⟩
      · rw [hself, List.singleton_append, basic_printed hprinted hquote hback, ih]
        rfl
      · rw [hescape, List.cons_append, basic_escape he, ih]
        rfl

theorem literal_printed (hall : ∀ c ∈ cs, isPrinted c = true ∧ c ≠ '\x27') :
    literal (cs ++ '\x27' :: rest) = some (cs, rest) := by
  induction cs with
  | nil => rfl
  | cons c cs ih =>
      obtain ⟨hprinted, hquote⟩ := hall c List.mem_cons_self
      rw [List.cons_append, literal, if_neg hquote, if_pos hprinted,
        ih fun d hd => hall d (List.mem_cons_of_mem c hd)]
      rfl

/-! ## Text on several lines -/

variable {q : Char} {n : Nat}

/-- Behind up to two quotes of the text, three quotes close it. -/
theorem closing_add_three (hn : n ≤ 2) : closing q (n + 3) rest = (List.replicate n q, rest) := by
  have hmin : min (n + 3 - 3) 2 = n := by omega
  have hover : n + 3 - 5 = 0 := by omega
  rw [closing, hmin, hover]
  rfl

theorem longBasic_quote (n : Nat) (cs : List Char) :
    longBasic n ('\x22' :: cs) = longBasic (n + 1) cs := by
  rw [longBasic, if_pos rfl]

theorem longBasic_long (hn : n ≤ 2) (hrest : ∀ c ∈ rest.head?, c ≠ '\x22') :
    longBasic n (long '\x22' ++ rest) = some (List.replicate n '\x22', rest) := by
  show longBasic n ('\x22' :: '\x22' :: '\x22' :: rest) = _
  rw [longBasic_quote, longBasic_quote, longBasic_quote]
  cases rest with
  | nil => rw [longBasic, if_pos (Nat.le_add_left 3 n), closing_add_three hn]
  | cons c cs =>
      rw [longBasic, if_neg (hrest c rfl), if_pos (Nat.le_add_left 3 n), closing_add_three hn]

theorem longBasic_printed (hn : n ≤ 2) (hc : isPrinted c = true) (hquote : c ≠ '\x22')
    (hback : c ≠ '\\') :
    longBasic n (c :: cs) =
      (longBasic 0 cs).map fun (ds, rest) => (List.replicate n '\x22' ++ c :: ds, rest) := by
  rw [longBasic, if_neg hquote, if_neg (by omega)]
  dsimp only
  rw [if_neg hback, if_pos hc]

theorem longBasic_escape (hn : n ≤ 2) (he : IsEscape e c) :
    longBasic n ('\\' :: (e ++ cs)) =
      (longBasic 0 cs).map fun (ds, rest) => (List.replicate n '\x22' ++ c :: ds, rest) := by
  rw [longBasic, if_neg (by decide), if_neg (by omega)]
  dsimp only
  rw [if_pos rfl]
  split
  · rename_i hsome
    rw [he.notContinued] at hsome
    cases hsome
  split
  · rename_i hnone
    rw [he.escaped] at hnone
    cases hnone
  · rename_i d rest hsome
    rw [he.escaped] at hsome
    obtain ⟨rfl, rfl⟩ := Prod.mk.inj (Option.some.inj hsome)
    rfl

theorem longBasic_line (hn : n ≤ 2) (cs : List Char) :
    longBasic n ('\n' :: cs) =
      (longBasic 0 cs).map fun (ds, rest) => (List.replicate n '\x22' ++ '\n' :: ds, rest) := by
  rw [longBasic, if_neg (by decide), if_neg (by omega)]
  dsimp only
  rw [if_neg (by decide), if_neg (by decide)]
  rfl

/-- The quotes that have been read last are the first of the text. -/
theorem longBasic_escapeLong (hrest : ∀ c ∈ rest.head?, c ≠ '\x22') (cs : List Char) :
    ∀ n ≤ 2, longBasic n (escapeLong n cs ++ (long '\x22' ++ rest)) =
      some (List.replicate n '\x22' ++ cs, rest) := by
  induction cs with
  | nil =>
      intro n hn
      rw [List.append_nil]
      exact longBasic_long hn hrest
  | cons c cs ih =>
      intro n hn
      rw [escapeLong]
      by_cases hquote : c = '\x22'
      · subst hquote
        rw [if_pos rfl]
        by_cases htwo : n = 2
        · have he : IsEscape ['\x22'] '\x22' := ⟨fun _ => rfl, fun _ => rfl⟩
          rw [if_pos htwo]
          show longBasic n ('\\' :: (['\x22'] ++ (escapeLong 0 cs ++ (long '\x22' ++ rest)))) = _
          rw [longBasic_escape hn he, ih 0 (by omega)]
          rfl
        · rw [if_neg htwo, List.cons_append, longBasic_quote, ih (n + 1) (by omega),
            List.replicate_succ', List.append_assoc]
          rfl
      rw [if_neg hquote, List.append_assoc]
      by_cases hline : c = '\n'
      · subst hline
        rw [if_pos rfl, List.singleton_append, longBasic_line hn, ih 0 (by omega)]
        rfl
      rw [if_neg hline]
      rcases escape_cases hline with ⟨hself, hprinted, hback⟩ | ⟨e, hescape, he⟩
      · rw [hself, List.singleton_append, longBasic_printed hn hprinted hquote hback,
          ih 0 (by omega)]
        rfl
      · rw [hescape, List.cons_append, longBasic_escape hn he, ih 0 (by omega)]
        rfl

theorem longLiteral_quote (n : Nat) (cs : List Char) :
    longLiteral n ('\x27' :: cs) = longLiteral (n + 1) cs := by
  rw [longLiteral, if_pos rfl]

theorem longLiteral_long (hn : n ≤ 2) (hrest : ∀ c ∈ rest.head?, c ≠ '\x27') :
    longLiteral n (long '\x27' ++ rest) = some (List.replicate n '\x27', rest) := by
  show longLiteral n ('\x27' :: '\x27' :: '\x27' :: rest) = _
  rw [longLiteral_quote, longLiteral_quote, longLiteral_quote]
  cases rest with
  | nil => rw [longLiteral, if_pos (Nat.le_add_left 3 n), closing_add_three hn]
  | cons c cs =>
      rw [longLiteral, if_neg (hrest c rfl), if_pos (Nat.le_add_left 3 n), closing_add_three hn]

theorem longLiteral_cons (hn : n ≤ 2) (hc : isControl c = false) (hquote : c ≠ '\x27') :
    longLiteral n (c :: cs) =
      (longLiteral 0 cs).map fun (ds, rest) => (List.replicate n '\x27' ++ c :: ds, rest) := by
  rw [longLiteral, if_neg hquote, if_neg (by omega)]
  dsimp only
  by_cases hline : c = '\n'
  · subst hline
    rw [if_neg (by decide)]
    rfl
  · rw [if_pos (isPrinted_of_not_isControl hc hline)]

theorem longLiteral_of_not_hasRun (hrest : ∀ c ∈ rest.head?, c ≠ '\x27') :
    ∀ (cs : List Char) (n : Nat), n ≤ 2 → (∀ c ∈ cs, isControl c = false) →
      hasRun '\x27' n cs = false →
      longLiteral n (cs ++ (long '\x27' ++ rest)) = some (List.replicate n '\x27' ++ cs, rest) := by
  intro cs
  induction cs with
  | nil =>
      intro n hn _ _
      rw [List.append_nil]
      exact longLiteral_long hn hrest
  | cons c cs ih =>
      intro n hn hall hrun
      have hall' : ∀ d ∈ cs, isControl d = false :=
        fun d hd => hall d (List.mem_cons_of_mem c hd)
      rw [hasRun] at hrun
      by_cases hquote : c = '\x27'
      · subst hquote
        rw [if_pos rfl, Bool.or_eq_false_iff, beq_eq_false_iff_ne] at hrun
        rw [List.cons_append, longLiteral_quote, ih (n + 1) (by omega) hall' hrun.2,
          List.replicate_succ', List.append_assoc]
        rfl
      · rw [if_neg hquote] at hrun
        rw [List.cons_append, longLiteral_cons hn (hall c List.mem_cons_self) hquote,
          ih 0 (by omega) hall' hrun]
        rfl

/-! ## Text in quotes -/

/-- A text that has several lines is opened by a line break, which is dropped; any other begins with
none. -/
theorem dropBreak_opening {ds : List Char} (h : '\n' ∉ cs → afterBreak? ds = none) :
    dropBreak (opening cs ++ ds) = ds := by
  rw [opening]
  split
  · rfl
  · rename_i hnone
    rw [List.contains_iff_mem] at hnone
    rw [List.nil_append, dropBreak, h hnone]
    rfl

theorem afterBreak?_eq_none (hc : c ≠ '\n') (hreturn : c ≠ '\r') :
    afterBreak? (c :: cs) = none := by
  unfold afterBreak?
  split
  · rename_i heq
    exact absurd (List.cons.inj heq).1 hc
  · rename_i heq
    exact absurd (List.cons.inj heq).1 hreturn
  · rfl

/-- What is written between three double quotes begins with no line break that the text does not
have. -/
theorem afterBreak?_escapeLong (hline : '\n' ∉ cs) :
    afterBreak? (escapeLong 0 cs ++ (long '\x22' ++ rest)) = none := by
  cases cs with
  | nil => rfl
  | cons c cs =>
      have hc : c ≠ '\n' := fun h => hline (h ▸ List.mem_cons_self)
      rw [escapeLong]
      by_cases hquote : c = '\x22'
      · rw [if_pos hquote]
        rfl
      rw [if_neg hquote, if_neg hc]
      rcases escape_cases hc with ⟨hself, -, hback⟩ | ⟨e, hescape, -⟩
      · have hreturn : c ≠ '\r' := by
          rintro rfl
          cases hself
        rw [hself]
        exact afterBreak?_eq_none hc hreturn
      · rw [hescape]
        rfl

theorem afterBreak?_of_not_isControl (hall : ∀ c ∈ cs, isControl c = false) (hline : '\n' ∉ cs) :
    afterBreak? (cs ++ (long '\x27' ++ rest)) = none := by
  cases cs with
  | nil => rfl
  | cons c cs =>
      refine afterBreak?_eq_none (fun h => hline (h ▸ List.mem_cons_self)) ?_
      rintro rfl
      cases hall '\r' List.mem_cons_self

theorem read?_double (h : ∀ ds, cs ≠ '\x22' :: '\x22' :: ds) : read? ('\x22' :: cs) = basic cs := by
  unfold read?
  split
  · rename_i ds heq
    exact absurd (List.cons.inj heq).2 (h ds)
  · rename_i heq
    rw [(List.cons.inj heq).2]
  · rename_i heq
    cases (List.cons.inj heq).1
  · rename_i heq
    cases (List.cons.inj heq).1
  · rename_i hdouble _ _
    exact (hdouble cs rfl).elim

theorem read?_single (h : ∀ ds, cs ≠ '\x27' :: '\x27' :: ds) :
    read? ('\x27' :: cs) = literal cs := by
  unfold read?
  split
  · rename_i heq
    cases (List.cons.inj heq).1
  · rename_i heq
    cases (List.cons.inj heq).1
  · rename_i ds heq
    exact absurd (List.cons.inj heq).2 (h ds)
  · rename_i heq
    rw [(List.cons.inj heq).2]
  · rename_i hsingle
    exact (hsingle cs rfl).elim

theorem escapeBasic_append_ne (hrest : ∀ c ∈ rest.head?, c ≠ '\x22') (cs ds : List Char) :
    escapeBasic cs ++ '\x22' :: rest ≠ '\x22' :: '\x22' :: ds := by
  intro heq
  cases cs with
  | nil =>
      have hquote := (List.cons.inj heq).2
      exact hrest '\x22' (by rw [hquote]; rfl) rfl
  | cons c cs =>
      rw [escapeBasic] at heq
      by_cases hquote : c = '\x22'
      · rw [if_pos hquote] at heq
        cases (List.cons.inj heq).1
      by_cases hline : c = '\n'
      · rw [if_neg hquote, if_pos hline] at heq
        cases (List.cons.inj heq).1
      rw [if_neg hquote, if_neg hline] at heq
      rcases escape_cases hline with ⟨hself, -⟩ | ⟨e, hescape, -⟩
      · rw [hself] at heq
        exact hquote (List.cons.inj heq).1
      · rw [hescape] at heq
        cases (List.cons.inj heq).1

/-- What the forms without escapes are chosen for. -/
theorem formOf_cases (cs : List Char) :
    formOf cs = .basic ∨ formOf cs = .longBasic ∨
    formOf cs = .literal ∧ (∀ c ∈ cs, isControl c = false) ∧ '\x27' ∉ cs ∧ '\n' ∉ cs ∧ cs ≠ [] ∨
    formOf cs = .longLiteral ∧ (∀ c ∈ cs, isControl c = false) ∧ hasRun '\x27' 0 cs = false := by
  have hcontrol : cs.any isControl = false → ∀ c ∈ cs, isControl c = false := by
    intro h c hc
    rw [List.any_eq_false] at h
    exact Bool.eq_false_iff.mpr (h c hc)
  unfold formOf
  dsimp only
  split
  · exact Or.inl rfl
  rename_i hbasic
  split
  · rename_i hliteral
    simp only [Bool.not_eq_true', Bool.or_eq_false_iff, List.contains_eq_mem,
      decide_eq_false_iff_not] at hliteral
    refine Or.inr (Or.inr (Or.inl ⟨rfl, hcontrol hliteral.1.1, hliteral.1.2, hliteral.2, ?_⟩))
    rintro rfl
    exact hbasic rfl
  split
  · exact Or.inr (Or.inl rfl)
  split
  · rename_i hlong
    simp only [Bool.not_eq_true', Bool.or_eq_false_iff] at hlong
    exact Or.inr (Or.inr (Or.inr ⟨rfl, hcontrol hlong.1, hlong.2⟩))
  split
  · exact Or.inr (Or.inl rfl)
  · exact Or.inl rfl

/-- A written text is read back in front of anything but a quote. -/
theorem read?_write (cs : List Char) (hdouble : ∀ c ∈ rest.head?, c ≠ '\x22')
    (hsingle : ∀ c ∈ rest.head?, c ≠ '\x27') : read? (write cs ++ rest) = some (cs, rest) := by
  rcases formOf_cases cs with hform | hform | ⟨hform, hall, hquote, hline, hne⟩ |
    ⟨hform, hall, hrun⟩ <;> rw [write, hform]
  · show read? ('\x22' :: (escapeBasic cs ++ ['\x22']) ++ rest) = _
    rw [List.cons_append, List.append_assoc, List.singleton_append,
      read?_double (escapeBasic_append_ne hdouble cs), basic_escapeBasic]
  · show read? (long '\x22' ++ opening cs ++ escapeLong 0 cs ++ long '\x22' ++ rest) = _
    have hlong : ∀ ds, read? (long '\x22' ++ ds) = longBasic 0 (dropBreak ds) := fun _ => rfl
    simp only [List.append_assoc]
    rw [hlong, dropBreak_opening afterBreak?_escapeLong,
      longBasic_escapeLong hdouble cs 0 (Nat.zero_le 2)]
    rfl
  · show read? ('\x27' :: (cs ++ ['\x27']) ++ rest) = _
    have hstart : ∀ ds, cs ++ '\x27' :: rest ≠ '\x27' :: '\x27' :: ds := by
      intro ds heq
      obtain ⟨c, cs', rfl⟩ := List.exists_cons_of_ne_nil hne
      exact hquote ((List.cons.inj heq).1 ▸ List.mem_cons_self)
    have hprinted : ∀ c ∈ cs, isPrinted c = true ∧ c ≠ '\x27' := fun c hc =>
      ⟨isPrinted_of_not_isControl (hall c hc) fun h => hline (h ▸ hc), fun h => hquote (h ▸ hc)⟩
    rw [List.cons_append, List.append_assoc, List.singleton_append, read?_single hstart,
      literal_printed hprinted]
  · show read? (long '\x27' ++ opening cs ++ cs ++ long '\x27' ++ rest) = _
    have hlong : ∀ ds, read? (long '\x27' ++ ds) = longLiteral 0 (dropBreak ds) := fun _ => rfl
    simp only [List.append_assoc]
    rw [hlong, dropBreak_opening (afterBreak?_of_not_isControl hall),
      longLiteral_of_not_hasRun hsingle cs 0 (Nat.zero_le 2) hall hrun]
    rfl

end LineShell.Toml.Quoted
