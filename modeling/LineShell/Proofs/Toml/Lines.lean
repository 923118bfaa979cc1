import LineShell.Proofs.Toml.Scalars
import LineShell.Toml.Document

/-!
# Written lines are read back

A line that is written is a header, an assignment, or empty. Each of them is the first of the lines
of a document that it begins (`lines?_header`, `lines?_assignment`, `lines?_break`). Names and keys
stand without quotes, so that they hold nothing that a line could be taken apart at; a value may be
any text that is read as that value in front of a line break (`Spells`).
-/

namespace LineShell.Toml

variable {c : Char} {cs rest : List Char} {k : String} {v : Toml}

/-! ## Keys -/

/-- A key that needs no quotes. -/
structure IsBare (k : String) : Prop where
  nonempty : k.toList ≠ []
  bare : ∀ c ∈ k.toList, isBareKeyChar c = true

instance (k : String) : Decidable (IsBare k) :=
  decidable_of_iff (k.toList ≠ [] ∧ k.toList.all isBareKeyChar = true)
    ⟨fun h => ⟨h.1, List.all_eq_true.mp h.2⟩, fun h => ⟨h.1, List.all_eq_true.mpr h.2⟩⟩

theorem skipBlanks_cons_of_not (hc : isBlank c = false) : skipBlanks (c :: cs) = c :: cs :=
  List.dropWhile_cons_of_neg (Bool.eq_false_iff.mp hc)

theorem skipBlanks_of_isBareKeyChar (hc : isBareKeyChar c = true) :
    skipBlanks (c :: cs) = c :: cs := by
  refine skipBlanks_cons_of_not ?_
  rw [isBlank, Bool.or_eq_false_iff, beq_eq_false_iff_ne, beq_eq_false_iff_ne]
  exact ⟨Text.ne_of_class hc rfl, Text.ne_of_class hc rfl⟩

theorem after?_cons (c : Char) (cs : List Char) : after? c (c :: cs) = some cs := if_pos rfl

theorem keyPart?_bare (hk : IsBare k) (hrest : ∀ c ∈ rest.head?, isBareKeyChar c = false) :
    keyPart? (k.toList ++ rest) = some (k, rest) := by
  obtain ⟨c, cs, hcs⟩ := List.exists_cons_of_ne_nil hk.nonempty
  have hall := hk.bare
  rw [hcs] at hall
  have hc := hall c List.mem_cons_self
  have hrun : ∀ d ∈ cs, isBareKeyChar d = true := fun d hd => hall d (List.mem_cons_of_mem c hd)
  rw [hcs, List.cons_append, keyPart?, if_neg (Text.ne_of_class hc rfl),
    if_neg (Text.ne_of_class hc rfl), if_pos hc, Text.takeWhile_run hrun hrest,
    Text.dropWhile_run hrun hrest, ← hcs, String.ofList_toList]

theorem key?_bare (hk : IsBare k) (hrest : ∀ c ∈ rest.head?, isBareKeyChar c = false)
    (hdot : ∀ c ∈ (skipBlanks rest).head?, c ≠ '.') :
    key? (k.toList ++ rest) = some ([k], skipBlanks rest) := by
  obtain ⟨c, cs, hcs⟩ := List.exists_cons_of_ne_nil hk.nonempty
  have hskip : skipBlanks (k.toList ++ rest) = k.toList ++ rest := by
    rw [hcs]
    exact skipBlanks_of_isBareKeyChar (hk.bare c (hcs ▸ List.mem_cons_self))
  rw [key?, maxNesting, keyOf?, hskip, keyPart?_bare hk hrest]
  simp only [Option.bind_eq_bind, Option.bind_some]
  split
  · rename_i ds heq
    exact absurd rfl (hdot '.' (by rw [heq]; rfl))
  · rfl

/-! ## Values -/

/-- Whether a text is read as a value in front of a line break. -/
def Spells (v : Toml) (cs : List Char) : Prop :=
  ∀ rest, item? maxNesting (skipBlanks (cs ++ '\n' :: rest)) = some (.scalar v, '\n' :: rest)

theorem item?_scalar {depth : Nat} (harray : c ≠ '[') (hinline : c ≠ '\x7b') :
    item? depth (c :: cs) = (scalar? (c :: cs)).map fun (v, rest) => (.scalar v, rest) := by
  unfold item?
  split
  · rename_i heq
    exact absurd (List.cons.inj heq).1 harray
  · rename_i heq
    exact absurd (List.cons.inj heq).1 harray
  · rename_i heq
    exact absurd (List.cons.inj heq).1 hinline
  · rename_i heq
    exact absurd (List.cons.inj heq).1 hinline
  · rfl

theorem spells_of_scalar? (hc : isBlank c = false) (harray : c ≠ '[') (hinline : c ≠ '\x7b')
    (h : ∀ rest, scalar? (c :: cs ++ '\n' :: rest) = some (v, '\n' :: rest)) :
    Spells v (c :: cs) := by
  intro rest
  rw [List.cons_append, skipBlanks_cons_of_not hc, item?_scalar harray hinline,
    ← List.cons_append, h rest]
  rfl

theorem spells_boolean (b : Bool) : Spells (.boolean b) (toString b).toList := by
  cases b with
  | true => exact spells_of_scalar? (by decide) (by decide) (by decide) fun rest => rfl
  | false => exact spells_of_scalar? (by decide) (by decide) (by decide) fun rest => rfl

theorem spells_text (s : String) : Spells (.text s) (Quoted.write s.toList) := by
  have hread := scalar?_write s
  obtain ⟨q, ds, hq, hds⟩ := Quoted.exists_write s.toList
  rw [hds] at hread ⊢
  rcases hq with rfl | rfl
  · exact spells_of_scalar? (by decide) (by decide) (by decide) hread
  · exact spells_of_scalar? (by decide) (by decide) (by decide) hread

theorem spells_digits {n : Nat} (hn : n ≤ Int64.maxValue.toNatClampNeg) :
    Spells (.integer n) (Decimal.digits n) := by
  have hread := scalar?_digits hn
  obtain ⟨c, cs, hcs⟩ := List.exists_cons_of_ne_nil (Decimal.digits_ne_nil n)
  have hdigit : c.isDigit = true := Decimal.isDigit_of_mem_digits (hcs ▸ List.mem_cons_self)
  have hbare : isBareKeyChar c = true := by
    rw [isBareKeyChar, Char.isAlphanum, hdigit, Bool.or_true]
    rfl
  rw [hcs] at hread ⊢
  refine spells_of_scalar? ?_ (Text.ne_of_class hbare rfl) (Text.ne_of_class hbare rfl) hread
  rw [isBlank, Bool.or_eq_false_iff, beq_eq_false_iff_ne, beq_eq_false_iff_ne]
  exact ⟨Text.ne_of_class hbare rfl, Text.ne_of_class hbare rfl⟩

/-! ## Lines -/

theorem lines?_of_content? {l : Line} (h : content? cs = some (l, '\n' :: rest))
    (hlt : rest.length < cs.length) : lines? cs = (lines? rest).map (l :: ·) := by
  have hend : lineEnd? ('\n' :: rest) = some rest := rfl
  rw [lines?.eq_def]
  split
  · cases h
  · simp only [h, Option.bind_eq_bind, Option.bind_some, hend, if_pos hlt]
    cases lines? rest <;> rfl

theorem lines?_break (rest : List Char) :
    lines? ('\n' :: rest) = (lines? rest).map (.blank :: ·) :=
  lines?_of_content? rfl (Nat.lt_succ_self _)

theorem lines?_header (hk : IsBare k) (rest : List Char) :
    lines? ('[' :: (k.toList ++ ']' :: '\n' :: rest)) = (lines? rest).map (.table [k] :: ·) := by
  have hkey : key? (k.toList ++ ']' :: '\n' :: rest) = some ([k], ']' :: '\n' :: rest) := by
    refine key?_bare hk (fun c hc => ?_) fun c hc => ?_
    · obtain rfl := Option.some.inj hc
      rfl
    · obtain rfl := Option.some.inj hc
      decide
  refine lines?_of_content? ?_ (by simp only [List.length_cons, List.length_append]; omega)
  obtain ⟨c, cs, hcs⟩ := List.exists_cons_of_ne_nil hk.nonempty
  have hbracket : c ≠ '[' :=
    Text.ne_of_class (hk.bare c (hcs ▸ List.mem_cons_self)) rfl
  rw [hcs, List.cons_append] at hkey ⊢
  unfold content?
  split
  · rename_i heq
    cases heq
  · rename_i heq
    exact absurd (List.cons.inj (List.cons.inj heq).2).1 hbracket
  · rename_i heq
    rw [← (List.cons.inj heq).2, hkey]
    rfl
  · rename_i hsingle heq
    exact (hsingle (List.cons.inj heq).1.symm).elim

theorem lines?_assignment (hk : IsBare k) (hv : Spells v cs) (rest : List Char) :
    lines? (k.toList ++ ' ' :: '=' :: ' ' :: (cs ++ '\n' :: rest)) =
      (lines? rest).map (.assignment [k] (.scalar v) :: ·) := by
  have hkey : key? (k.toList ++ ' ' :: '=' :: ' ' :: (cs ++ '\n' :: rest)) =
      some ([k], '=' :: ' ' :: (cs ++ '\n' :: rest)) := by
    refine key?_bare hk (fun c hc => ?_) fun c hc => ?_
    · obtain rfl := Option.some.inj hc
      rfl
    · obtain rfl := Option.some.inj hc
      decide
  have hassign : assignment? (k.toList ++ ' ' :: '=' :: ' ' :: (cs ++ '\n' :: rest)) =
      some (.assignment [k] (.scalar v), '\n' :: rest) := by
    have hitem : item? maxNesting (skipBlanks (' ' :: (cs ++ '\n' :: rest))) =
        some (.scalar v, '\n' :: rest) := hv rest
    rw [assignment?, hkey]
    simp only [Option.bind_eq_bind, Option.bind_some, after?_cons, hitem]
    rfl
  refine lines?_of_content? ?_ (by simp only [List.length_cons, List.length_append]; omega)
  obtain ⟨c, ds, hds⟩ := List.exists_cons_of_ne_nil hk.nonempty
  have hc := hk.bare c (hds ▸ List.mem_cons_self)
  rw [hds, List.cons_append] at hassign ⊢
  have hbreak : ∀ es, afterBreak? (c :: es) = none := fun es =>
    Quoted.afterBreak?_eq_none (Text.ne_of_class hc rfl) (Text.ne_of_class hc rfl)
  rw [content?, skipBlanks_of_isBareKeyChar hc]
  split
  · rename_i heq
    cases heq
  · rename_i heq
    exact absurd (List.cons.inj heq).1 (Text.ne_of_class hc rfl)
  · rename_i heq
    exact absurd (List.cons.inj heq).1 (Text.ne_of_class hc rfl)
  · rename_i heq
    obtain ⟨rfl, rfl⟩ := List.cons.inj heq
    rw [hbreak, if_neg, hassign]
    rintro (h | h)
    · exact Text.ne_of_class hc rfl h
    · cases h

end LineShell.Toml
