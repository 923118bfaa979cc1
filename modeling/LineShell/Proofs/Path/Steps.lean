import LineShell.FileSystem
import LineShell.Proofs.Text.Pieces

/-!
# The steps of a path

What the text of a path made from names means, and which paths the system takes at all. If it takes
a path, it takes the path through any of its steps too, because that is no longer.
-/

namespace LineShell

namespace Text

theorem utf8ByteSize_cons (c : Char) (cs : List Char) :
    (String.ofList (c :: cs)).utf8ByteSize = c.utf8Size + (String.ofList cs).utf8ByteSize := by
  have h : String.ofList (c :: cs) = String.singleton c ++ String.ofList cs := by
    rw [← String.toList_inj]
    simp
  rw [h, String.utf8ByteSize_append, String.utf8ByteSize_singleton]

theorem utf8ByteSize_le_of_sublist {cs ds : List Char} (h : cs.Sublist ds) :
    (String.ofList cs).utf8ByteSize ≤ (String.ofList ds).utf8ByteSize := by
  induction h with
  | slnil => exact Nat.le_refl _
  | cons d _ ih =>
      rw [utf8ByteSize_cons]
      exact Nat.le_add_left_of_le ih
  | cons_cons d _ ih =>
      rw [utf8ByteSize_cons, utf8ByteSize_cons]
      exact Nat.add_le_add_left ih _

end Text

namespace Path

/-! ## Paths through names -/

/-- A text that can be a step of a path. -/
def IsStep (n : String) : Prop := n ≠ "" ∧ '/' ∉ n.toList

theorem isStep_of_mem_steps {p : Path} {n : String} (h : n ∈ p.steps) : IsStep n := by
  obtain ⟨cs, hcs, rfl⟩ := List.mem_map.mp h
  obtain ⟨hmem, hne⟩ := List.mem_filter.mp hcs
  refine ⟨?_, ?_⟩
  · intro h
    rw [← String.toList_inj, String.toList_ofList] at h
    exact of_decide_eq_true hne h
  · rw [String.toList_ofList]
    exact Text.separator_notMem_pieces '/' _ cs hmem

theorem names_sublist_steps (p : Path) : p.names.Sublist p.steps := List.filter_sublist

variable {absolute : Bool} {ns : List String}

theorem filter_pieces_join (h : ∀ n ∈ ns, IsStep n) :
    (Text.pieces '/' (Text.joinPieces '/' (ns.map String.toList))).filter (· ≠ []) =
      ns.map String.toList := by
  by_cases hne : ns = []
  · subst hne
    rfl
  · rw [Text.pieces_joinPieces]
    · rw [List.filter_eq_self]
      intro cs hcs
      obtain ⟨n, hn, rfl⟩ := List.mem_map.mp hcs
      refine decide_eq_true fun heq => (h n hn).1 ?_
      exact String.toList_inj.mp heq
    · exact fun heq => hne (List.map_eq_nil_iff.mp heq)
    · intro cs hcs
      obtain ⟨n, hn, rfl⟩ := List.mem_map.mp hcs
      exact (h n hn).2

theorem steps_ofNames (h : ∀ n ∈ ns, IsStep n) : (ofNames absolute ns).steps = ns := by
  have hmap : (ns.map String.toList).map String.ofList = ns := by simp [Function.comp_def]
  cases absolute with
  | false =>
      simp only [steps, ofNames, Bool.false_eq_true, if_false, String.toList_ofList]
      rw [filter_pieces_join h, hmap]
  | true =>
      simp only [steps, ofNames, if_true, String.toList_ofList]
      rw [Text.pieces, if_pos rfl, List.filter_cons_of_neg (by simp), filter_pieces_join h, hmap]

theorem isAbsolute_ofNames (h : ∀ n ∈ ns, IsStep n) :
    (ofNames absolute ns).isAbsolute = absolute := by
  cases absolute with
  | true => simp [isAbsolute, ofNames]
  | false =>
      simp only [isAbsolute, ofNames, Bool.false_eq_true, if_false, String.toList_ofList]
      refine decide_eq_false fun hhead => ?_
      have hmem := List.mem_of_head? hhead
      cases ns with
      | nil => cases hmem
      | cons n ns =>
          have hn := h n List.mem_cons_self
          obtain ⟨c, cs, hc⟩ := List.exists_cons_of_ne_nil
            (fun heq => hn.1 (String.toList_inj.mp heq) : n.toList ≠ [])
          have hfirst :
              (Text.joinPieces '/' (n.toList :: ns.map String.toList)).head? = some c := by
            cases ns <;> simp [Text.joinPieces, hc]
          obtain rfl := Option.some.inj (hfirst.symm.trans hhead)
          exact hn.2 (hc ▸ List.mem_cons_self)

theorem ofNames_ne_empty (h : ∀ n ∈ ns, IsStep n) (hne : ns ≠ []) :
    (ofNames absolute ns).text ≠ "" := by
  intro htext
  have hsteps : (ofNames absolute ns).steps = ns := steps_ofNames h
  rw [steps, htext] at hsteps
  exact hne hsteps.symm

theorem text_ofNames_sublist (p : Path) (h : ns.Sublist p.steps) :
    (ofNames p.isAbsolute ns).text.toList.Sublist p.text.toList := by
  have hpieces : (ns.map String.toList).Sublist
      ((Text.pieces '/' p.text.toList).filter (· ≠ [])) := by
    have hmap := h.map String.toList
    rw [steps, List.map_map] at hmap
    simpa [Function.comp_def] using hmap
  cases habs : p.isAbsolute with
  | false =>
      have hjoin := Text.joinPieces_sublist_joinPieces '/'
        (hpieces.trans List.filter_sublist)
      rw [Text.joinPieces_pieces] at hjoin
      simpa [ofNames] using hjoin
  | true =>
      obtain ⟨rest, hrest⟩ : ∃ rest, p.text.toList = '/' :: rest :=
        List.head?_eq_some_iff.mp (of_decide_eq_true habs)
      rw [hrest, Text.pieces, if_pos rfl, List.filter_cons_of_neg (by simp)] at hpieces
      have hjoin := Text.joinPieces_sublist_joinPieces '/'
        (hpieces.trans List.filter_sublist)
      rw [Text.joinPieces_pieces] at hjoin
      rw [hrest]
      simpa [ofNames] using hjoin.cons_cons '/'

theorem steps_ne_nil {p : Path} (hne : p.text ≠ "") (hslash : p.endsInSlash = false) :
    p.steps ≠ [] := by
  obtain ⟨c, hc⟩ : ∃ c, p.text.toList.getLast? = some c := by
    rw [← Option.isSome_iff_exists, List.getLast?_isSome]
    exact fun heq => hne (String.toList_inj.mp heq)
  have hsep : c ≠ '/' := by
    rintro rfl
    exact absurd hc (of_decide_eq_false hslash)
  have hmem := List.mem_of_getLast? hc
  rw [← Text.joinPieces_pieces '/' p.text.toList] at hmem
  rcases Text.eq_or_mem_of_mem_joinPieces hmem with heq | ⟨cs, hcs, hmem⟩
  · exact absurd heq hsep
  · intro hnil
    rw [steps, List.map_eq_nil_iff, List.filter_eq_nil_iff] at hnil
    exact hnil cs hcs (decide_eq_true (List.ne_nil_of_mem hmem))

theorem endsInSlash_join (base : Path) {p : Path} (hne : p.text ≠ "") :
    (base.join p).endsInSlash = p.endsInSlash := by
  have hlast : ∀ cs, (cs ++ p.text.toList).getLast? = p.text.toList.getLast? := by
    intro cs
    have hcs : p.text.toList ≠ [] := fun hnil => hne (String.toList_inj.mp hnil)
    rw [List.getLast?_append, Option.or_of_isSome (List.getLast?_isSome.mpr hcs)]
  unfold join endsInSlash
  split
  · rfl
  · split <;> simp only [String.toList_append, hlast]

/-! ## Paths that the system takes -/

/-- A path that the system looks up at all. -/
structure IsValid (p : Path) : Prop where
  noNull : '\x00' ∉ p.text.toList
  nonempty : p.text ≠ ""
  short : p.text.utf8ByteSize ≤ FileSystem.maxPathLength
  shortSteps : ∀ n ∈ p.steps, n.utf8ByteSize ≤ FileSystem.maxNameLength

instance (p : Path) : Decidable p.IsValid :=
  decidable_of_iff
    ('\x00' ∉ p.text.toList ∧ p.text ≠ "" ∧ p.text.utf8ByteSize ≤ FileSystem.maxPathLength ∧
      ∀ n ∈ p.steps, n.utf8ByteSize ≤ FileSystem.maxNameLength)
    ⟨fun ⟨hnull, hne, hshort, hsteps⟩ => ⟨hnull, hne, hshort, hsteps⟩,
      fun h => ⟨h.noNull, h.nonempty, h.short, h.shortSteps⟩⟩

theorem IsValid.ofNames {p : Path} (hp : p.IsValid) (h : ns.Sublist p.steps) (hne : ns ≠ []) :
    (ofNames p.isAbsolute ns).IsValid where
  noNull hmem := hp.noNull ((text_ofNames_sublist p h).subset hmem)
  nonempty := ofNames_ne_empty (fun _ hn => isStep_of_mem_steps (h.subset hn)) hne
  short := by
    have hle := Text.utf8ByteSize_le_of_sublist (text_ofNames_sublist p h)
    rw [String.ofList_toList, String.ofList_toList] at hle
    exact Nat.le_trans hle hp.short
  shortSteps := by
    rw [steps_ofNames fun _ hn => isStep_of_mem_steps (h.subset hn)]
    exact fun n hn => hp.shortSteps n (h.subset hn)

end Path

end LineShell
