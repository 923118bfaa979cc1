import LineShell.Proofs.History
import LineShell.Proofs.Text.Pieces
import LineShell.Proofs.Text.Trimming
import LineShell.Text.Lines

/-!
# Lines that are kept in a text

A text is read back as its trimmed lines without the blank ones. Lines are kept by writing them
behind a text, each with a line feed. What is then read back are the lines that were there and the
new ones, as long as the text ended with a line feed and no new line holds one.
-/

namespace LineShell.Text

variable {bs cs ds : List Char}

/-! ## Lines that are read back -/

/-- The trimmed lines of a text, without the blank ones. -/
def keptLines (cs : List Char) : List (List Char) :=
  ((pieces '\n' cs).map trimChars).filter (· ≠ [])

theorem trimChars_dropReturn (cs : List Char) : trimChars (dropReturn cs) = trimChars cs := by
  rw [dropReturn]
  split
  · rename_i h
    obtain ⟨ds, rfl⟩ := List.getLast?_eq_some_iff.mp h
    rw [List.dropLast_concat, trimChars_append_blank]
    intro b hb
    rw [List.mem_singleton.mp hb]
    decide
  · rfl

/-- Trimmed, the lines of a file are the pieces between its line feeds. -/
theorem map_trimChars_linesOfPieces (ps : List (List Char)) :
    ((linesOfPieces ps).map trimChars).filter (· ≠ []) = (ps.map trimChars).filter (· ≠ []) := by
  induction ps with
  | nil => rfl
  | cons p ps ih =>
      cases ps with
      | nil =>
          rw [linesOfPieces]
          split
          · rename_i h
            rw [h]
            rfl
          · rfl
      | cons q qs =>
          rw [linesOfPieces, List.map_cons, List.map_cons, trimChars_dropReturn, List.filter_cons,
            List.filter_cons, ih]

theorem keptLines_append_feed (cs ds : List Char) :
    keptLines (cs ++ '\n' :: ds) = keptLines cs ++ keptLines ds := by
  rw [keptLines, pieces_append_separator, List.map_append, List.filter_append]
  rfl

theorem keptLines_of_notMem (h : '\n' ∉ cs) (hne : trimChars cs ≠ []) :
    keptLines cs = [trimChars cs] := by
  rw [keptLines, pieces_of_notMem h, List.map_singleton,
    List.filter_cons_of_pos (by simpa using hne), List.filter_nil]

theorem keptLines_blank_append (hblank : ∀ b ∈ bs, isBlank b = true) (h : '\n' ∉ bs)
    (cs : List Char) : keptLines (bs ++ cs) = keptLines cs := by
  obtain ⟨p, ps, hps⟩ := List.exists_cons_of_ne_nil (pieces_ne_nil '\n' cs)
  rw [keptLines, pieces_append_of_notMem h hps, keptLines, hps, List.map_cons, List.map_cons,
    trimChars_blank_append hblank]

theorem feed_notMem_of_mem_keptLines {l : List Char} (h : l ∈ keptLines cs) : '\n' ∉ l := by
  obtain ⟨p, hp, rfl⟩ := List.mem_map.mp (List.mem_filter.mp h).1
  exact fun hmem => separator_notMem_pieces '\n' cs p hp (mem_of_mem_trimChars hmem)

/-! ## The end of a text -/

/-- What stands behind the last line feed. -/
def unfinished (cs : List Char) : List Char := (pieces '\n' cs).getLast (pieces_ne_nil '\n' cs)

theorem feed_notMem_unfinished (cs : List Char) : '\n' ∉ unfinished cs :=
  separator_notMem_pieces '\n' cs _ (List.getLast_mem _)

theorem eq_unfinished_or (cs : List Char) :
    cs = unfinished cs ∨ ∃ ds, cs = ds ++ '\n' :: unfinished cs := by
  have hsplit := List.dropLast_concat_getLast (pieces_ne_nil '\n' cs)
  have hjoin := joinPieces_pieces '\n' cs
  rw [← hsplit] at hjoin
  cases hinit : (pieces '\n' cs).dropLast with
  | nil =>
      rw [hinit] at hjoin
      exact Or.inl hjoin.symm
  | cons p ps =>
      rw [hinit, joinPieces_concat (List.cons_ne_nil p ps)] at hjoin
      exact Or.inr ⟨_, hjoin.symm⟩

/-- Nothing is unfinished behind a line feed, nor in an empty text. -/
theorem unfinished_of_ended (h : cs = [] ∨ ∃ ds, cs = ds ++ ['\n']) : unfinished cs = [] := by
  rcases h with rfl | ⟨ds, rfl⟩
  · rfl
  · simp [unfinished, pieces_append_separator, pieces]

/-- What is read back of a text that goes on: what was finished before, and what begins with the
unfinished line. -/
theorem exists_keptLines_append (cs : List Char) :
    ∃ ls, ∀ ds, keptLines (cs ++ ds) = ls ++ keptLines (unfinished cs ++ ds) := by
  rcases eq_unfinished_or cs with h | ⟨before, h⟩
  · refine ⟨[], fun ds => ?_⟩
    rw [List.nil_append, ← h]
  · refine ⟨keptLines before, fun ds => ?_⟩
    have hcs : cs ++ ds = before ++ '\n' :: (unfinished cs ++ ds) :=
      (congrArg (· ++ ds) h).trans (List.append_assoc before _ ds)
    rw [hcs, keptLines_append_feed]

/-! ## Writing lines behind a text -/

/-- Lines with a line feed behind each. -/
def feedLines (ls : List (List Char)) : List Char := ls.flatMap (· ++ ['\n'])

theorem keptLines_append_feedLines (cs : List Char) (l : List Char) (ls : List (List Char)) :
    keptLines (cs ++ feedLines (l :: ls)) = keptLines (cs ++ l) ++ ls.flatMap keptLines := by
  induction ls generalizing cs l with
  | nil =>
      rw [feedLines, List.flatMap_singleton, ← List.append_assoc, keptLines_append_feed]
      rfl
  | cons l' ls ih =>
      have h : cs ++ feedLines (l :: l' :: ls) = (cs ++ l) ++ '\n' :: feedLines (l' :: ls) := by
        simp [feedLines]
      have hrest := ih [] l'
      rw [List.nil_append, List.nil_append] at hrest
      rw [h, keptLines_append_feed, hrest, List.flatMap_cons]

/-- A line that was trimmed and holds no line feed is read back as it is. -/
theorem flatMap_keptLines {ls : List (List Char)}
    (htrim : ∀ l ∈ ls, trimChars l = l ∧ l ≠ []) (hfeed : ∀ l ∈ ls, '\n' ∉ l) :
    ls.flatMap keptLines = ls := by
  induction ls with
  | nil => rfl
  | cons l ls ih =>
      rw [List.forall_mem_cons] at htrim hfeed
      have hl := keptLines_of_notMem hfeed.1 (htrim.1.1.symm ▸ htrim.1.2)
      rw [List.flatMap_cons, hl, htrim.1.1, ih htrim.2 hfeed.2]
      rfl

/-- If there is nothing but blanks behind the last line feed, the older lines are those that were
there. -/
theorem keptLines_eq_of_blank {older : List (List Char)}
    (holder : ∀ ds, keptLines (cs ++ ds) = older ++ keptLines (unfinished cs ++ ds))
    (hblank : ∀ c ∈ unfinished cs, isBlank c = true) : keptLines cs = older := by
  have hall := holder []
  rw [keptLines_blank_append hblank (feed_notMem_unfinished cs), List.append_nil] at hall
  rw [hall]
  exact List.append_nil older

/-- Behind a text whose lines are finished, lines that were trimmed and hold no line feed are read
back as they are. -/
theorem keptLines_append_feedLines_of_blank (hblank : ∀ c ∈ unfinished cs, isBlank c = true)
    {ls : List (List Char)} (htrim : ∀ l ∈ ls, trimChars l = l ∧ l ≠ [])
    (hfeed : ∀ l ∈ ls, '\n' ∉ l) : keptLines (cs ++ feedLines ls) = keptLines cs ++ ls := by
  cases ls with
  | nil =>
      rw [List.append_nil]
      exact congrArg keptLines (List.append_nil cs)
  | cons l ls =>
      obtain ⟨older, holder⟩ := exists_keptLines_append cs
      have hread := flatMap_keptLines htrim hfeed
      rw [List.flatMap_cons] at hread
      rw [keptLines_append_feedLines, holder,
        keptLines_blank_append hblank (feed_notMem_unfinished cs), List.append_assoc, hread,
        keptLines_eq_of_blank holder hblank]

/-! ## The newest lines that are read back -/

open History

variable {ls : List (List Char)} {m : Nat}

/-- No line that is read back holds a line feed, so no line with one comes back. -/
theorem feed_notMem_of_lastN_eq {before : List (List Char)}
    (h : lastN m (keptLines cs) = lastN m (before ++ ls)) : ∀ l ∈ lastN m ls, '\n' ∉ l := by
  intro l hl
  have hmem : l ∈ lastN m (keptLines cs) := h ▸ mem_lastN_append before hl
  exact feed_notMem_of_mem_keptLines ((lastN_suffix m _).subset hmem)

/-- More lines were written than are read back, so it does not matter what was there before. -/
theorem lastN_keptLines_of_lt (htrim : ∀ l ∈ ls, trimChars l = l ∧ l ≠ [])
    (hm : m < ls.length) (hfeed : ∀ l ∈ lastN m ls, '\n' ∉ l) (cs : List Char) :
    lastN m (keptLines (cs ++ feedLines ls)) = lastN m ls := by
  cases ls with
  | nil => cases hm
  | cons l ls =>
      have hle : m ≤ ls.length := Nat.le_of_lt_succ hm
      have htail : lastN m (l :: ls) = lastN m ls := lastN_append_of_le [l] hle
      rw [htail] at hfeed ⊢
      have hlen : (lastN m ls).length = m := by rw [length_lastN, Nat.min_eq_left hle]
      have hread : (lastN m ls).flatMap keptLines = lastN m ls :=
        flatMap_keptLines
          (fun l' hl' => htrim l' (List.mem_cons_of_mem l ((lastN_suffix m ls).subset hl'))) hfeed
      obtain ⟨older, hsplit⟩ := lastN_suffix m ls
      have hrest : ls.flatMap keptLines = older.flatMap keptLines ++ lastN m ls := by
        conv => lhs; rw [← hsplit]
        rw [List.flatMap_append, hread]
      rw [keptLines_append_feedLines, hrest, ← List.append_assoc,
        lastN_append_of_le _ (Nat.le_of_eq hlen.symm), lastN_of_length_le (Nat.le_of_eq hlen)]

/-- All lines that were written are read back: the first of them together with what stood behind the
last line feed, and as many of the older ones as there is room for. -/
theorem lastN_keptLines_of_le {l : List Char}
    (htrim : ∀ l' ∈ l :: ls, trimChars l' = l' ∧ l' ≠ []) (hm : (l :: ls).length ≤ m)
    (hfeed : ∀ l' ∈ l :: ls, '\n' ∉ l') (cs : List Char) :
    ∃ older, (∀ ds, keptLines (cs ++ ds) = older ++ keptLines (unfinished cs ++ ds)) ∧
      lastN m (keptLines (cs ++ feedLines (l :: ls))) =
        lastN (m - (l :: ls).length) older ++ trimChars (unfinished cs ++ l) :: ls := by
  obtain ⟨older, holder⟩ := exists_keptLines_append cs
  refine ⟨older, holder, ?_⟩
  rw [List.forall_mem_cons] at htrim hfeed
  have hfirst : keptLines (unfinished cs ++ l) = [trimChars (unfinished cs ++ l)] := by
    refine keptLines_of_notMem ?_ fun hnil => ?_
    · rw [List.mem_append, not_or]
      exact ⟨feed_notMem_unfinished cs, hfeed.1⟩
    · have hblank := trimChars_eq_nil_iff.mp hnil
      refine htrim.1.2 ?_
      rw [← htrim.1.1, trimChars_eq_nil_iff]
      exact fun c hc => hblank c (List.mem_append_right _ hc)
  rw [keptLines_append_feedLines, holder, hfirst, flatMap_keptLines htrim.2 hfeed.2,
    List.append_assoc, List.singleton_append]
  exact lastN_append_of_length_le older hm

/-- Behind a text whose lines are finished, the newest lines are read back as they are remembered,
if the older ones are remembered too, or there is no room for them, or there are none. -/
theorem lastN_keptLines_of_blank (htrim : ∀ l ∈ ls, trimChars l = l ∧ l ≠ [])
    (hfeed : ∀ l ∈ ls, '\n' ∉ l) (hblank : ∀ c ∈ unfinished cs, isBlank c = true) {seen : Bool}
    (hseen : seen = true ∨ m ≤ ls.length ∨ keptLines cs = []) :
    lastN m (keptLines (cs ++ feedLines ls)) =
      lastN m ((if seen then lastN m (keptLines cs) else []) ++ ls) := by
  rw [keptLines_append_feedLines_of_blank hblank htrim hfeed]
  rcases hseen with rfl | hle | hnil
  · exact (lastN_lastN_append m _ ls).symm
  · rw [lastN_append_of_le _ hle, lastN_append_of_le _ hle]
  · have hempty : lastN m ([] : List (List Char)) = [] := lastN_of_length_le (Nat.zero_le m)
    rw [hnil, hempty, ite_self]

/-- Conversely, where there is room for all lines that were written, they are read back as they are
remembered only if the lines of the text were finished. -/
theorem blank_of_lastN_keptLines_eq (hne : ls ≠ []) (htrim : ∀ l ∈ ls, trimChars l = l ∧ l ≠ [])
    (hm : ls.length ≤ m) (hfeed : ∀ l ∈ ls, '\n' ∉ l) {seen : Bool}
    (h : lastN m (keptLines (cs ++ feedLines ls)) =
      lastN m ((if seen then lastN m (keptLines cs) else []) ++ ls)) :
    (∀ c ∈ unfinished cs, isBlank c = true) ∧
      (seen = true ∨ m ≤ ls.length ∨ keptLines cs = []) := by
  obtain ⟨l, ls, rfl⟩ := List.exists_cons_of_ne_nil hne
  have hl := htrim l List.mem_cons_self
  obtain ⟨older, holder, hread⟩ := lastN_keptLines_of_le htrim hm hfeed cs
  rw [hread, lastN_append_of_length_le _ hm] at h
  -- Both end in as many lines as were written, so older and new ones agree by themselves.
  obtain ⟨hold, hnew⟩ := List.append_inj' h rfl
  have hblank := blank_of_trimChars_append hl.2 hl.1 (List.cons.inj hnew).1
  refine ⟨hblank, ?_⟩
  rw [keptLines_eq_of_blank holder hblank]
  cases seen with
  | true => exact Or.inl rfl
  | false =>
      have hlen := congrArg List.length hold
      rw [length_lastN, length_lastN] at hlen
      simp only [Bool.false_eq_true, if_false, List.length_nil, Nat.min_zero] at hlen
      rcases Nat.eq_zero_or_pos older.length with hzero | hpos
      · exact Or.inr (Or.inr (List.eq_nil_of_length_eq_zero hzero))
      · exact Or.inr (Or.inl (by omega))

/-- When the newest lines that are read back are the newest ones of those that were remembered and
those that were written. -/
theorem lastN_keptLines_eq_iff (hne : ls ≠ []) (htrim : ∀ l ∈ ls, trimChars l = l ∧ l ≠ [])
    (m : Nat) (cs : List Char) (seen : Bool) :
    lastN m (keptLines (cs ++ feedLines ls)) =
        lastN m ((if seen then lastN m (keptLines cs) else []) ++ ls) ↔
      (∀ l ∈ lastN m ls, '\n' ∉ l) ∧
        ((∀ c ∈ unfinished cs, isBlank c = true) ∨ m < ls.length) ∧
        (seen = true ∨ m ≤ ls.length ∨ keptLines cs = []) := by
  rcases Nat.lt_or_ge m ls.length with hlt | hge
  · constructor
    · intro h
      exact ⟨feed_notMem_of_lastN_eq h, Or.inr hlt, Or.inr (Or.inl (Nat.le_of_lt hlt))⟩
    · rintro ⟨hfeed, -, -⟩
      rw [lastN_append_of_le _ (Nat.le_of_lt hlt)]
      exact lastN_keptLines_of_lt htrim hlt hfeed cs
  · rw [lastN_of_length_le hge, or_iff_left (Nat.not_lt.mpr hge)]
    constructor
    · intro h
      have hfeed := feed_notMem_of_lastN_eq h
      rw [lastN_of_length_le hge] at hfeed
      exact ⟨hfeed, blank_of_lastN_keptLines_eq hne htrim hge hfeed h⟩
    · rintro ⟨hfeed, hblank, hseen⟩
      exact lastN_keptLines_of_blank htrim hfeed hblank hseen

end LineShell.Text
