import LineShell.LineBuffer

/-!
# The input line as two texts

The caret cuts the input line in two: the text in front of it and the text behind it (`Parts`). On
the two texts every edit is plain: it works at the end of the first or at the head of the second
(`Parts.edit`). An edit of a line that is made of two texts is the edit of the texts
(`edit_ofParts`, one case for each edit), and so are many, by induction. An edit whose place were
out of range would leave the line as it is; that no insertion and no removal does so can be read off
the number of characters.
-/

namespace LineShell.LineBuffer

/-! ## Edits -/

/-- What is done to an input line. -/
inductive Edit
  | set (s : String)
  | take
  | insert (c : Char)
  | backspace
  | delete
  | left
  | right
  | home
  | «end»

/-- Edits the line. Taking the text gives it back. -/
def edit (b : LineBuffer) : Edit → LineBuffer × Option String
  | .set s => (b.set s, none)
  | .take => (b.take.1, some b.take.2)
  | .insert c => (b.insert c, none)
  | .backspace => (b.backspace, none)
  | .delete => (b.delete, none)
  | .left => (b.left, none)
  | .right => (b.right, none)
  | .home => (b.toStart, none)
  | .end => (b.toEnd, none)

def editAll (b : LineBuffer) (es : List Edit) : LineBuffer := es.foldl (fun b e => (b.edit e).1) b

/-! ## The two texts -/

/-- A line as the text in front of the caret and the text behind it. -/
structure Parts where
  before : List Char
  after : List Char

namespace Parts

/-- The caret is crossed by the last character in front of it, if there is one. -/
def left (p : Parts) : Parts :=
  match p.before.getLast? with
  | some c => ⟨p.before.dropLast, c :: p.after⟩
  | none => p

/-- The caret is crossed by the first character behind it, if there is one. -/
def right (p : Parts) : Parts :=
  match p.after with
  | c :: cs => ⟨p.before ++ [c], cs⟩
  | [] => p

/-- Edits the texts. Nothing can be dropped from an empty one. -/
def edit (p : Parts) : Edit → Parts × Option String
  | .set s => (⟨s.toList, []⟩, none)
  | .take => (⟨[], []⟩, some (String.ofList (p.before ++ p.after)))
  | .insert c => (⟨p.before ++ [c], p.after⟩, none)
  | .backspace => (⟨p.before.dropLast, p.after⟩, none)
  | .delete => (⟨p.before, p.after.tail⟩, none)
  | .left => (p.left, none)
  | .right => (p.right, none)
  | .home => (⟨[], p.before ++ p.after⟩, none)
  | .end => (⟨p.before ++ p.after, []⟩, none)

def editAll (p : Parts) (es : List Edit) : Parts := es.foldl (fun p e => (p.edit e).1) p

end Parts

/-- The line made of two texts, with the caret between them. -/
def ofParts (p : Parts) : LineBuffer where
  chars := p.before ++ p.after
  caret := p.before.length
  caret_le := by
    rw [List.length_append]
    exact Nat.le_add_right ..

/-! ## One edit -/

theorem insertIdx_length_append (before after : List Char) (c : Char) :
    (before ++ after).insertIdx before.length c = before ++ c :: after := by
  induction before with
  | nil => rfl
  | cons b before ih =>
      rw [List.cons_append, List.length_cons, List.insertIdx_succ_cons, ih, List.cons_append]

theorem ofParts_insert (p : Parts) (c : Char) :
    (ofParts p).insert c = ofParts (p.edit (.insert c)).1 := by
  simp [ofParts, insert, Parts.edit, insertIdx_length_append]

theorem ofParts_backspace (p : Parts) :
    (ofParts p).backspace = ofParts (p.edit .backspace).1 := by
  obtain ⟨before, after⟩ := p
  rcases before.eq_nil_or_concat with rfl | ⟨before, c, rfl⟩
  · rfl
  · simp [ofParts, backspace, Parts.edit, List.eraseIdx_append_of_length_le]

theorem ofParts_delete (p : Parts) : (ofParts p).delete = ofParts (p.edit .delete).1 := by
  simp [ofParts, delete, Parts.edit, List.eraseIdx_append_of_length_le, List.eraseIdx_zero]

theorem ofParts_left (p : Parts) : (ofParts p).left = ofParts p.left := by
  obtain ⟨before, after⟩ := p
  rcases before.eq_nil_or_concat with rfl | ⟨before, c, rfl⟩
  · rfl
  · simp [ofParts, left, Parts.left]

theorem ofParts_right (p : Parts) : (ofParts p).right = ofParts p.right := by
  obtain ⟨before, after⟩ := p
  cases after with
  | nil => simp [ofParts, right, Parts.right]
  | cons c after => simp [ofParts, right, Parts.right]

/-- An edit of the line is the edit of the two texts. -/
theorem edit_ofParts (p : Parts) (e : Edit) :
    (ofParts p).edit e = (ofParts (p.edit e).1, (p.edit e).2) := by
  cases e with
  | set s => simp [edit, Parts.edit, set, ofList, ofParts]
  | take => rfl
  | insert c => rw [edit, ofParts_insert]; rfl
  | backspace => rw [edit, ofParts_backspace]; rfl
  | delete => rw [edit, ofParts_delete]; rfl
  | left => rw [edit, ofParts_left]; rfl
  | right => rw [edit, ofParts_right]; rfl
  | home => rfl
  | «end» => simp [edit, Parts.edit, toEnd, ofList, ofParts]

/-! ## Many edits -/

theorem editAll_ofParts (p : Parts) (es : List Edit) :
    (ofParts p).editAll es = ofParts (p.editAll es) := by
  induction es generalizing p with
  | nil => rfl
  | cons e es ih =>
      show ((ofParts p).edit e).1.editAll es = ofParts ((p.edit e).1.editAll es)
      rw [edit_ofParts, ih]

/-- No insertion and no removal is out of range: each changes the number of characters by one, but
that nothing is removed where nothing stands on that side of the caret. -/
theorem length_chars_edits (b : LineBuffer) (c : Char) :
    (b.insert c).chars.length = b.chars.length + 1 ∧
      b.backspace.chars.length + min 1 b.caret = b.chars.length ∧
      b.delete.chars.length + min 1 (b.chars.length - b.caret) = b.chars.length := by
  have hle := b.caret_le
  refine ⟨List.length_insertIdx_of_le_length hle c, ?_, ?_⟩
  · show (if 0 < b.caret then b.chars.eraseIdx (b.caret - 1) else b.chars).length + _ = _
    split
    · rw [List.length_eraseIdx_of_lt (by omega)]
      omega
    · omega
  · show (b.chars.eraseIdx b.caret).length + _ = _
    rw [List.length_eraseIdx]
    split <;> omega

/-- The input line is a two-sided buffer. After any edits of an empty line, the caret is within the
line, the line is the text in front of the caret and the text behind it as the same edits of two
empty texts leave them, and the caret counts the characters of the first. Whatever is done next does
the same to the line and to the two texts, and gives the same text back. No insertion is out of
range, and no removal is. -/
theorem editAll_empty_two_sided (es : List Edit) :
    let b := empty.editAll es
    let p := Parts.editAll ⟨[], []⟩ es
    b.caret ≤ b.chars.length ∧ b.text = String.ofList (p.before ++ p.after) ∧
      b.caret = p.before.length ∧
      (∀ e, b.edit e = (ofParts (p.edit e).1, (p.edit e).2)) ∧
      ∀ c, (b.insert c).chars.length = b.chars.length + 1 ∧
        b.backspace.chars.length + min 1 b.caret = b.chars.length ∧
        b.delete.chars.length + min 1 (b.chars.length - b.caret) = b.chars.length := by
  intro b p
  have hb : b = ofParts p := editAll_ofParts ⟨[], []⟩ es
  refine ⟨b.caret_le, ?_, ?_, fun e => ?_, b.length_chars_edits⟩
  · rw [hb]
    rfl
  · rw [hb]
    rfl
  · rw [hb, edit_ofParts]

example : empty.editAll [.set "ac", .left, .insert 'b', .home, .delete] =
    ofParts ⟨[], ['b', 'c']⟩ := by rfl

end LineShell.LineBuffer
