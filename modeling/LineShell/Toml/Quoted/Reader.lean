import LineShell.Text.Hex
import LineShell.Toml

/-!
# Reading quoted text

Text stands between single quotes of either sort, or between three of them. Between double quotes
there are escapes. Main statement: reading a text takes at least its closing quote.
-/

namespace LineShell.Toml.Quoted

/-! ## Escapes -/

/-- The character whose code point the first `n` digits are, and the rest. -/
def codePoint? (n : Nat) (cs : List Char) : Option (Char × List Char) :=
  if n ≤ cs.length then
    match Text.hexNumber? (cs.take n) with
    | some v => if v.isValidChar then some (Char.ofNat v, cs.drop n) else none
    | none => none
  else none

/-- The character that a backslash and what follows it stand for, and the rest. -/
def escaped : List Char → Option (Char × List Char)
  | [] => none
  | e :: cs =>
    match e with
    | 'b' => some ('\x08', cs)
    | 't' => some ('\t', cs)
    | 'n' => some ('\n', cs)
    | 'f' => some ('\x0c', cs)
    | 'r' => some ('\r', cs)
    | '\x22' => some ('\x22', cs)
    | '\\' => some ('\\', cs)
    | 'u' => codePoint? 4 cs
    | 'U' => codePoint? 8 cs
    | _ => none

theorem length_codePoint? {n : Nat} {cs rest : List Char} {c : Char}
    (h : codePoint? n cs = some (c, rest)) : rest.length ≤ cs.length := by
  unfold codePoint? at h
  split at h
  · split at h
    · split at h
      · simp only [Option.some.injEq, Prod.mk.injEq] at h
        obtain ⟨-, rfl⟩ := h
        simp
      · simp at h
    · simp at h
  · simp at h

theorem length_escaped {cs rest : List Char} {c : Char} (h : escaped cs = some (c, rest)) :
    rest.length < cs.length := by
  unfold escaped at h
  split at h
  · simp at h
  · rename_i e cs
    refine Nat.lt_succ_of_le ?_
    split at h
    case h_8 => exact length_codePoint? h
    case h_9 => exact length_codePoint? h
    all_goals simp at h
    all_goals simp [h.2]

/-! ## Text on one line -/

/-- The text up to the closing double quote, and the rest. -/
def basic : List Char → Option (List Char × List Char)
  | [] => none
  | c :: cs =>
    if c = '\x22' then some ([], cs)
    else if c = '\\' then
      match h : escaped cs with
      | none => none
      | some (d, rest) =>
        have := length_escaped h
        (basic rest).map fun (ds, rest) => (d :: ds, rest)
    else if isPrinted c then (basic cs).map fun (ds, rest) => (c :: ds, rest)
    else none
termination_by cs => cs.length

/-- The text up to the closing single quote, and the rest. -/
def literal : List Char → Option (List Char × List Char)
  | [] => none
  | c :: cs =>
    if c = '\x27' then some ([], cs)
    else if isPrinted c then (literal cs).map fun (ds, rest) => (c :: ds, rest)
    else none

/-! ## Text on several lines -/

/-- The quotes that end a text, where `n` of `q` stand in a row and are followed by `rest`: three
of them close it, up to two in front of these belong to it, and more than five are left over. Fewer
than three close nothing. -/
def closing (q : Char) (n : Nat) (rest : List Char) : List Char × List Char :=
  (List.replicate (min (n - 3) 2) q, List.replicate (n - 5) q ++ rest)

/-- What is behind the line breaks and blanks at the head. -/
def skipBreaks : List Char → List Char
  | [] => []
  | '\r' :: '\n' :: cs => skipBreaks cs
  | c :: cs => if isBlank c || c == '\n' then skipBreaks cs else c :: cs

/-- What is behind a backslash at the end of a line: all blanks and line breaks are left out. -/
def continued? (cs : List Char) : Option (List Char) :=
  (afterBreak? (cs.dropWhile isBlank)).map skipBreaks

theorem length_skipBreaks (cs : List Char) : (skipBreaks cs).length ≤ cs.length := by
  fun_induction skipBreaks cs <;> simp_all <;> omega

theorem length_continued? {cs rest : List Char} (h : continued? cs = some rest) :
    rest.length < cs.length := by
  simp only [continued?, Option.map_eq_some_iff] at h
  obtain ⟨r, hr, rfl⟩ := h
  have := length_skipBreaks r
  have := length_afterBreak? hr
  have := (List.dropWhile_suffix (l := cs) isBlank).length_le
  omega

/-- The text up to the closing three double quotes, and the rest. The quotes `n` stand in a row just
before. -/
def longBasic (n : Nat) : List Char → Option (List Char × List Char)
  | [] => if 3 ≤ n then some (closing '\x22' n []) else none
  | c :: cs =>
    if c = '\x22' then longBasic (n + 1) cs
    else if 3 ≤ n then some (closing '\x22' n (c :: cs))
    else
      let quotes := List.replicate n '\x22'
      if c = '\\' then
        match h : continued? cs with
        | some rest =>
          have := length_continued? h
          (longBasic 0 rest).map fun (ds, rest) => (quotes ++ ds, rest)
        | none =>
          match h : escaped cs with
          | none => none
          | some (d, rest) =>
            have := length_escaped h
            (longBasic 0 rest).map fun (ds, rest) => (quotes ++ d :: ds, rest)
      else if isPrinted c then (longBasic 0 cs).map fun (ds, rest) => (quotes ++ c :: ds, rest)
      else
        match h : afterBreak? (c :: cs) with
        | none => none
        | some rest =>
          have : rest.length ≤ cs.length := Nat.le_of_lt_succ (length_afterBreak? h)
          (longBasic 0 rest).map fun (ds, rest) => (quotes ++ '\n' :: ds, rest)
termination_by cs => cs.length

/-- The text up to the closing three single quotes, and the rest. -/
def longLiteral (n : Nat) : List Char → Option (List Char × List Char)
  | [] => if 3 ≤ n then some (closing '\x27' n []) else none
  | c :: cs =>
    if c = '\x27' then longLiteral (n + 1) cs
    else if 3 ≤ n then some (closing '\x27' n (c :: cs))
    else
      let quotes := List.replicate n '\x27'
      if isPrinted c then (longLiteral 0 cs).map fun (ds, rest) => (quotes ++ c :: ds, rest)
      else
        match h : afterBreak? (c :: cs) with
        | none => none
        | some rest =>
          have : rest.length ≤ cs.length := Nat.le_of_lt_succ (length_afterBreak? h)
          (longLiteral 0 rest).map fun (ds, rest) => (quotes ++ '\n' :: ds, rest)
termination_by cs => cs.length

/-- The text without a line break at its head. -/
def dropBreak (cs : List Char) : List Char := (afterBreak? cs).getD cs

/-- A text in quotes of any sort, and the rest. -/
def read? : List Char → Option (List Char × List Char)
  | '\x22' :: '\x22' :: '\x22' :: cs => longBasic 0 (dropBreak cs)
  | '\x22' :: cs => basic cs
  | '\x27' :: '\x27' :: '\x27' :: cs => longLiteral 0 (dropBreak cs)
  | '\x27' :: cs => literal cs
  | _ => none

end LineShell.Toml.Quoted
