import LineShell.Toml.Scalar

/-!
# The lines of a TOML document

A document is a list of lines: headers of tables, assignments of values to keys, and lines that say
nothing. The values are read here, but which table a key belongs to is left open.

Arrays and inline tables may be nested to a limit, and so may the parts of a key. Where a list goes
on behind a comma, something has been taken from the text, so the lists end.
-/

namespace LineShell.Toml

/-- The greatest number of parts of a key, and of arrays and inline tables in each other. -/
def maxNesting : Nat := 79

/-- A key, as its parts. -/
abbrev KeyPath := List String

/-- A value whose inline tables are not put together yet. -/
inductive Item
  | scalar (v : Toml)
  | array (items : List Item)
  | inline (members : List (KeyPath × Item))

/-- A line of a document. -/
inductive Line
  | blank
  /-- The header of a table. -/
  | table (path : KeyPath)
  /-- The header of an element of an array of tables. -/
  | element (path : KeyPath)
  | assignment (path : KeyPath) (item : Item)

/-! ## Blanks and comments -/

/-- What is behind the blanks at the head. -/
def skipBlanks (cs : List Char) : List Char := cs.dropWhile isBlank

/-- What is behind a comment, if there is one. -/
def skipComment : List Char → List Char
  | '#' :: cs => cs.dropWhile isPrinted
  | cs => cs

/-- What is behind the end of a line: blanks, a comment, and a line break unless the document ends
there. -/
def lineEnd? (cs : List Char) : Option (List Char) :=
  match skipComment (skipBlanks cs) with
  | [] => some []
  | rest => afterBreak? rest

/-- What is behind blanks, comments and line breaks. -/
def skipLines : List Char → List Char
  | [] => []
  | c :: cs =>
    if c = '#' then
      have := (List.dropWhile_suffix (l := cs) isPrinted).length_le
      skipLines (cs.dropWhile isPrinted)
    else if isBlank c then skipLines cs
    else
      match h : afterBreak? (c :: cs) with
      | some rest =>
        have : rest.length ≤ cs.length := Nat.le_of_lt_succ (length_afterBreak? h)
        skipLines rest
      | none => c :: cs
termination_by cs => cs.length

/-! ## Keys -/

/-- A part of a key, and the rest. -/
def keyPart? : List Char → Option (String × List Char)
  | [] => none
  | c :: cs =>
    if c = '\x22' then (Quoted.basic cs).map fun (s, rest) => (String.ofList s, rest)
    else if c = '\x27' then (Quoted.literal cs).map fun (s, rest) => (String.ofList s, rest)
    else if isBareKeyChar c then
      some (String.ofList (c :: cs.takeWhile isBareKeyChar), cs.dropWhile isBareKeyChar)
    else none

/-- A key of at most `n` parts, with the blanks around it, and the rest. -/
def keyOf? : Nat → List Char → Option (KeyPath × List Char)
  | 0, _ => none
  | n + 1, cs => do
    let (k, rest) ← keyPart? (skipBlanks cs)
    match skipBlanks rest with
    | '.' :: rest => do
      let (ks, rest) ← keyOf? n rest
      return (k :: ks, rest)
    | rest => return ([k], rest)

/-- A key, with the blanks around it, and the rest. -/
def key? (cs : List Char) : Option (KeyPath × List Char) := keyOf? maxNesting cs

/-! ## Values -/

mutual

/-- A value with at most `depth` arrays and inline tables in each other, and the rest. -/
def item? (depth : Nat) (cs : List Char) : Option (Item × List Char) :=
  match cs, depth with
  | '[' :: _, 0 => none
  | '[' :: cs, depth + 1 => (items? depth (skipLines cs)).map fun (vs, rest) => (.array vs, rest)
  | '\x7b' :: _, 0 => none
  | '\x7b' :: cs, depth + 1 =>
    match skipBlanks cs with
    | '\x7d' :: rest => some (.inline [], rest)
    | cs => (members? depth cs).map fun (ms, rest) => (.inline ms, rest)
  | cs, _ => (scalar? cs).map fun (v, rest) => (.scalar v, rest)
termination_by (depth, 0, 0)

/-- The items of an array up to its end, and the rest. -/
def items? (depth : Nat) (cs : List Char) : Option (List Item × List Char) :=
  match cs with
  | ']' :: rest => some ([], rest)
  | cs => do
    let (v, rest) ← item? depth cs
    match skipLines rest with
    | ']' :: rest => some ([v], rest)
    | ',' :: rest =>
      let rest := skipLines rest
      if rest.length < cs.length then do
        let (vs, rest) ← items? depth rest
        return (v :: vs, rest)
      else none
    | _ => none
termination_by (depth, 1, cs.length)

/-- The members of an inline table up to its end, and the rest. There is at least one. -/
def members? (depth : Nat) (cs : List Char) : Option (List (KeyPath × Item) × List Char) := do
  let (k, rest) ← key? cs
  let rest ← after? '=' rest
  let (v, rest) ← item? depth (skipBlanks rest)
  match skipBlanks rest with
  | '\x7d' :: rest => some ([(k, v)], rest)
  | ',' :: rest =>
    if rest.length < cs.length then do
      let (ms, rest) ← members? depth rest
      return ((k, v) :: ms, rest)
    else none
  | _ => none
termination_by (depth, 1, cs.length)

end

/-! ## Lines -/

/-- The assignment at the head, without the end of its line. -/
def assignment? (cs : List Char) : Option (Line × List Char) := do
  let (path, rest) ← key? cs
  let rest ← after? '=' rest
  let (v, rest) ← item? maxNesting (skipBlanks rest)
  return (.assignment path v, rest)

/-- What a line says, and what is left behind it of the document, without the end of the line. -/
def content? (cs : List Char) : Option (Line × List Char) :=
  match skipBlanks cs with
  | [] => some (.blank, [])
  | '[' :: '[' :: cs => do
    let (path, rest) ← key? cs
    let rest ← after? ']' rest
    let rest ← after? ']' rest
    return (.element path, rest)
  | '[' :: cs => do
    let (path, rest) ← key? cs
    let rest ← after? ']' rest
    return (.table path, rest)
  | c :: cs =>
    if c = '#' ∨ (afterBreak? (c :: cs)).isSome then some (.blank, c :: cs)
    else assignment? (c :: cs)

/-- The lines of a document. -/
def lines? (cs : List Char) : Option (List Line) :=
  match cs with
  | [] => some []
  | cs => do
    let (l, rest) ← content? cs
    let rest ← lineEnd? rest
    if rest.length < cs.length then do
      let ls ← lines? rest
      return l :: ls
    else none
termination_by cs.length

end LineShell.Toml
