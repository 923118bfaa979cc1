import LineShell.Entry
import LineShell.Json.Reader

/-!
# Entries from JSON

An entry is read from an object with the two members `kind` and `text`, whatever else the object
holds, or from an array of just these two values. The kind is a word, or an object whose only key
is the word and whose value is null.
-/

namespace LineShell

/-- The text of a JSON value that is a text. -/
def Json.Raw.text? : Json.Raw → Option String
  | .text ps => Json.Piece.text? ps
  | _ => none

/-- The kind of entry that a JSON value stands for. -/
def EntryKind.ofRaw? : Json.Raw → Option EntryKind
  | .text ps => (Json.Piece.text? ps).bind ofName?
  | .object [(ps, .null)] => (Json.Piece.text? ps).bind ofName?
  | _ => none

namespace Entry

/-- The entry of a kind and a text. -/
def ofFields? (kind text : Json.Raw) : Option Entry := do
  let kind ← EntryKind.ofRaw? kind
  let text ← text.text?
  return { kind, text }

/-- The members of an object under their keys, all of which have to be text. -/
def members? : List (List Json.Piece × Json.Raw) → Option (List (String × Json.Raw))
  | [] => some []
  | (ps, v) :: ms => do
    let k ← Json.Piece.text? ps
    let rest ← members? ms
    return (k, v) :: rest

/-- The values of a key. -/
def valuesOf (key : String) (ms : List (String × Json.Raw)) : List Json.Raw :=
  (ms.filter fun m => m.1 = key).map Prod.snd

/-- The entry that a JSON value stands for. -/
def ofRaw? : Json.Raw → Option Entry
  | .array [kind, text] => ofFields? kind text
  | .object ms => do
    let ms ← members? ms
    match valuesOf "kind" ms, valuesOf "text" ms with
    | [kind], [text] => ofFields? kind text
    | _, _ => none
  | _ => none

/-- The entry of a JSON text. -/
def ofJson? (s : String) : Option Entry :=
  (Json.Raw.ofChars? s.toList).bind ofRaw?

end Entry

end LineShell
