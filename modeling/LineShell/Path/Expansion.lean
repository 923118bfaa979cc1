import LineShell.Environment
import LineShell.Text.CharClass

/-!
# Expansion of paths

A path that a user gives may begin with a tilde for the user's directory, and may name environment
variables. A text is first cut into what stands for itself and what stands for a variable; so what
a variable holds is never looked at again. If a variable is not defined, none is replaced.
-/

namespace LineShell

namespace Expansion

/-- A part of a text with variables. -/
inductive Part
  | literal (cs : List Char)
  /-- A variable, and what stands in for it if it is not defined. -/
  | variable (name : String) (default? : Option (List Char))
deriving DecidableEq, Repr

/-- Whether a character may stand in a name that is not in braces. -/
def isNameChar (c : Char) : Bool := Text.isLetterOrDigit c || c == '_'

/-- The text in front of a colon and a dash, and the text behind them. -/
def splitDefault? : List Char → Option (List Char × List Char)
  | [] => none
  | ':' :: '-' :: cs => some ([], cs)
  | c :: cs => (splitDefault? cs).map fun (name, default) => (c :: name, default)

/-- The variable that is given between braces. A default needs a name in front of it. -/
def braced (cs : List Char) : Part :=
  match splitDefault? cs with
  | some (c :: name, default) => .variable (String.ofList (c :: name)) (some default)
  | _ => .variable (String.ofList cs) none

theorem length_of_dropWhile_eq_cons {p : Char → Bool} {c : Char} {cs rest : List Char}
    (h : cs.dropWhile p = c :: rest) : rest.length < cs.length := by
  have := (List.dropWhile_suffix (l := cs) p).length_le
  rw [h, List.length_cons] at this
  exact this

/-- The parts of a text. -/
def parts : List Char → List Part
  | [] => []
  | c :: cs =>
    if c = '$' then
      match cs with
      | '\x7b' :: cs =>
        match h : cs.dropWhile (· ≠ '\x7d') with
        | [] => .literal ['$', '\x7b'] :: parts cs
        | _ :: rest =>
          have := length_of_dropWhile_eq_cons h
          braced (cs.takeWhile (· ≠ '\x7d')) :: parts rest
      | '$' :: cs => .literal ['$'] :: parts cs
      | d :: cs =>
        if isNameChar d then
          have := (List.dropWhile_suffix (l := cs) isNameChar).length_le
          .variable (String.ofList (d :: cs.takeWhile isNameChar)) none
            :: parts (cs.dropWhile isNameChar)
        else .literal ['$'] :: parts (d :: cs)
      | [] => [.literal ['$']]
    else .literal [c] :: parts cs
termination_by cs => cs.length

/-- What a part stands for. -/
def Part.value? (env : Environment) : Part → Option (List Char)
  | .literal cs => some cs
  | .variable name default? =>
    match env.value? name with
    | some v => some v.toList
    | none => default?

/-- The text with all its variables replaced, unless one is not defined. -/
def substitute? (env : Environment) (cs : List Char) : Option (List Char) :=
  ((parts cs).mapM (Part.value? env)).map List.flatten

/-- The text with a leading tilde replaced. It has to stand alone or in front of a slash. -/
def expandTilde (env : Environment) (cs : List Char) : List Char :=
  match cs with
  | '~' :: rest =>
    if rest = [] ∨ rest.head? = some '/' then
      match env.home? with
      | some home => home.text.toList ++ rest
      | none => cs
    else cs
  | _ => cs

end Expansion

/-- The path that a path of the user means. A tilde that comes from a variable is none. -/
def Path.expand (env : Environment) (p : Path) : Path :=
  let cs := p.text.toList
  match Expansion.substitute? env cs with
  | none => ⟨String.ofList (Expansion.expandTilde env cs)⟩
  | some cs' =>
    if cs.head? ≠ some '~' ∧ cs'.head? = some '~' then ⟨String.ofList cs'⟩
    else ⟨String.ofList (Expansion.expandTilde env cs')⟩

end LineShell
