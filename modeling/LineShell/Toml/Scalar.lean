import LineShell.Decimal.Numeral
import LineShell.Text.Hex
import LineShell.Toml.Quoted.Reader

/-!
# Scalars in TOML documents

Numbers, dates and times, booleans and text, each with the rest of the document behind it. Whole
numbers have 64 bits; a positive float must not be beyond the greatest double.
-/

namespace LineShell.Toml

/-! ## Numbers -/

/-- Whether digits stand in groups that single underscores separate. -/
def isGrouped (isDigit : Char → Bool) : List Char → Bool
  | [] => false
  | [c] => isDigit c
  | c :: '_' :: cs => isDigit c && isGrouped isDigit cs
  | c :: cs => isDigit c && isGrouped isDigit cs

/-- The digits of a numeral, without the underscores, and the rest. -/
def grouped? (isDigit : Char → Bool) (cs : List Char) : Option (List Char × List Char) :=
  let run := cs.takeWhile fun c => isDigit c || c == '_'
  if isGrouped isDigit run then
    some (run.filter isDigit, cs.dropWhile fun c => isDigit c || c == '_')
  else none

/-- The digits in front of a point. Only a zero may begin with zero. -/
def whole? (cs : List Char) : Option (List Char × List Char) := do
  let (ds, rest) ← grouped? Char.isDigit cs
  if ds.head? = some '0' ∧ cs.takeWhile (fun c => c.isDigit || c == '_') ≠ ['0'] then none
  else some (ds, rest)

/-- The integer of a number, if it has 64 bits. -/
def integer? (n : Int) : Option Toml :=
  if Int64.minValue.toInt ≤ n ∧ n ≤ Int64.maxValue.toInt then some (.integer n) else none

/-- The least number that is nearer to two to the power 1024 than to the greatest double, or as
near. -/
def overflow : Nat := 1 <<< 1024 - 1 <<< 970

/-- Whether the decimal with the given digits and exponent is beyond the greatest double. -/
def isTooLarge (digits : List Char) (exponent : Int) : Bool :=
  let n := Decimal.ofDigits digits
  n ≠ 0 && 308 < digits.length + exponent
    && (400 < exponent
      || overflow * Nat.pow 10 (-exponent).toNat ≤ n * Nat.pow 10 exponent.toNat)

/-- The digits of an exponent behind its mark, with their sign. -/
def exponent? : List Char → Option (Int × List Char)
  | '-' :: cs => (grouped? Char.isDigit cs).map fun (ds, rest) => (-Decimal.ofDigits ds, rest)
  | '+' :: cs => (grouped? Char.isDigit cs).map fun (ds, rest) => (Decimal.ofDigits ds, rest)
  | cs => (grouped? Char.isDigit cs).map fun (ds, rest) => (Decimal.ofDigits ds, rest)

/-- The float with the given digits whose exponent, if it has one, is next. -/
def float? (negative : Bool) (whole fraction : List Char) (cs : List Char) :
    Option (Toml × List Char) := do
  let (x, rest) ←
    match cs with
    | c :: cs' => if c = 'e' ∨ c = 'E' then exponent? cs' else some (0, cs)
    | [] => some (0, [])
  if !negative && isTooLarge (whole ++ fraction) (x - fraction.length) then none
  else some (.float, rest)

/-- A number in decimal digits behind its sign. -/
def decimal? (negative : Bool) (cs : List Char) : Option (Toml × List Char) := do
  let (whole, rest) ← whole? cs
  match rest with
  | '.' :: rest => do
    let (fraction, rest) ← grouped? Char.isDigit rest
    float? negative whole fraction rest
  | c :: _ =>
    if c = 'e' ∨ c = 'E' then float? negative whole [] rest
    else do
      let v ← signed whole
      some (v, rest)
  | [] => do
    let v ← signed whole
    some (v, [])
where
  /-- The whole number of the digits with the sign. -/
  signed (whole : List Char) : Option Toml :=
    let n : Int := Decimal.ofDigits whole
    integer? (if negative then -n else n)

/-- Whether a character is a digit below `base`. -/
def isDigitOf (base : Nat) (c : Char) : Bool :=
  match Text.hexDigit? c with
  | some d => d < base
  | none => false

/-- The number that digits of the given base stand for. -/
def ofDigitsOf (base : Nat) (ds : List Char) : Nat :=
  ds.foldl (fun n c => n * base + (Text.hexDigit? c).getD 0) 0

/-- A number of the given base behind its mark. -/
def based? (base : Nat) (cs : List Char) : Option (Toml × List Char) := do
  let (ds, rest) ← grouped? (isDigitOf base) cs
  let v ← integer? (ofDigitsOf base ds)
  some (v, rest)

/-- A number behind its sign, or what is no number or no finite one. -/
def unsigned? (negative : Bool) (cs : List Char) : Option (Toml × List Char) :=
  match cs with
  | 'i' :: 'n' :: 'f' :: rest => some (.float, rest)
  | 'n' :: 'a' :: 'n' :: rest => some (.float, rest)
  | _ => decimal? negative cs

/-- A number. -/
def number? : List Char → Option (Toml × List Char)
  | '+' :: cs => unsigned? false cs
  | '-' :: cs => unsigned? true cs
  | '0' :: 'x' :: cs => based? 16 cs
  | '0' :: 'o' :: cs => based? 8 cs
  | '0' :: 'b' :: cs => based? 2 cs
  | cs => unsigned? false cs

/-! ## Dates and times -/

/-- The number of the first `n` characters, which are digits, and the rest. -/
def digits? (n : Nat) (cs : List Char) : Option (Nat × List Char) :=
  let ds := cs.take n
  if ds.length = n ∧ ds.all Char.isDigit then some (Decimal.ofDigits ds, cs.drop n) else none

/-- What is behind the character `c`. -/
def after? (c : Char) : List Char → Option (List Char)
  | [] => none
  | d :: cs => if d = c then some cs else none

/-- How many days a month has. -/
def daysIn (year month : Nat) : Nat :=
  if month = 2 then
    if year % 4 = 0 ∧ (year % 100 ≠ 0 ∨ year % 400 = 0) then 29 else 28
  else if month = 4 ∨ month = 6 ∨ month = 9 ∨ month = 11 then 30
  else 31

/-- What is behind a date. -/
def afterDate? (cs : List Char) : Option (List Char) := do
  let (year, cs) ← digits? 4 cs
  let cs ← after? '-' cs
  let (month, cs) ← digits? 2 cs
  let cs ← after? '-' cs
  let (day, cs) ← digits? 2 cs
  if 1 ≤ month ∧ month ≤ 12 ∧ 1 ≤ day ∧ day ≤ daysIn year month then some cs else none

/-- What is behind the hours and minutes of a time. -/
def afterMinutes? (cs : List Char) : Option (List Char) := do
  let (hour, cs) ← digits? 2 cs
  let cs ← after? ':' cs
  let (minute, cs) ← digits? 2 cs
  if hour ≤ 23 ∧ minute ≤ 59 then some cs else none

/-- What is behind the fraction of a second, if there is one. -/
def afterFraction (cs : List Char) : List Char :=
  match cs with
  | '.' :: c :: rest => if c.isDigit then rest.dropWhile Char.isDigit else cs
  | _ => cs

/-- What is behind a time. A minute may have a leap second. -/
def afterTime? (cs : List Char) : Option (List Char) := do
  let cs ← afterMinutes? cs
  let cs ← after? ':' cs
  let (second, cs) ← digits? 2 cs
  if second ≤ 60 then some (afterFraction cs) else none

/-- What is behind the offset of a time, if there is one. -/
def afterOffset (cs : List Char) : List Char :=
  match cs with
  | c :: rest =>
    if c = 'Z' ∨ c = 'z' then rest
    else if c = '+' ∨ c = '-' then (afterMinutes? rest).getD cs
    else cs
  | [] => []

/-- What is behind a date, a time, or both. -/
def afterMoment? (cs : List Char) : Option (List Char) :=
  match afterDate? cs with
  | none => afterTime? cs
  | some rest =>
    match rest with
    | c :: rest' =>
      if c = 'T' ∨ c = 't' ∨ c = ' ' then
        match afterTime? rest' with
        | some rest'' => some (afterOffset rest'')
        | none => some rest
      else some rest
    | [] => some []

/-! ## Scalars -/

/-- A scalar, and the rest. -/
def scalar? : List Char → Option (Toml × List Char)
  | 't' :: 'r' :: 'u' :: 'e' :: rest => some (.boolean true, rest)
  | 'f' :: 'a' :: 'l' :: 's' :: 'e' :: rest => some (.boolean false, rest)
  | c :: cs =>
    if c = '\x22' ∨ c = '\x27' then
      (Quoted.read? (c :: cs)).map fun (s, rest) => (.text (String.ofList s), rest)
    else
      match afterMoment? (c :: cs) with
      | some rest => some (.moment, rest)
      | none => number? (c :: cs)
  | [] => none

end LineShell.Toml
