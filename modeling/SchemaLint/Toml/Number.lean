import SchemaLint.Json.Value
import SchemaLint.Toml.Value
import SchemaLint.Unicode.CodePoints

/-!
# Numbers and times

Digits may be set off by single underscores. A decimal number has no leading zero and may have a
sign; the other bases have a mark of their own and no sign. Integers fit 64 bits. Of a date the day
has to be in its month.
-/

namespace SchemaLint.Toml

/-- Reads digits that go on after others, the values that `digit?` gives them. -/
def moreDigits (digit? : Char → Option Nat) : List Char → List Nat × List Char
  | [] => ([], [])
  | '_' :: c :: s =>
    match digit? c with
    | some n =>
      let (ns, s) := moreDigits digit? s
      (n :: ns, s)
    | none => ([], '_' :: c :: s)
  | c :: s =>
    match digit? c with
    | some n =>
      let (ns, s) := moreDigits digit? s
      (n :: ns, s)
    | none => ([], c :: s)

/-- Reads digits, the first of which stands without an underscore. -/
def digits? (digit? : Char → Option Nat) : List Char → Option (List Nat × List Char)
  | [] => none
  | c :: s => do
    let n ← digit? c
    let (ns, s) := moreDigits digit? s
    return (n :: ns, s)

/-- The value of a digit of a base up to sixteen. -/
def digitBelow? (base : Nat) (c : Char) : Option Nat :=
  (Unicode.CodePoints.hexDigit? c).filter (· < base)

/-- The number that digits mean in a base. -/
def ofDigits (base : Nat) (ns : List Nat) : Nat :=
  ns.foldl (fun value n => value * base + n) 0

/-- The least number that is too large for an integer. -/
def integerBound : Nat := 1 <<< 63

/-- Reads the digits of an integer in a base other than ten. -/
def inBase? (base : Nat) (s : List Char) : Option (Value × List Char) := do
  let (ns, s) ← digits? (digitBelow? base) s
  let n := ofDigits base ns
  if n < integerBound then return (.integer n, s) else none

/-- Reads a sign, which is true for a minus. -/
def sign? : List Char → Option Bool × List Char
  | '+' :: s => (some false, s)
  | '-' :: s => (some true, s)
  | s => (none, s)

/-- Reads the digits before a point. -/
def wholePart? : List Char → Option (List Nat × List Char)
  | '0' :: s => some ([0], s)
  | s => digits? (digitBelow? 10) s

/-- Reads the digits after a point, if there is one. -/
def places? : List Char → Option (List Nat × List Char)
  | '.' :: s => digits? (digitBelow? 10) s
  | s => some ([], s)

/-- Reads an exponent, if there is one. -/
def exponent? : List Char → Option (Option Int × List Char)
  | c :: s =>
    if c == 'e' || c == 'E' then do
      let (sign, s) := sign? s
      let (ns, s) ← digits? (digitBelow? 10) s
      let n : Int := ofDigits 10 ns
      return (some (if sign == some true then -n else n), s)
    else some (none, c :: s)
  | [] => some (none, [])

/-- Reads a decimal number; one that is positive and too large is none. -/
def decimal? (s : List Char) : Option (Value × List Char) := do
  let (sign, s) := sign? s
  let negative := sign == some true
  let (whole, s) ← wholePart? s
  let (places, s) ← places? s
  let (exponent, s) ← exponent? s
  let n := ofDigits 10 (whole ++ places)
  if places.isEmpty && exponent.isNone then
    if n < integerBound || (negative && n == integerBound) then
      return (.integer (if negative then -(n : Int) else n), s)
    else none
  else
    let number : Json.Number :=
      { negative, digits := n, exponent := exponent.getD 0 - places.length, isInteger := false }
    if negative || number.isFinite then return (.float, s) else none

/-- Reads a number. -/
def number? : List Char → Option (Value × List Char)
  | '0' :: 'x' :: s => inBase? 16 s
  | '0' :: 'o' :: s => inBase? 8 s
  | '0' :: 'b' :: s => inBase? 2 s
  | s =>
    match (sign? s).2 with
    | 'i' :: 'n' :: 'f' :: s => some (.float, s)
    | 'n' :: 'a' :: 'n' :: s => some (.float, s)
    | _ => decimal? s

/-- Reads a number of exactly `n` digits that is in a range. -/
def fixed? (n least most : Nat) (s : List Char) : Option (Nat × List Char) := do
  let ns ← (s.take n).mapM (digitBelow? 10)
  let value := ofDigits 10 ns
  if ns.length = n ∧ least ≤ value ∧ value ≤ most then return (value, s.drop n) else none

/-- Reads a character. -/
def mark? (c : Char) : List Char → Option (List Char)
  | d :: s => if d == c then some s else none
  | [] => none

/-- The number of days of a month. -/
def daysOf (year month : Nat) : Nat :=
  if month = 2 then
    if year % 4 = 0 ∧ (year % 100 ≠ 0 ∨ year % 400 = 0) then 29 else 28
  else if month = 4 ∨ month = 6 ∨ month = 9 ∨ month = 11 then 30
  else 31

/-- Reads a date. -/
def date? (s : List Char) : Option (List Char) := do
  let (year, s) ← fixed? 4 0 9999 s
  let (month, s) ← fixed? 2 1 12 (← mark? '-' s)
  let (_, s) ← fixed? 2 1 (daysOf year month) (← mark? '-' s)
  return s

/-- Reads the time of a day, where a minute may have a leap second. -/
def clock? (s : List Char) : Option (List Char) := do
  let (_, s) ← fixed? 2 0 23 s
  let (_, s) ← fixed? 2 0 59 (← mark? ':' s)
  let (_, s) ← fixed? 2 0 60 (← mark? ':' s)
  match s with
  | '.' :: c :: r => if c.isDigit then return r.dropWhile Char.isDigit else return s
  | s => return s

/-- Reads how far a time is from universal time. -/
def offset? : List Char → Option (List Char)
  | 'Z' :: s => some s
  | 'z' :: s => some s
  | s => do
    let (sign, s) := sign? s
    if sign.isNone then none
    let (_, s) ← fixed? 2 0 23 s
    let (_, s) ← fixed? 2 0 59 (← mark? ':' s)
    return s

/-- Reads the time of a day and the offset that may follow it, behind a date. -/
def clockAfterDate? : List Char → Option (List Char)
  | c :: s =>
    if c == 'T' || c == 't' || c == ' ' then
      (clock? s).map fun s => (offset? s).getD s
    else none
  | [] => none

/-- Reads a date, a time of a day, or both. -/
def time? (s : List Char) : Option (List Char) :=
  match date? s with
  | some s => some ((clockAfterDate? s).getD s)
  | none => clock? s

end SchemaLint.Toml
