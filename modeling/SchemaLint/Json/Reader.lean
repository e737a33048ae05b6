import SchemaLint.Json.Value
import SchemaLint.Unicode.CodePoints

/-!
# Reading JSON

Each reader takes what it reads from the start of a text and gives it with what is left. A number
has no leading zeros and digits on both sides of its point; a string has no raw control character;
escapes of surrogates count together with their partner. The reader follows any nesting: `Value`
says what else is asked of a document.
-/

namespace SchemaLint.Json

/-- Blanks between the parts of a document. -/
def isSpace (c : Char) : Bool :=
  c == ' ' || c == '\n' || c == '\t' || c == '\r'

/-- Drops blanks. -/
def skip (s : List Char) : List Char :=
  s.dropWhile isSpace

/-- The character that an escape letter stands for. -/
def escaped? : Char → Option Char
  | '"' => some '"'
  | '\\' => some '\\'
  | '/' => some '/'
  | 'b' => some '\x08'
  | 'f' => some '\x0c'
  | 'n' => some '\n'
  | 'r' => some '\r'
  | 't' => some '\t'
  | _ => none

/-- The value of four hexadecimal digits. -/
def hex4? (a b c d : Char) : Option Nat := do
  let a ← Unicode.CodePoints.hexDigit? a
  let b ← Unicode.CodePoints.hexDigit? b
  let c ← Unicode.CodePoints.hexDigit? c
  let d ← Unicode.CodePoints.hexDigit? d
  return ((a * 16 + b) * 16 + c) * 16 + d

/-- Reads code points up to the quote that ends a string. -/
def codePoints? : List Char → Option (List Nat × List Char)
  | [] => none
  | '"' :: s => some ([], s)
  | '\\' :: 'u' :: a :: b :: c :: d :: s => do
    let n ← hex4? a b c d
    let (ns, s) ← codePoints? s
    return (n :: ns, s)
  | '\\' :: c :: s => do
    let c ← escaped? c
    let (ns, s) ← codePoints? s
    return (c.toNat :: ns, s)
  | c :: s => do
    if c.toNat < 0x20 then none
    let (ns, s) ← codePoints? s
    return (c.toNat :: ns, s)

/-- Joins the halves of surrogate pairs; a half alone is no character. -/
def characters? : List Nat → Option (List Char)
  | [] => some []
  | n :: ns =>
    if n.isValidChar then (characters? ns).map (Char.ofNat n :: ·)
    else
      match ns with
      | m :: ns =>
        if n < 0xDC00 && 0xDC00 ≤ m && m < 0xE000 then
          (characters? ns).map (Char.ofNat (0x10000 + (n - 0xD800) * 0x400 + (m - 0xDC00)) :: ·)
        else none
      | [] => none

/-- Reads a string after its opening quote. -/
def string? (s : List Char) : Option (Text × List Char) :=
  (codePoints? s).map fun (ns, s) => ((characters? ns).map String.ofList, s)

/-- Reads decimal digits, in front of which others were read. -/
def digits (n : Nat) (s : List Char) : Nat × List Char :=
  ((s.takeWhile Char.isDigit).foldl (fun n c => n * 10 + (c.toNat - '0'.toNat)) n,
    s.dropWhile Char.isDigit)

/-- Tells whether a digit is next. -/
def startsDigit (s : List Char) : Bool :=
  s.head?.any Char.isDigit

/-- Reads the digits before the point. -/
def wholePart? : List Char → Option (Nat × List Char)
  | '0' :: s => if startsDigit s then none else some (0, s)
  | s => if startsDigit s then some (digits 0 s) else none

/-- Reads an exponent after its letter. -/
def exponent? (s : List Char) : Option (Int × List Char) :=
  let (negative, s) :=
    match s with
    | '-' :: s => (true, s)
    | '+' :: s => (false, s)
    | s => (false, s)
  if startsDigit s then
    let (n, s) := digits 0 s
    some (if negative then -(n : Int) else n, s)
  else none

/-- Reads a number. -/
def number? (s : List Char) : Option (Number × List Char) := do
  let (negative, s) :=
    match s with
    | '-' :: s => (true, s)
    | s => (false, s)
  let (whole, s) ← wholePart? s
  let (mantissa, places, s) ←
    match s with
    | '.' :: s =>
      if startsDigit s then
        let (n, rest) := digits whole s
        some (n, (s.takeWhile Char.isDigit).length, rest)
      else none
    | s => some (whole, 0, s)
  let (exponent, hasExponent, s) ←
    match s with
    | c :: s =>
      if c == 'e' || c == 'E' then (exponent? s).map fun (n, s) => (n, true, s)
      else some (0, false, c :: s)
    | [] => some (0, false, [])
  let isInteger := places == 0 && !hasExponent && !(negative && whole == 0)
  return ({ negative, digits := mantissa, exponent := exponent - places, isInteger }, s)

mutual

/-- Reads a value; `fuel` bounds the values and members read. -/
def value? : Nat → List Char → Option (Value × List Char)
  | 0, _ => none
  | fuel + 1, s =>
    match skip s with
    | 'n' :: 'u' :: 'l' :: 'l' :: s => some (.null, s)
    | 't' :: 'r' :: 'u' :: 'e' :: s => some (.bool true, s)
    | 'f' :: 'a' :: 'l' :: 's' :: 'e' :: s => some (.bool false, s)
    | '"' :: s => (string? s).map fun (text, s) => (.string text, s)
    | '[' :: s =>
      match skip s with
      | ']' :: s => some (.array [], s)
      | s => (items? fuel s).map fun (vs, s) => (.array vs, s)
    | '\x7b' :: s =>
      match skip s with
      | '\x7d' :: s => some (.object [], s)
      | s => (members? fuel s).map fun (members, s) => (.object members, s)
    | s => (number? s).map fun (n, s) => (.number n, s)

/-- Reads the values of an array and its closing bracket. -/
def items? : Nat → List Char → Option (List Value × List Char)
  | 0, _ => none
  | fuel + 1, s => do
    let (v, s) ← value? fuel s
    match skip s with
    | ']' :: s => return ([v], s)
    | ',' :: s =>
      let (vs, s) ← items? fuel s
      return (v :: vs, s)
    | _ => none

/-- Reads the members of an object and its closing brace. -/
def members? : Nat → List Char → Option (List (Text × Value) × List Char)
  | 0, _ => none
  | fuel + 1, s => do
    match skip s with
    | '"' :: s =>
      let (key, s) ← string? s
      match skip s with
      | ':' :: s =>
        let (v, s) ← value? fuel s
        match skip s with
        | '\x7d' :: s => return ([(key, v)], s)
        | ',' :: s =>
          let (members, s) ← members? fuel s
          return ((key, v) :: members, s)
        | _ => none
      | _ => none
    | _ => none

end

/-- The value that a text is. -/
def read? (text : String) : Option Value := do
  let s := text.toList
  let (v, rest) ← value? (2 * s.length + 2) s
  if (skip rest).isEmpty then return v else none

/-- The value that a document is, the last of repeated keys kept. -/
def readDocument? (text : String) : Option Value :=
  ((read? text).filter Value.isSound).map Value.lastWins

end SchemaLint.Json
