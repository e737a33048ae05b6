import SchemaLint.Toml.Number
import SchemaLint.Toml.Quoted
import SchemaLint.Toml.Table

/-!
# Reading TOML

Each reader takes what it reads from the start of a text and gives it with what is left. Arrays may
run over several lines and end with a comma, tables in braces may not. Values nest and keys are
dotted up to a limit.
-/

namespace SchemaLint.Toml

/-- How many keys a dotted key has and how deep a value nests at most. -/
def limit : Nat := 79

/-- Tells whether a character may stand in a key without quotes. -/
def isKeyChar (c : Char) : Bool :=
  c.isAlphanum || c == '_' || c == '-'

/-- Reads a key without dots. -/
def simpleKey? (s : List Char) : Reading :=
  match s.head? with
  | none => none
  | some '"' => basic? s.tail
  | some '\x27' => literal? s.tail
  | some c => if isKeyChar c then some (s.takeWhile isKeyChar, s.dropWhile isKeyChar) else none

/-- Reads a key with blanks around its parts; `fuel` bounds the parts. -/
def keyParts? : Nat → List Char → Option (List String × List Char)
  | 0, _ => none
  | fuel + 1, s => do
    let (key, s) ← simpleKey? (skipBlanks s)
    match skipBlanks s with
    | '.' :: s =>
      let (keys, s) ← keyParts? fuel s
      return (String.ofList key :: keys, s)
    | s => return ([String.ofList key], s)

/-- Reads a key, which may be dotted. -/
def key? (s : List Char) : Option (List String × List Char) :=
  keyParts? limit s

mutual

/-- Reads a value that nests at most `room` deep; `fuel` bounds the values and keys read. -/
def value? : Nat → Nat → List Char → Option (Value × List Char)
  | 0, _, _ => none
  | fuel + 1, room, s =>
    match s with
    | 't' :: 'r' :: 'u' :: 'e' :: s => some (.boolean true, s)
    | 'f' :: 'a' :: 'l' :: 's' :: 'e' :: s => some (.boolean false, s)
    | '[' :: s =>
      match room with
      | 0 => none
      | room + 1 => (items? fuel room s).map fun (vs, s) => (.array vs, s)
    | '\x7b' :: s =>
      match room with
      | 0 => none
      | room + 1 => do
        let (pairs, s) ←
          match skipBlanks s with
          | '\x7d' :: s => some ([], s)
          | s => pairs? fuel room s
        return (.table .inline (← Entries.defineAll [] pairs), s)
    | s =>
      if s.head? == some '"' || s.head? == some '\x27' then
        (quoted? s).map fun (cs, s) => (.string (String.ofList cs), s)
      else
        match time? s with
        | some s => some (.time, s)
        | none => number? s

/-- Reads the values of an array and its closing bracket. -/
def items? : Nat → Nat → List Char → Option (List Value × List Char)
  | 0, _, _ => none
  | fuel + 1, room, s =>
    match skipLines false s with
    | ']' :: s => some ([], s)
    | s => do
      let (v, s) ← value? fuel room s
      match skipLines false s with
      | ']' :: s => return ([v], s)
      | ',' :: s =>
        let (vs, s) ← items? fuel room s
        return (v :: vs, s)
      | _ => none

/-- Reads a key and its value. -/
def pair? : Nat → Nat → List Char → Option (Pair × List Char)
  | 0, _, _ => none
  | fuel + 1, room, s => do
    let (keys, s) ← key? s
    let key ← keys.getLast?
    let (value, s) ← value? fuel room (skipBlanks (← mark? '=' s))
    return ({ path := keys.dropLast, key, value }, s)

/-- Reads the keys and values of a table in braces and its closing brace. -/
def pairs? : Nat → Nat → List Char → Option (List Pair × List Char)
  | 0, _, _ => none
  | fuel + 1, room, s => do
    let (p, s) ← pair? fuel room s
    match skipBlanks s with
    | '\x7d' :: s => return ([p], s)
    | ',' :: s =>
      let (ps, s) ← pairs? fuel room s
      return (p :: ps, s)
    | _ => none

end

/-- Reads a header after its opening brackets. -/
def header? (isRepeated : Bool) (s : List Char) : Option (Section × List Char) := do
  let (path, s) ← key? s
  let s ← mark? ']' s
  let s ← if isRepeated then mark? ']' s else some s
  return ({ path, isRepeated, pairs := [] }, s)

/-- Reads lines: the keys up to the first header and the sections; `fuel` bounds the lines, and
`size` the values and keys of a line. -/
def lines? (size : Nat) : Nat → List Char → Option (List Pair × List Section)
  | 0, _ => none
  | fuel + 1, s => do
    let headed (r : Section × List Char) := do
      let (pairs, sections) ← lines? size fuel (← endOfLine? r.2)
      return ([], { r.1 with pairs } :: sections)
    match skipLines false s with
    | [] => return ([], [])
    | '[' :: '[' :: s => headed (← header? true s)
    | '[' :: s => headed (← header? false s)
    | s =>
      let (p, s) ← pair? size limit s
      let (pairs, sections) ← lines? size fuel (← endOfLine? s)
      return (p :: pairs, sections)

/-- A document without the mark of its byte order. -/
def withoutMark (s : List Char) : List Char :=
  if s.head? == some '\ufeff' then s.tail else s

/-- The table that a document holds. -/
def read? (document : String) : Option Entries := do
  let s := withoutMark document.toList
  let (first, sections) ← lines? (3 * s.length + 3) (s.length + 1) s
  Entries.ofSections first sections

end SchemaLint.Toml
