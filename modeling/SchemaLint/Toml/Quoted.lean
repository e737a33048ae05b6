import SchemaLint.Toml.Blank
import SchemaLint.Unicode.CodePoints

/-!
# Quoted texts

A basic string stands between double quotes and has escapes; a literal string stands between single
quotes and has none. With three quotes at each end a string may run over several lines: a line end
right after the opening quotes does not count, a carriage return before a line end is dropped, and
up to two quotes may stand before the closing ones.
-/

namespace SchemaLint.Toml

/-- The character that an escape letter stands for. -/
def escaped? : Char → Option Char
  | 'b' => some '\x08'
  | 't' => some '\t'
  | 'n' => some '\n'
  | 'f' => some '\x0c'
  | 'r' => some '\r'
  | '"' => some '"'
  | '\\' => some '\\'
  | _ => none

/-- The character whose code point hexadecimal digits give. -/
def codePoint? (digits : List Char) : Option Char := do
  let n ← digits.foldlM (fun n c => return n * 16 + (← Unicode.CodePoints.hexDigit? c)) 0
  if n.isValidChar then return Char.ofNat n else none

/-- What is read of a string: its characters and what is left. -/
abbrev Reading := Option (List Char × List Char)

/-- Puts a character in front of what is read. -/
def Reading.cons (c : Option Char) (r : Reading) : Reading := do
  let c ← c
  let (cs, s) ← r
  return (c :: cs, s)

/-- Reads a basic string after its opening quote. -/
def basic? : List Char → Reading
  | [] => none
  | '"' :: s => some ([], s)
  | '\\' :: 'u' :: a :: b :: c :: d :: s => .cons (codePoint? [a, b, c, d]) (basic? s)
  | '\\' :: 'U' :: a :: b :: c :: d :: e :: f :: g :: h :: s =>
    .cons (codePoint? [a, b, c, d, e, f, g, h]) (basic? s)
  | '\\' :: c :: s => .cons (escaped? c) (basic? s)
  | c :: s => if isPlain c then .cons (some c) (basic? s) else none

/-- Reads a literal string after its opening quote. -/
def literal? : List Char → Reading
  | [] => none
  | c :: s =>
    if c == '\x27' then some ([], s)
    else if isPlain c then .cons (some c) (literal? s)
    else none

/-- Where the reader of a string of several lines is. -/
inductive Join where
  /-- In the text. -/
  | text
  /-- Behind a backslash and blanks, before the end of the line. -/
  | lineEnd
  /-- Behind such a line end, where blanks and further line ends are dropped. -/
  | nextLine
  deriving DecidableEq

/-- Reads the quotes that may stand before the closing ones, which were read. -/
def lastQuotes (quote : Char) : List Char → List Char × List Char
  | a :: b :: s =>
    if a == quote then if b == quote then ([a, b], s) else ([a], b :: s) else ([], a :: b :: s)
  | [a] => if a == quote then ([a], []) else ([], [a])
  | [] => ([], [])

/-- Reads a basic string of several lines after its opening quotes. -/
def basicLines? : Join → List Char → Reading
  | _, [] => none
  | .lineEnd, c :: s =>
    if c == '\n' then basicLines? .nextLine s
    else if isBlank c || (c == '\r' && s.head? == some '\n') then basicLines? .lineEnd s
    else none
  | _, '"' :: '"' :: '"' :: s => some (lastQuotes '"' s)
  | _, '\\' :: 'u' :: a :: b :: c :: d :: s =>
    .cons (codePoint? [a, b, c, d]) (basicLines? .text s)
  | _, '\\' :: 'U' :: a :: b :: c :: d :: e :: f :: g :: h :: s =>
    .cons (codePoint? [a, b, c, d, e, f, g, h]) (basicLines? .text s)
  | _, '\\' :: c :: s =>
    if c == '\n' then basicLines? .nextLine s
    else if isBlank c || (c == '\r' && s.head? == some '\n') then basicLines? .lineEnd s
    else .cons (escaped? c) (basicLines? .text s)
  | join, c :: s =>
    if join = .nextLine ∧ (isBlank c ∨ c = '\n') then basicLines? .nextLine s
    else if c == '\r' && s.head? == some '\n' then basicLines? join s
    else if isPlain c || c == '\n' then .cons (some c) (basicLines? .text s)
    else none

/-- Reads a literal string of several lines after its opening quotes. -/
def literalLines? : List Char → Reading
  | [] => none
  | '\x27' :: '\x27' :: '\x27' :: s => some (lastQuotes '\x27' s)
  | c :: s =>
    if c == '\r' && s.head? == some '\n' then literalLines? s
    else if isPlain c || c == '\n' then .cons (some c) (literalLines? s)
    else none

/-- Drops a line end that stands first. -/
def afterLineBreak (s : List Char) : List Char :=
  (lineBreak? s).getD s

/-- Reads a string of any kind. -/
def quoted? : List Char → Reading
  | '"' :: '"' :: '"' :: s => basicLines? .text (afterLineBreak s)
  | '\x27' :: '\x27' :: '\x27' :: s => literalLines? (afterLineBreak s)
  | '"' :: s => basic? s
  | '\x27' :: s => literal? s
  | _ => none

end SchemaLint.Toml
