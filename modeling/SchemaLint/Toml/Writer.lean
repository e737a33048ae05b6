/-!
# Writing TOML strings

A text is written in the plainest way that holds it: between double quotes if nothing has to be
escaped, between single quotes if it can stand there as it is, then in the forms for several lines,
and with escapes if it has control characters or all quotes are in its way.
-/

namespace SchemaLint.Toml

/-- The ways to write a string. -/
inductive Style where
  | basic
  | literal
  | basicLines
  | literalLines
  deriving DecidableEq, Repr

/-- The length of the longest run of a character, `run` of which stand in front. -/
def longestRun (c : Char) (run : Nat) : List Char → Nat
  | [] => run
  | d :: s => if d == c then longestRun c (run + 1) s else max run (longestRun c 0 s)

/-- Tells whether a character has to be escaped in strings of every kind. -/
def needsEscape (c : Char) : Bool :=
  (c.toNat < 0x20 && c != '\t' && c != '\n') || c.toNat == 0x7f

/-- The way to write a text. -/
def style (s : List Char) : Style :=
  let plain := !s.any needsEscape
  let unescaped := plain && !s.contains '\\'
  let isLine := !s.contains '\n'
  if unescaped && isLine && !s.contains '"' then .basic
  else if plain && isLine && !s.contains '\x27' then .literal
  else if unescaped && longestRun '"' 0 s ≤ 2 then .basicLines
  else if plain && longestRun '\x27' 0 s ≤ 2 then .literalLines
  else if isLine then .basic
  else .basicLines

/-- A number in four hexadecimal digits. -/
def hex4 (n : Nat) : List Char :=
  let digits := (Nat.toDigits 16 n).map Char.toUpper
  List.replicate (4 - digits.length) '0' ++ digits

/-- A character other than a double quote as it is written in a basic string. -/
def encodeChar (onLines : Bool) (c : Char) : List Char :=
  if c == '\\' then ['\\', '\\']
  else if c == '\t' then ['\\', 't']
  else if c == '\n' then if onLines then ['\n'] else ['\\', 'n']
  else if c == '\r' then ['\\', 'r']
  else if c == '\x08' then ['\\', 'b']
  else if c == '\x0c' then ['\\', 'f']
  else if needsEscape c then ['\\', 'u'] ++ hex4 c.toNat
  else [c]

/-- A text as it is written in a basic string, after a run of quotes without a backslash. -/
def encode (onLines : Bool) (run : Nat) : List Char → List Char
  | [] => []
  | c :: s =>
    if c == '"' then
      if run < (if onLines then 2 else 0) then c :: encode onLines (run + 1) s
      else '\\' :: c :: encode onLines 0 s
    else encodeChar onLines c ++ encode onLines 0 s

/-- A text between three quotes, on lines of its own if it has several. -/
def onLines (quote : Char) (text written : List Char) : List Char :=
  List.replicate 3 quote ++ (if text.contains '\n' then ['\n'] else []) ++ written ++
    List.replicate 3 quote

/-- A text as a string of a document. -/
def writeString (text : String) : String :=
  let s := text.toList
  String.ofList <|
    match style s with
    | .basic => ['"'] ++ encode false 0 s ++ ['"']
    | .literal => ['\x27'] ++ s ++ ['\x27']
    | .basicLines => onLines '"' s (encode true 0 s)
    | .literalLines => onLines '\x27' s s

/-- Several texts as an array, each on a line of its own if there is more than one. -/
def writeStrings : List String → String
  | [] => "[]"
  | [text] => "[" ++ writeString text ++ "]"
  | texts => "[\n" ++ String.join (texts.map fun t => "    " ++ writeString t ++ ",\n") ++ "]"

/-- A truth value. -/
def writeBool (b : Bool) : String :=
  if b then "true" else "false"

end SchemaLint.Toml
