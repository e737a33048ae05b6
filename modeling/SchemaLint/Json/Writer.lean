import SchemaLint.Json.Value

/-!
# Writing JSON

Documents are written with an indentation of two blanks; empty arrays and objects stay on one line.
Quotes, backslashes and control characters are escaped, all other characters are written as they
are.
-/

namespace SchemaLint.Json

/-- A hexadecimal digit. -/
def hexDigit (n : Nat) : Char :=
  (Nat.toDigits 16 n).headD '0'

/-- A character as it is written in a string. -/
def encodeChar (c : Char) : List Char :=
  if c == '"' then ['\\', '"']
  else if c == '\\' then ['\\', '\\']
  else if c == '\n' then ['\\', 'n']
  else if c == '\r' then ['\\', 'r']
  else if c == '\t' then ['\\', 't']
  else if c == '\x08' then ['\\', 'b']
  else if c == '\x0c' then ['\\', 'f']
  else if c.toNat < 0x20 then
    ['\\', 'u', '0', '0', hexDigit (c.toNat / 16), hexDigit (c.toNat % 16)]
  else [c]

/-- A text in quotes. -/
def quoted (s : String) : List Char :=
  ['"'] ++ s.toList.flatMap encodeChar ++ ['"']

/-- The end of a line and the indentation of the next one. -/
def newline (level : Nat) : List Char :=
  '\n' :: List.replicate (2 * level) ' '

/-- A number; only natural numbers are written. -/
def numberText (n : Number) : List Char :=
  Nat.toDigits 10 n.digits

mutual

/-- A value as it is written at a level of indentation. -/
def pretty (level : Nat) : Value → List Char
  | .null => ['n', 'u', 'l', 'l']
  | .bool true => ['t', 'r', 'u', 'e']
  | .bool false => ['f', 'a', 'l', 's', 'e']
  | .number n => numberText n
  | .string s => quoted (s.getD "")
  | .array [] => ['[', ']']
  | .array (v :: vs) =>
    ['['] ++ newline (level + 1) ++ pretty (level + 1) v ++ prettyItems (level + 1) vs ++
      newline level ++ [']']
  | .object [] => ['\x7b', '\x7d']
  | .object ((key, v) :: members) =>
    ['\x7b'] ++ newline (level + 1) ++ quoted (key.getD "") ++ [':', ' '] ++ pretty (level + 1) v ++
      prettyMembers (level + 1) members ++ newline level ++ ['\x7d']

/-- The values of an array after the first. -/
def prettyItems (level : Nat) : List Value → List Char
  | [] => []
  | v :: vs => [','] ++ newline level ++ pretty level v ++ prettyItems level vs

/-- The members of an object after the first. -/
def prettyMembers (level : Nat) : List (Text × Value) → List Char
  | [] => []
  | (key, v) :: members =>
    [','] ++ newline level ++ quoted (key.getD "") ++ [':', ' '] ++ pretty level v ++
      prettyMembers level members

end

/-- The document that a value is. -/
def write (v : Value) : String :=
  String.ofList (pretty 0 v)

end SchemaLint.Json
