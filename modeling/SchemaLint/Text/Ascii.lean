/-!
# Texts compared without regard to the case of ASCII letters

Keywords, dialect names and verbs are compared this way. Letters outside ASCII keep their case, so
`É` and `é` differ here.
-/

namespace SchemaLint.Text

/-- A text with its ASCII letters in lower case. -/
def lower (s : List Char) : List Char :=
  s.map Char.toLower

/-- Equality up to the case of ASCII letters. -/
def sameIgnoringCase (a b : List Char) : Bool :=
  lower a == lower b

/-- Tells whether a text starts with another up to the case of ASCII letters. -/
def startsIgnoringCase : List Char → List Char → Bool
  | [], _ => true
  | _ :: _, [] => false
  | c :: start, d :: s => c.toLower == d.toLower && startsIgnoringCase start s

/-- Characters that continue a keyword or a plain identifier: ASCII letters, digits, `_` and `$`. -/
def isIdentChar (c : Char) : Bool :=
  c.isAlphanum || c == '_' || c == '$'

/-- A string with its ASCII letters in lower case. -/
def lowerString (s : String) : String :=
  String.ofList (lower s.toList)

/-- Tells whether `part` occurs in a text. -/
def occursIn (part : List Char) : List Char → Bool
  | [] => part.isEmpty
  | c :: s => part.isPrefixOf (c :: s) || occursIn part s

end SchemaLint.Text
