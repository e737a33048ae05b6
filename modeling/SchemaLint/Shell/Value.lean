import SchemaLint.Identifier

/-!
# Values written in a shell document

A value is an object in braces, an array in brackets, or a scalar: anything else. An object has
entries, each a key, quoted or not, and a value after a colon.
-/

namespace SchemaLint.Shell

/-- A value as it is written. -/
inductive Value where
  /-- An object, its braces included. -/
  | object (text : List Char)
  /-- An array, its brackets left out. -/
  | array (items : List Char)
  /-- Anything else. -/
  | scalar (text : List Char)
  deriving DecidableEq, Repr

/-- The text between a bracket that a text begins with and the other that ends it, if the two are
partners. -/
def enclosed? (opener closer : Char) (s : List Char) : Option (List Char) :=
  match cutAtPartner? s with
  | some (inner, [c]) => if s.head? == some opener && c == closer then some inner else none
  | _ => none

/-- The object that a text is, without its braces. -/
def braced? (s : List Char) : Option (List Char) :=
  enclosed? '\x7b' '\x7d' (Text.trim s)

/-- The array that a text is, without its brackets. -/
def bracketed? (s : List Char) : Option (List Char) :=
  enclosed? '[' ']' (Text.trim s)

namespace Value

/-- The value that a text is. -/
def ofText (s : List Char) : Value :=
  if (braced? s).isSome then .object (Text.trim s)
  else match bracketed? s with
    | some items => .array items
    | none => .scalar (Text.trim s)

/-- Tells whether a value is an object. -/
def isObject : Value → Bool
  | object _ => true
  | _ => false

/-- The items of an array; anything else has none. -/
def items : Value → List (List Char)
  | array items => splitTop ',' items
  | _ => []

end Value

/-- The key and value of one entry; an entry without a key is none. -/
def entry? (s : List Char) : Option (List Char × List Char) :=
  match cutAtTop? ':' s with
  | some (key, value) =>
    if (Identifier.unquote key).isEmpty then none else some (Identifier.unquote key, Text.trim value)
  | none => none

/-- The entries of an object; anything else has none. -/
def entries (document : List Char) : List (List Char × List Char) :=
  match braced? document with
  | some inner => (splitTop ',' inner).filterMap entry?
  | none => []

/-- Keys that name an operator. -/
def isOperator (key : List Char) : Bool :=
  key.head? == some '$'

end SchemaLint.Shell
