/-!
# TOML values

A value as a TOML document means it. Tables differ by how they were made, because that decides what
may be added to them later: a table made by its own header or written within braces is complete, one
made by the keys or headers that lead through it is open to more of the same.
-/

namespace SchemaLint.Toml

/-- How a table was made. -/
inductive Origin where
  /-- By its own header. -/
  | header
  /-- By the header of a table within it. -/
  | implied
  /-- By a dotted key that leads through it. -/
  | dotted
  /-- Within braces. -/
  | inline
  deriving DecidableEq, Repr

/-- A TOML value. Of floating point numbers and times it matters only that they are ones. -/
inductive Value where
  | string (s : String)
  | integer (n : Int)
  | float
  | boolean (b : Bool)
  | time
  | array (vs : List Value)
  | table (origin : Origin) (entries : List (String × Value))
  /-- The tables made by headers in double brackets. -/
  | tables (ts : List (List (String × Value)))

/-- The entries of a table. -/
abbrev Entries := List (String × Value)

namespace Value

/-- The string that a value is. -/
def string? : Value → Option String
  | string s => some s
  | _ => none

/-- The truth value that a value is. -/
def boolean? : Value → Option Bool
  | boolean b => some b
  | _ => none

/-- The natural number that a value is. -/
def nat? : Value → Option Nat
  | integer (.ofNat n) => some n
  | _ => none

/-- The values in an array. -/
def items? : Value → Option (List Value)
  | array vs => some vs
  | tables ts => some (ts.map (table .header))
  | _ => none

end Value

end SchemaLint.Toml
