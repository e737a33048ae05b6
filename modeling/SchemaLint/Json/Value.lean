/-!
# JSON values

A value as a document writes it: the members of objects in their order, repeated keys included, and
numbers by their digits. A document that is read as a whole must be `isSound`; `lastWins` is what a
reader sees who keeps the last of repeated keys.
-/

namespace SchemaLint.Json

/-- The text of a string; a string with half of a surrogate pair has none. -/
abbrev Text := Option String

/-- A number by its decimal digits: `digits` times ten to the `exponent`. -/
structure Number where
  negative : Bool
  digits : Nat
  exponent : Int
  /-- Whether it is written as an integer, other than `-0`. -/
  isInteger : Bool
  deriving DecidableEq, Repr

namespace Number

/-- The least number that is too large for a binary floating point number of 64 bits. -/
def bound : Nat :=
  (1 <<< 1024) - (1 <<< 970)

/-- Tells whether a number is in the range of floating point numbers. -/
def isFinite (n : Number) : Bool :=
  let length := (Nat.toDigits 10 n.digits).length
  if n.digits == 0 || length + n.exponent < 300 then true
  else if 320 < length + n.exponent then false
  else n.digits * Nat.pow 10 n.exponent.toNat < bound * Nat.pow 10 (-n.exponent).toNat

/-- The natural number that a number is, when it is below a limit. -/
def toNat? (limit : Nat) (n : Number) : Option Nat :=
  if n.isInteger && !n.negative && n.digits < limit then some n.digits else none

end Number

/-- A JSON value. -/
inductive Value where
  | null
  | bool (b : Bool)
  | number (n : Number)
  | string (s : Text)
  | array (vs : List Value)
  | object (members : List (Text × Value))

namespace Value

/-- A string value. -/
def ofString (s : String) : Value :=
  string (some s)

/-- A natural number. -/
def ofNat (n : Nat) : Value :=
  number { negative := false, digits := n, exponent := 0, isInteger := true }

/-- An object from its members. -/
def ofMembers (members : List (String × Value)) : Value :=
  object (members.map fun (key, v) => (some key, v))

/-- The string that a value is. -/
def string? : Value → Option String
  | string s => s
  | _ => none

/-- The values in an array. -/
def items? : Value → Option (List Value)
  | array vs => some vs
  | _ => none

/-- The members of an object. -/
def members? : Value → Option (List (Text × Value))
  | object members => some members
  | _ => none

/-- The value of the last member with a key. -/
def get? (v : Value) (key : String) : Option Value :=
  v.members?.bind fun members => (members.reverse.find? (·.1 == some key)).map (·.2)

mutual

/-- How deep arrays and objects are nested. -/
def depth : Value → Nat
  | array vs => 1 + depths vs
  | object members => 1 + memberDepths members
  | _ => 0

/-- The greatest depth of some values. -/
def depths : List Value → Nat
  | [] => 0
  | v :: vs => max (depth v) (depths vs)

/-- The greatest depth of some members. -/
def memberDepths : List (Text × Value) → Nat
  | [] => 0
  | (_, v) :: members => max (depth v) (memberDepths members)

end

mutual

/-- Tells whether all strings have a text and all numbers are in range. -/
def isPlain : Value → Bool
  | number n => n.isFinite
  | string s => s.isSome
  | array vs => arePlain vs
  | object members => membersArePlain members
  | _ => true

/-- Tells whether some values are plain. -/
def arePlain : List Value → Bool
  | [] => true
  | v :: vs => isPlain v && arePlain vs

/-- Tells whether some members are plain. -/
def membersArePlain : List (Text × Value) → Bool
  | [] => true
  | (key, v) :: members => key.isSome && isPlain v && membersArePlain members

end

/-- The nesting that a reader of whole documents follows. -/
def maxDepth : Nat := 127

/-- Tells whether a reader of whole documents accepts a value. -/
def isSound (v : Value) : Bool :=
  v.isPlain && v.depth ≤ maxDepth

/-- The members left when the last of repeated keys is kept. -/
def keepLast (members : List (Text × Value)) : List (Text × Value) :=
  members.foldr (fun m kept => if kept.any (·.1 == m.1) then kept else m :: kept) []

mutual

/-- A value whose objects keep the last of repeated keys. -/
def lastWins : Value → Value
  | array vs => array (lastWinsAll vs)
  | object members => object (keepLast (lastWinsMembers members))
  | v => v

/-- Values whose objects keep the last of repeated keys. -/
def lastWinsAll : List Value → List Value
  | [] => []
  | v :: vs => lastWins v :: lastWinsAll vs

/-- Members in whose values the last of repeated keys is kept. -/
def lastWinsMembers : List (Text × Value) → List (Text × Value)
  | [] => []
  | (key, v) :: members => (key, lastWins v) :: lastWinsMembers members

end

end Value

end SchemaLint.Json
