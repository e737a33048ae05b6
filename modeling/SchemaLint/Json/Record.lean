import SchemaLint.Json.Value

/-!
# Records in JSON

A record is an object with known keys; other keys are passed over, a known key must not be repeated.
An array with the values of all keys in order is a record too. A name out of a fixed list is a
string, or an object whose only key it is and whose value is `null`.
-/

namespace SchemaLint.Json.Value

/-- The value of a key that is not repeated; `some none` when it is missing. -/
def field? (members : List (Text × Value)) (key : String) : Option (Option Value) :=
  match members.filter (·.1 == some key) with
  | [] => some none
  | [(_, v)] => some (some v)
  | _ => none

/-- The values of a record's keys, in order, each absent or present. -/
def record? (keys : List String) : Value → Option (List (Option Value))
  | array vs => if vs.length == keys.length then some (vs.map some) else none
  | object members =>
    if members.all (·.1.isSome) then keys.mapM (field? members) else none
  | _ => none

/-- The name that a value is. -/
def name? : Value → Option String
  | string s => s
  | object [(key, null)] => key
  | _ => none

/-- The natural number below a limit that a value is. -/
def nat? (limit : Nat) : Value → Option Nat
  | number n => n.toNat? limit
  | _ => none

/-- The truth value that a value is. -/
def bool? : Value → Option Bool
  | bool b => some b
  | _ => none

/-- A string that may be absent or `null`. -/
def optionalString? : Option Value → Option (Option String)
  | none => some none
  | some null => some none
  | some v => v.string?.map some

end SchemaLint.Json.Value
