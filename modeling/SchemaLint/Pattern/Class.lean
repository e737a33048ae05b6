import SchemaLint.Pattern.CharSet

/-!
# Classes in brackets

A class is read from items: characters that may have a meaning in a class, characters that stand for
themselves, and sets. Items are joined to unions; `&&`, `--` and `~~` combine unions from left to
right; a class may stand inside a class.
-/

namespace SchemaLint.Pattern.Class

/-- An item of a class. -/
inductive Item where
  /-- A character as written. -/
  | plain (c : Char)
  /-- A character that stands for itself. -/
  | literal (c : Char)
  /-- A set. -/
  | set (s : CharSet)

/-- An operation on two unions. -/
inductive Operation where
  | inter
  | diff
  | symmDiff

/-- What an operation gives. -/
def Operation.apply : Operation → CharSet → CharSet → CharSet
  | inter, a, b => .inter a b
  | diff, a, b => .diff a b
  | symmDiff, a, b => .symmDiff a b

/-- The operation that some items begin with. -/
def operation? : List Item → Option (Operation × List Item)
  | .plain '&' :: .plain '&' :: rest => some (.inter, rest)
  | .plain '-' :: .plain '-' :: rest => some (.diff, rest)
  | .plain '~' :: .plain '~' :: rest => some (.symmDiff, rest)
  | _ => none

/-- The character that an item is. -/
def Item.char? : Item → Option Char
  | plain c => some c
  | literal c => some c
  | set _ => none

/-- The set that an item is. -/
def Item.toSet : Item → CharSet
  | plain c => .single c
  | literal c => .single c
  | set s => s

/-- Whether some items begin with the end of a range: a hyphen that neither ends the class nor
begins an operation. -/
def startsRangeEnd : List Item → Bool
  | .plain '-' :: .plain ']' :: _ => false
  | .plain '-' :: .plain '-' :: _ => false
  | .plain '-' :: _ => true
  | _ => false

/-- Reads a range or a single item. -/
def range? : List Item → Option (CharSet × List Item)
  | [] => none
  | first :: rest =>
    if startsRangeEnd rest then
      match rest with
      | _ :: last :: rest =>
        match first.char?, last.char? with
        | some lo, some hi => if lo ≤ hi then some (.range lo hi, rest) else none
        | _, _ => none
      | _ => none
    else if rest.isEmpty then none
    else some (first.toSet, rest)

/-- Reads the plain letters of a name. -/
def letters : List Item → List Char × List Item
  | .plain c :: rest =>
    if c.isLower then
      let (cs, rest) := letters rest
      (c :: cs, rest)
    else ([], .plain c :: rest)
  | rest => ([], rest)

/-- Reads an ASCII class after its bracket, such as `:alpha:]`. -/
def ascii? (caseless : Bool) : List Item → Option (CharSet × List Item)
  | .plain ':' :: rest =>
    let (negated, rest) :=
      match rest with
      | .plain '^' :: rest => (true, rest)
      | _ => (false, rest)
    match letters rest with
    | (name, .plain ':' :: .plain ']' :: rest) =>
      (CharSet.ascii? (String.ofList name)).map fun s => (.complIf negated (.foldedIf caseless s), rest)
    | _ => none
  | _ => none

/-- Takes hyphens at the start of a class, which stand for themselves. -/
def leadingHyphens : List Item → Bool × List Item
  | .plain '-' :: rest => (true, (leadingHyphens rest).2)
  | rest => (false, rest)

/-- What stands at the start of a class and for itself there: hyphens, or a closing bracket. -/
def leading (items : List Item) : CharSet × List Item :=
  match leadingHyphens items with
  | (true, rest) => (.single '-', rest)
  | (false, .plain ']' :: rest) => (.single ']', rest)
  | (false, rest) => (.empty, rest)

/-- What the operations read so far make of the union after them. -/
def combine (caseless : Bool) (pending : Option (Operation × CharSet)) (union : CharSet) : CharSet :=
  match pending with
  | none => union
  | some (op, left) => op.apply (.foldedIf caseless left) (.foldedIf caseless union)

/-- Reads a class from what is inside its brackets; `fuel` bounds the items read. The union so far
and the operation it is the second operand of are kept. -/
def body? (caseless : Bool) :
    Nat → Option (Operation × CharSet) → CharSet → List Item → Option (CharSet × List Item)
  | 0, _, _, _ => none
  | _ + 1, _, _, [] => none
  | fuel + 1, pending, union, item :: rest =>
    match operation? (item :: rest), item with
    | some (op, rest), _ => body? caseless fuel (some (op, combine caseless pending union)) .empty rest
    | none, .plain ']' => some (.foldedIf caseless (combine caseless pending union), rest)
    | none, .plain '[' =>
      match ascii? caseless rest with
      | some (s, rest) => body? caseless fuel pending (.union union s) rest
      | none =>
        let (negated, rest) :=
          match rest with
          | .plain '^' :: rest => (true, rest)
          | _ => (false, rest)
        let (first, rest) := leading rest
        match body? caseless fuel none first rest with
        | some (s, rest) => body? caseless fuel pending (.union union (.complIf negated s)) rest
        | none => none
    | none, _ =>
      match range? (item :: rest) with
      | some (s, rest) => body? caseless fuel pending (.union union s) rest
      | none => none

/-- The class that some items are, the brackets around it left out at the start only. -/
def read? (caseless negated : Bool) (items : List Item) : Option CharSet :=
  let (first, rest) := leading items
  match body? caseless (items.length + 1) none first rest with
  | some (s, []) => some (.complIf negated s)
  | _ => none

end SchemaLint.Pattern.Class
