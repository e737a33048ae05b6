/-!
# Sets of code points

A property of characters is data: the ascending list of the points where membership changes, the
first of which begins it. A code point is in the set when an odd number of these bounds is not
above it. Tables are written as the gaps between bounds, in hexadecimal.
-/

namespace SchemaLint.Unicode

/-- A set of code points by the ascending bounds of its ranges. -/
structure CodePoints where
  bounds : Array Nat

namespace CodePoints

/-- The value of a hexadecimal digit. -/
def hexDigit? (c : Char) : Option Nat :=
  if '0' ≤ c ∧ c ≤ '9' then some (c.toNat - '0'.toNat)
  else if 'a' ≤ c ∧ c ≤ 'f' then some (c.toNat - 'a'.toNat + 10)
  else if 'A' ≤ c ∧ c ≤ 'F' then some (c.toNat - 'A'.toNat + 10)
  else none

/-- Reads gaps: the bounds so far, the last of them and the gap that is being read. -/
def readGaps (bounds : Array Nat) (last : Nat) (gap : Option Nat) : List Char → Array Nat
  | [] => (gap.map fun g => bounds.push (last + g)).getD bounds
  | c :: s =>
    match hexDigit? c, gap with
    | some d, _ => readGaps bounds last (some (gap.getD 0 * 16 + d)) s
    | none, some g => readGaps (bounds.push (last + g)) (last + g) none s
    | none, none => readGaps bounds last none s

/-- The set whose bounds lie the given gaps apart. -/
def ofGaps (s : String) : CodePoints :=
  { bounds := readGaps #[] 0 none s.toList }

/-- The number of bounds up to `n`, when it lies between `lo` and `hi`. -/
def countUpTo (bounds : Array Nat) (n : Nat) : Nat → Nat → Nat → Nat
  | 0, lo, _ => lo
  | fuel + 1, lo, hi =>
    if lo < hi then
      let mid := (lo + hi) / 2
      if bounds.getD mid 0 ≤ n then countUpTo bounds n fuel (mid + 1) hi
      else countUpTo bounds n fuel lo mid
    else lo

/-- Membership. -/
def contains (s : CodePoints) (n : Nat) : Bool :=
  countUpTo s.bounds n s.bounds.size 0 s.bounds.size % 2 == 1

/-- All code points that are not in the set. -/
def compl (s : CodePoints) : CodePoints :=
  { bounds := if s.bounds.getD 0 1 == 0 then s.bounds.extract 1 s.bounds.size else #[0] ++ s.bounds }

end CodePoints

end SchemaLint.Unicode
