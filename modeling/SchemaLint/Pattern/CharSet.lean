import SchemaLint.Text.Blank
import SchemaLint.Unicode.Fold
import SchemaLint.Unicode.Script
import SchemaLint.Unicode.Word

/-!
# Sets of characters in patterns

A set is written from ranges, named properties and the operations of sets. `folded` closes a set
under case: it holds every character that folds together with one of its members.
-/

namespace SchemaLint.Pattern

/-- How a matcher of byte sequences reads a text. A pattern has a matcher for each direction. -/
inductive Direction where
  | forward
  | backward
  deriving DecidableEq, Repr

/-- What belongs to a direction. -/
def Direction.pick {α : Type} (onward back : α) : Direction → α
  | forward => onward
  | backward => back

/-- A set of characters. -/
inductive CharSet where
  | empty
  /-- The characters between two, both included. -/
  | range (lo hi : Char)
  | blank
  | digit
  | word
  /-- The characters with a property. -/
  | property (points : Unicode.CodePoints)
  | union (a b : CharSet)
  | inter (a b : CharSet)
  | compl (a : CharSet)
  | folded (a : CharSet)

namespace CharSet

/-- Membership. -/
def mem : CharSet → Char → Bool
  | empty, _ => false
  | range lo hi, c => lo ≤ c && c ≤ hi
  | blank, c => Text.isBlank c
  | digit, c => Unicode.isDigit c
  | word, c => Unicode.isWord c
  | property points, c => points.contains c.toNat
  | union a b, c => a.mem c || b.mem c
  | inter a b, c => a.mem c && b.mem c
  | compl a, c => !a.mem c
  | folded a, c => (Unicode.foldCycle c).any fun d => a.mem d

/-- The set of one character. -/
def single (c : Char) : CharSet :=
  range c c

/-- All characters. -/
def any : CharSet :=
  compl empty

/-- The members of the first set that are not in the second. -/
def diff (a b : CharSet) : CharSet :=
  inter a (compl b)

/-- The characters in exactly one of two sets. -/
def symmDiff (a b : CharSet) : CharSet :=
  union (diff a b) (diff b a)

/-- The union of several sets. -/
def unions (sets : List CharSet) : CharSet :=
  sets.foldr union empty

/-- A set or its complement. -/
def complIf (negated : Bool) (a : CharSet) : CharSet :=
  if negated then compl a else a

/-- A set, closed under case on demand. -/
def foldedIf (caseless : Bool) (a : CharSet) : CharSet :=
  if caseless then folded a else a

/-- The set that an ASCII class such as `[:alpha:]` names. -/
def ascii? : String → Option CharSet
  | "alnum" => some (unions [range '0' '9', range 'A' 'Z', range 'a' 'z'])
  | "alpha" => some (unions [range 'A' 'Z', range 'a' 'z'])
  | "ascii" => some (range '\x00' '\x7f')
  | "blank" => some (unions [single '\t', single ' '])
  | "cntrl" => some (unions [range '\x00' '\x1f', single '\x7f'])
  | "digit" => some (range '0' '9')
  | "graph" => some (range '!' '~')
  | "lower" => some (range 'a' 'z')
  | "print" => some (range ' ' '~')
  | "punct" => some (unions [range '!' '/', range ':' '@', range '[' '\x60', range '\x7b' '~'])
  | "space" => some (unions [range '\t' '\r', single ' '])
  | "upper" => some (range 'A' 'Z')
  | "word" => some (unions [range '0' '9', range 'A' 'Z', single '_', range 'a' 'z'])
  | "xdigit" => some (unions [range '0' '9', range 'A' 'F', range 'a' 'f'])
  | _ => none

/-- The bytes that a matcher of byte sequences takes for one character of a set, about. A set of
ASCII characters takes one step, large sets of other characters many, and more of them backward, where
fewer are shared. -/
def weight (d : Direction) : CharSet → Nat
  | empty => 32
  | range lo hi => if hi.toNat < 128 then (if lo == hi then 32 else 72) else 264
  | blank => d.pick 424 680
  | digit => d.pick 1408 4640
  | word => d.pick 19968 48168
  | property points => d.pick 14 30 * points.bounds.size + 64
  -- Beyond this size sets have more and more of their steps in common.
  | union a b => min (a.weight d + b.weight d) (d.pick 20000 50000)
  | inter a b => max (a.weight d) (b.weight d)
  | compl a => a.weight d + d.pick 400 1000
  | folded a => a.weight d + 100

end CharSet

end SchemaLint.Pattern
