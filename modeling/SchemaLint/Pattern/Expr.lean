import SchemaLint.Pattern.CharSet

/-!
# Pattern expressions

What a pattern is once it is read: characters, anchors, sequences, alternatives, numbered groups,
repetitions, look-around, atomic groups, back references and conditionals. A pattern without the
last four kinds, word anchors and groups that are referred to is *regular*; what it matches can be
told without trying one way after the other.
-/

namespace SchemaLint.Pattern

/-- A test on a place in a text. -/
inductive Anchor where
  | textStart
  | textEnd
  | lineStart
  | lineEnd
  /-- Between a word character and another. -/
  | wordEdge
  /-- Not between a word character and another. -/
  | notWordEdge
  /-- Before the first character of a word. -/
  | wordStart
  /-- After the last character of a word. -/
  | wordEnd
  /-- Where the search began. -/
  | searchStart
  deriving DecidableEq, Repr

/-- Tells whether an anchor depends on words or on the search. -/
def Anchor.isIrregular : Anchor → Bool
  | textStart | textEnd | lineStart | lineEnd => false
  | _ => true

/-- A pattern expression. -/
inductive Expr where
  | empty
  | char (s : CharSet)
  | anchor (a : Anchor)
  | seq (es : List Expr)
  | alt (es : List Expr)
  /-- A group with its number. -/
  | group (n : Nat) (e : Expr)
  /-- At least `lo` and at most `hi` times. -/
  | rep (e : Expr) (lo : Nat) (hi : Option Nat) (greedy : Bool)
  /-- Looks ahead or behind for an expression, or for its absence. -/
  | look (behind negative : Bool) (e : Expr)
  | atomic (e : Expr)
  /-- What a group has matched. -/
  | backref (n : Nat) (caseless : Bool)
  /-- Whether a group has matched. -/
  | isSet (n : Nat)
  | cond (test yes no : Expr)
  /-- Moves the start of the match, which no answer shows. -/
  | keepOut

namespace Expr

/-- Tells whether an expression is the empty one. -/
def isEmpty : Expr → Bool
  | empty => true
  | _ => false

/-- Tells whether a repetition may be put after an expression. -/
def isRepeatable : Expr → Bool
  | empty => false
  | anchor .searchStart => true
  | anchor _ => false
  | look .. => false
  | _ => true

mutual

/-- The characters that an expression matches at least. -/
def minSize : Expr → Nat
  | empty => 0
  | char _ => 1
  | anchor _ => 0
  | seq es => minSizes es
  | alt es => leastSize es
  | group _ e => minSize e
  | rep e lo _ _ => minSize e * lo
  | look .. => 0
  | atomic e => minSize e
  | backref .. => 0
  | isSet _ => 0
  | cond test yes no => minSize test + min (minSize yes) (minSize no)
  | keepOut => 0

/-- The sum of the least sizes. -/
def minSizes : List Expr → Nat
  | [] => 0
  | e :: es => minSize e + minSizes es

/-- The least of the least sizes. -/
def leastSize : List Expr → Nat
  | [] => 0
  | [e] => minSize e
  | e :: es => min (minSize e) (leastSize es)

end

mutual

/-- Tells whether an expression is seen to match only texts of one length. -/
def hasSize : Expr → Bool
  | empty => true
  | char _ => true
  | anchor _ => true
  | seq es => allHaveSize es
  | alt es => haveSize es
  | group _ e => hasSize e
  | rep e lo hi _ => hasSize e && hi == some lo
  | look .. => true
  | atomic e => hasSize e
  | backref .. => false
  | isSet _ => true
  | cond test yes no =>
    hasSize test && hasSize yes && hasSize no && minSize test + minSize yes == minSize no
  | keepOut => true

/-- Tells whether all expressions have a size. -/
def allHaveSize : List Expr → Bool
  | [] => true
  | e :: es => hasSize e && allHaveSize es

/-- Tells whether all expressions have one and the same size. -/
def haveSize : List Expr → Bool
  | [] => true
  | [e] => hasSize e
  | e :: e' :: es => hasSize e && minSize e == minSize e' && haveSize (e' :: es)

end

mutual

/-- Tells whether an expression is not regular, when some groups are referred to. -/
def isIrregular (referred : List Nat) : Expr → Bool
  | empty => false
  | char _ => false
  | anchor a => a.isIrregular
  | seq es => someIrregular referred es
  | alt es => someIrregular referred es
  | group n e => isIrregular referred e || referred.contains n
  | rep e _ _ _ => isIrregular referred e
  | look .. => true
  | atomic _ => true
  | backref .. => true
  | isSet _ => true
  | cond .. => true
  | keepOut => true

/-- Tells whether some expression is not regular. -/
def someIrregular (referred : List Nat) : List Expr → Bool
  | [] => false
  | e :: es => isIrregular referred e || someIrregular referred es

end

end Expr

end SchemaLint.Pattern
