import SchemaLint.Pattern.Expr

/-!
# What is tried step by step

An expression that is not regular is searched step by step; its regular parts are taken whole, each
in its preferred way. `Program.ofExpr?` says which parts those are. Where a way back into a part may
be needed, only parts of one length are taken whole. Expressions behind a place must have a length,
and a part taken whole must have bounds in order and a bounded weight.
-/

namespace SchemaLint.Pattern

/-- An expression as it is searched. -/
inductive Program where
  | char (s : CharSet)
  | anchor (a : Anchor)
  /-- A regular expression that is taken whole. -/
  | whole (e : Expr)
  /-- A regular expression that must begin at the place, which is not left. -/
  | sees (e : Expr)
  | seq (ps : List Program)
  | alt (ps : List Program)
  | group (n : Nat) (p : Program)
  /-- A repetition; a guarded one must move on each time. -/
  | rep (p : Program) (lo : Nat) (hi : Option Nat) (greedy guarded : Bool)
  /-- Looks from the place some characters back. -/
  | look (back : Nat) (negative : Bool) (p : Program)
  | atomic (p : Program)
  | backref (n : Nat) (caseless : Bool)
  | isSet (n : Nat)
  | cond (test yes no : Program)

namespace Expr

mutual

/-- The weight of a regular expression in one direction: what its characters weigh, as often as they are
repeated, and the steps between them. Groups are told apart only forward. -/
def weight (d : Direction) : Expr → Nat
  | empty => 32
  | char s => s.weight d
  | anchor _ => 32
  | seq es => weights d es
  | alt es => weights d es + 64
  | group _ e => weight d e + d.pick 64 0
  | rep e lo none _ => weight d e * max 1 lo + 40
  | rep e lo (some hi) _ => weight d e * hi + 40 * (hi - lo) + 32
  | _ => 0

/-- The sum of weights. -/
def weights (d : Direction) : List Expr → Nat
  | [] => 8
  | e :: es => weight d e + weights d es

end

mutual

/-- Tells whether the bounds of all repetitions are in order and small enough to be counted. -/
def isBounded : Expr → Bool
  | seq es => areBounded es
  | alt es => areBounded es
  | group _ e => isBounded e
  | rep e lo hi _ => isBounded e && lo ≤ hi.getD lo && hi.getD lo < 1 <<< 32
  | _ => true

/-- Tells whether all bounds of some expressions are. -/
def areBounded : List Expr → Bool
  | [] => true
  | e :: es => isBounded e && areBounded es

end

/-- The greatest weight of an expression taken whole, in each direction. -/
def maxWeight : Nat := 10 <<< 20

/-- Tells whether a regular expression can be taken whole. -/
def isManageable (e : Expr) : Bool :=
  e.isBounded && e.weight .forward ≤ maxWeight && e.weight .backward ≤ maxWeight

end Expr

namespace Program

/-- A regular expression taken whole, if that is possible. -/
def whole? (e : Expr) : Option Program :=
  if e.isManageable then some (.whole e) else none

/-- Regular expressions taken whole one after the other. -/
def wholes? (es : List Expr) : Option (List Program) :=
  if es.isEmpty then some [] else (whole? (.seq es)).map fun p => [p]

/-- How many of some expressions are taken whole at the start, and at the end of the others. -/
def wholeEnds (referred : List Nat) (strict : Bool) (es : List Expr) : Nat × Nat :=
  let fixed : Expr → Bool := fun e => e.hasSize && !e.isIrregular referred
  let first := (es.takeWhile fixed).length
  let isLast : Expr → Bool := fun e => if strict then fixed e else !e.isIrregular referred
  (first, ((es.drop first).reverse.takeWhile isLast).length)

/-- The program that looks for an expression, from its own program `p?`. -/
def view? (referred : List Nat) (p? : Option Program) (e : Expr) : Option Program :=
  if e.isIrregular referred then p? else p?.map fun _ => .sees e

/-- Looks for several expressions in turn: for one of them, or for the absence of all. -/
def looks (negative : Bool) (ps : List Program) : Program :=
  if negative then .seq ps else .alt ps

mutual

/-- The program of an expression, when some groups are referred to. A strict program keeps the ways
into its parts open. -/
def ofExpr? (referred : List Nat) (strict : Bool) (e : Expr) : Option Program :=
  if !strict && !e.isIrregular referred then whole? e
  else
    match e with
    | .empty => some (.seq [])
    | .char s => some (.char s)
    | .anchor a => some (.anchor a)
    | .seq es => do
      let (first, last) := wholeEnds referred strict es
      let rest := es.length - last
      let start ← wholes? (es.take first)
      let middle ← ofSlice? referred true first rest es
      let finish ← wholes? (es.drop rest)
      return .seq (start ++ middle ++ finish)
    | .alt es => (ofExprs? referred strict es).map .alt
    | .group n e =>
      (ofExpr? referred strict e).map fun p => if referred.contains n then .group n p else p
    | .rep e lo hi greedy =>
      let isOption := lo == 0 && hi == some 1
      let guarded := hi.isNone && e.minSize == 0
      (ofExpr? referred (strict || !isOption) e).map fun p => .rep p lo hi greedy guarded
    | .look false negative e =>
      (view? referred (ofExpr? referred false e) e).map (.look 0 negative)
    | .look true negative e =>
      if e.hasSize then
        (view? referred (ofExpr? referred false e) e).map (.look e.minSize negative)
      else
        match e with
        | .alt es => (behind? referred negative es).map (looks negative)
        | _ => none
    | .atomic e => (ofExpr? referred false e).map .atomic
    | .backref n caseless => some (.backref n caseless)
    | .isSet n => some (.isSet n)
    | .cond test yes no => do
      let test ← ofExpr? referred strict test
      let yes ← ofExpr? referred strict yes
      let no ← ofExpr? referred strict no
      return .cond test yes no
    | .keepOut => some (.seq [])

/-- The programs of expressions. -/
def ofExprs? (referred : List Nat) (strict : Bool) : List Expr → Option (List Program)
  | [] => some []
  | e :: es => do return (← ofExpr? referred strict e) :: (← ofExprs? referred strict es)

/-- The programs of the expressions from one index up to another. -/
def ofSlice? (referred : List Nat) (strict : Bool) : Nat → Nat → List Expr → Option (List Program)
  | _, _, [] => some []
  | _, 0, _ => some []
  | lo + 1, hi + 1, _ :: es => ofSlice? referred strict lo hi es
  | 0, hi + 1, e :: es => do
    return (← ofExpr? referred strict e) :: (← ofSlice? referred strict 0 hi es)

/-- The programs that look behind for expressions, each of which must have a length. -/
def behind? (referred : List Nat) (negative : Bool) : List Expr → Option (List Program)
  | [] => some []
  | e :: es => do
    if !e.hasSize then none
    else
      let p ← view? referred (ofExpr? referred false e) e
      return .look e.minSize negative p :: (← behind? referred negative es)

end

mutual

/-- The steps that a program takes at most between two characters, about. -/
def weight : Program → Nat
  | seq ps => weights ps
  | alt ps => weights ps
  | group _ p => weight p + 2
  | rep p lo hi _ _ => (weight p + 1) * (lo + hi.getD 1 + 2)
  | look _ _ p => weight p + 2
  | atomic p => weight p + 2
  | cond test yes no => weight test + weight yes + weight no + 1
  | _ => 1

/-- The sum of weights. -/
def weights : List Program → Nat
  | [] => 1
  | p :: ps => weight p + weights ps

end

end Program

end SchemaLint.Pattern
