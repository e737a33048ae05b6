import SchemaLint.Pattern.Place

/-!
# Where regular expressions end

A set of places from a fixed one on is a number: bit `i` stands for the place `i` characters ahead.
An expression is first laid over the text, so that each of its characters and anchors becomes the
set of places that it lets pass. `ends` carries the set of places where an expression may begin to
the set of those where it may end; no way is tried twice. `pick` finds the end of the way that a
reader takes who prefers earlier alternatives, and more or fewer repetitions as the pattern says.
-/

namespace SchemaLint.Pattern

/-- A regular expression laid over a text. -/
inductive Overlay where
  /-- Passes the character after one of the places. -/
  | move (places : Nat)
  /-- Stays at one of the places. -/
  | stay (places : Nat)
  | seq (os : List Overlay)
  | alt (os : List Overlay)
  /-- At least `lo` and at most `hi` times. -/
  | rep (o : Overlay) (lo : Nat) (hi : Option Nat) (greedy : Bool)

namespace Overlay

/-- The places before the characters that pass a test. -/
def before (test : Char → Bool) : List Char → Nat
  | [] => 0
  | c :: s => (if test c then 1 else 0) + 2 * before test s

/-- All places of a text. -/
def places (s : List Char) : Nat :=
  (1 <<< (s.length + 1)) - 1

/-- The places where an anchor of a regular expression holds. -/
def anchored (p : Place) : Anchor → Nat
  | .textStart => if p.before.isEmpty then 1 else 0
  | .textEnd => 1 <<< p.after.length
  | .lineStart => (if Anchor.lineStart.holds p then 1 else 0) + 2 * before (· == '\n') p.after
  | .lineEnd => (1 <<< p.after.length) + before (· == '\n') p.after
  | _ => 0

mutual

/-- Lays a regular expression over what is after a place. -/
def ofExpr (p : Place) : Expr → Overlay
  | .empty => seq []
  | .char s => move (before s.mem p.after)
  | .anchor a => stay (anchored p a)
  | .seq es => seq (ofExprs p es)
  | .alt es => alt (ofExprs p es)
  | .group _ e => ofExpr p e
  | .rep e lo hi greedy => rep (ofExpr p e) lo hi greedy
  | _ => stay 0

/-- Lays several expressions over a text. -/
def ofExprs (p : Place) : List Expr → List Overlay
  | [] => []
  | e :: es => ofExpr p e :: ofExprs p es

end

/-- The places that are in the first set and not in the second. -/
def without (a b : Nat) : Nat :=
  (a ||| b) ^^^ b

/-- Where `n` steps lead. -/
def times (step : Nat → Nat) : Nat → Nat → Nat
  | 0, m => m
  | n + 1, m => if m == 0 then 0 else times step n (step m)

/-- Where up to `n` steps lead from the places added last; `found` are all places so far. -/
def spread (step : Nat → Nat) : Nat → Nat → Nat → Nat
  | 0, _, found => found
  | n + 1, added, found =>
    let new := without (step added) found
    if new == 0 then found else spread step n new (found ||| new)

/-- Where a repeated step leads in a text of a length. A set of places grows no more often than
there are places. -/
def repeated (length : Nat) (step : Nat → Nat) (lo : Nat) (hi : Option Nat) (m : Nat) : Nat :=
  let first := times step lo m
  spread step (hi.elim (length + 1) (· - lo)) first first

mutual

/-- Where an expression may end that begins at one of the given places. -/
def ends (length : Nat) : Overlay → Nat → Nat
  | move places, m => 2 * (m &&& places)
  | stay places, m => m &&& places
  | seq os, m => endsOfAll length os m
  | alt os, m => endsOfSome length os m
  | rep o lo hi _, m => repeated length (ends length o) lo hi m

/-- Where expressions one after the other may end. -/
def endsOfAll (length : Nat) : List Overlay → Nat → Nat
  | [], m => m
  | o :: os, m => endsOfAll length os (ends length o m)

/-- Where one of several expressions may end. -/
def endsOfSome (length : Nat) : List Overlay → Nat → Nat
  | [], _ => 0
  | o :: os, m => ends length o m ||| endsOfSome length os m

end

/-- The members of a set of places. -/
def members (length : Nat) (m : Nat) : List Nat :=
  (List.range (length + 1)).filter m.testBit

/-- The places of a set from which a step reaches a target. -/
def viable (length : Nat) (step : Nat → Nat) (targets m : Nat) : Nat :=
  ((members length m).filter fun q => step (1 <<< q) &&& targets != 0).foldl (fun s q => s + (1 <<< q)) 0

/-- Chooses the end of a repetition, from the choice of an end of its body, the step of its body and
how often it must and may be repeated still. A repetition that reads nothing is the last. -/
def pickRepeated (length : Nat) (pick : Nat → Nat → Option Nat) (step : Nat → Nat) (greedy : Bool) :
    Nat → Nat → Option Nat → Nat → Nat → Option Nat
  | 0, _, _, _, _ => none
  | fuel + 1, lo, hi, q, targets =>
    let here := if targets.testBit q then some q else none
    if hi == some 0 then here
    else
      let fewer := hi.map (· - 1)
      let goals := viable length (repeated length step (lo - 1) fewer) targets (step (1 <<< q))
      if 0 < lo then
        (pick q goals).bind fun q' =>
          pickRepeated length pick step greedy fuel (lo - 1) fewer q' targets
      else if !greedy && here.isSome then here
      else
        match pick q (without goals (1 <<< q) ||| (targets &&& 1 <<< q)) with
        | some q' =>
          if q' == q then here
          else pickRepeated length pick step greedy fuel 0 fewer q' targets
        | none => here

mutual

/-- The end, among the targets, of the preferred way of an expression that begins at `q`. -/
def pick (length : Nat) : Overlay → Nat → Nat → Option Nat
  | move places, q, targets => (members length (2 * (1 <<< q &&& places) &&& targets)).head?
  | stay places, q, targets => (members length (1 <<< q &&& places &&& targets)).head?
  | seq os, q, targets => pickAll length os q targets
  | alt os, q, targets => pickSome length os q targets
  | rep o lo hi greedy, q, targets =>
    pickRepeated length (pick length o) (ends length o) greedy (lo + length + 2) lo hi q targets

/-- The preferred end of expressions one after the other. -/
def pickAll (length : Nat) : List Overlay → Nat → Nat → Option Nat
  | [], q, targets => if targets.testBit q then some q else none
  | o :: os, q, targets =>
    let goals := viable length (endsOfAll length os) targets (ends length o (1 <<< q))
    (pick length o q goals).bind fun q' => pickAll length os q' targets

/-- The preferred end of one of several expressions, the earlier ones preferred. -/
def pickSome (length : Nat) : List Overlay → Nat → Nat → Option Nat
  | [], _, _ => none
  | o :: os, q, targets => (pick length o q targets).or (pickSome length os q targets)

end

end Overlay

namespace Expr

/-- Where the preferred way of a regular expression ends that begins at a place. -/
def preferredEnd? (e : Expr) (p : Place) : Option Place :=
  (Overlay.pick p.after.length (Overlay.ofExpr p e) 0 (Overlay.places p.after)).map fun n => p.ahead n

/-- Tells whether a regular expression matches from a place on. -/
def fits (e : Expr) (p : Place) : Bool :=
  Overlay.ends p.after.length (Overlay.ofExpr p e) 1 != 0

/-- Tells whether a regular expression matches somewhere in a text. -/
def occursIn (e : Expr) (text : List Char) : Bool :=
  Overlay.ends text.length (Overlay.ofExpr (Place.start text) e) (Overlay.places text) != 0

end Expr

end SchemaLint.Pattern
