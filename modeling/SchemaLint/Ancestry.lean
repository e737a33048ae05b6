import SchemaLint.ClassSource

/-!
# Ancestors of classes

The fields of a class are completed by those of the classes that it extends. A walk follows the
chain of ancestors and asks for the source of one at a time; it ends with a class that extends none,
or it stops early and says why. The fields of nearer classes come first and stay when a farther one
has a field of the same name.
-/

namespace SchemaLint

/-- Why the fields of an ancestor are left out. -/
inductive UnresolvedReason where
  /-- No source was given. -/
  | declined
  /-- The source given declares no class. -/
  | parseFailed
  /-- The class is on the chain already. -/
  | cycle
  /-- The chain is longer than allowed. -/
  | depthExceeded
  /-- The walk was given up. -/
  | cancelled
  deriving DecidableEq, Repr

/-- A reason in words. -/
def UnresolvedReason.message : UnresolvedReason → String
  | declined => "no file was chosen"
  | parseFailed => "the file could not be parsed"
  | cycle => "the inheritance chain loops back on itself"
  | depthExceeded => "the inheritance chain is too deep"
  | cancelled => "the lookup was cancelled"

/-- What may be wrong with the fields of a class. -/
inductive ExtractionWarning where
  /-- There are no fields. -/
  | empty
  | unresolved (name : String) (reason : UnresolvedReason)
  /-- A source given for one class declares another. -/
  | mismatch (expected found : String)
  deriving DecidableEq, Repr

namespace ExtractionWarning

/-- What is said by a warning. -/
def message : ExtractionWarning → String
  | empty => "no fields were recognized"
  | unresolved name reason =>
    "fields of ancestor '" ++ name ++ "' were not loaded: " ++ reason.message
  | mismatch expected found =>
    "file supplied for '" ++ expected ++ "' declares '" ++ found ++ "' instead"

/-- Tells whether a warning is about an ancestor left out. -/
def isUnresolved : ExtractionWarning → Bool
  | unresolved .. => true
  | _ => false

end ExtractionWarning

/-- Where a walk stands. -/
inductive WalkState where
  /-- A class is named and has not been asked for. -/
  | pending (name : String)
  /-- A class has been asked for. -/
  | awaiting (name : String)
  /-- The last class extends none. -/
  | resolved
  /-- The walk stopped before a class. -/
  | skipped (name : String) (reason : UnresolvedReason)
  deriving DecidableEq, Repr

/-- A walk along the ancestors of a class. -/
structure AncestorWalk where
  /-- The class that the walk started from. -/
  className : Option String
  fields : List Field
  /-- The ancestors whose fields were taken, the nearest first. -/
  ancestors : List String
  /-- The classes whose sources were taken, the first one included. -/
  visited : List String
  warnings : List ExtractionWarning
  state : WalkState
  /-- The number of ancestors that are followed at most. -/
  maxDepth : Nat
  deriving DecidableEq, Repr

/-- What is known of a class and its ancestors. -/
structure Resolution where
  className : Option String
  fields : List Field
  ancestors : List String
  warnings : List ExtractionWarning
  deriving DecidableEq, Repr

/-- Tells whether no ancestor was left out. -/
def Resolution.isComplete (r : Resolution) : Bool :=
  !r.warnings.any (·.isUnresolved)

namespace AncestorWalk

/-- The number of ancestors that are followed unless something else is said. -/
def defaultMaxDepth : Nat := 32

/-- The number of sources that may be given for one ancestor unless something else is said. -/
def defaultMaxAttempts : Nat := 3

/-- Stops a walk before a class. -/
def skip (w : AncestorWalk) (name : String) (reason : UnresolvedReason) : AncestorWalk :=
  { w with warnings := w.warnings ++ [.unresolved name reason], state := .skipped name reason }

/-- The classes taken together with one more, if its source names one. -/
def visit (visited : List String) (name : Option String) : List String :=
  name.elim visited visited.insert

/-- Takes the fields of a class and goes on to the class that it extends. -/
def absorb (w : AncestorWalk) (o : ClassOutline) : AncestorWalk :=
  let w := { w with
    visited := visit w.visited o.name
    fields := Field.merge w.fields o.fields }
  match o.parent with
  | none => { w with state := .resolved }
  | some parent =>
    if w.visited.contains parent then w.skip parent .cycle else { w with state := .pending parent }

/-- Starts a walk from the source of a class. -/
def start (source : String) (maxDepth : Nat) : AncestorWalk :=
  let o := ClassSource.outline source
  absorb
    { className := o.name
      fields := []
      ancestors := []
      visited := []
      warnings := []
      state := .resolved
      maxDepth }
    o

/-- Asks for the next class, unless the chain is too long. -/
def next (w : AncestorWalk) : AncestorWalk :=
  match w.state with
  | .pending name =>
    if w.maxDepth ≤ w.ancestors.length then w.skip name .depthExceeded
    else { w with state := .awaiting name }
  | _ => w

/-- The class that has been asked for. -/
def request? (w : AncestorWalk) : Option String :=
  match w.state with
  | .awaiting name => some name
  | _ => none

/-- Answers a request by a source or by none. When the source declares another class the request
stays. -/
def supply (w : AncestorWalk) (source : Option String) : AncestorWalk :=
  match w.state with
  | .awaiting expected =>
    match source.map ClassSource.outline with
    | none => w.skip expected .declined
    | some o =>
      match o.name with
      | none => w.skip expected .parseFailed
      | some found =>
        if found == expected then { w with ancestors := w.ancestors ++ [expected] }.absorb o
        else { w with warnings := w.warnings ++ [.mismatch expected found] }
  | _ => w

/-- Gives a walk up. -/
def abort (w : AncestorWalk) : AncestorWalk :=
  match w.state with
  | .pending name => w.skip name .cancelled
  | .awaiting name => w.skip name .cancelled
  | _ => w

/-- Tells whether a walk has come to its end. -/
def isFinished (w : AncestorWalk) : Bool :=
  match w.state with
  | .resolved => true
  | .skipped .. => true
  | _ => false

/-- What a walk has found; a walk that has not come to its end is given up. -/
def finish (w : AncestorWalk) : Resolution :=
  let w := w.abort
  { className := w.className
    fields := w.fields
    ancestors := w.ancestors
    warnings := if w.fields.isEmpty then w.warnings ++ [.empty] else w.warnings }

end AncestorWalk

end SchemaLint
