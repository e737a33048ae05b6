import SchemaLint.Pattern.Program
import SchemaLint.Pattern.Regular

/-!
# Searching step by step

A search keeps a stack of configurations: what is still to do, at which place, with which groups
matched. It works on the first one; where there are several ways on, the preferred one comes first.
When there is none, the search goes back to the next configuration of the stack, and only so many
times: a search that goes back too often is given up.
-/

namespace SchemaLint.Pattern

/-- What is still to do. -/
inductive Task where
  | run (p : Program)
  /-- Repeats a program that was repeated `count` times already; a guarded one must not come back to
  the place that it was last seen at. -/
  | again (p : Program) (lo : Nat) (hi : Option Nat) (greedy guarded : Bool) (count : Nat)
    (seen : Option Nat)
  /-- Goes back to a place. -/
  | back (p : Place)
  /-- Ends a group. -/
  | close (n : Nat)

/-- A state of a search. -/
structure Config where
  todo : List Task
  place : Place
  /-- Where groups began last. -/
  opened : List (Nat × Place)
  /-- The offsets where groups ended last. -/
  closed : List (Nat × Nat)

namespace Config

/-- The value kept for a number. -/
def get? {α : Type} (n : Nat) (kept : List (Nat × α)) : Option α :=
  (kept.find? (·.1 == n)).map (·.2)

/-- Keeps a value for a number. -/
def put {α : Type} (n : Nat) (a : α) (kept : List (Nat × α)) : List (Nat × α) :=
  (n, a) :: kept.filter (·.1 != n)

/-- The text that a group has matched. -/
def groupText? (c : Config) (n : Nat) : Option (List Char) :=
  match get? n c.opened, get? n c.closed with
  | some first, some last => some (first.upTo last)
  | _, _ => none

/-- Tells whether a text is what a group has matched. -/
def sameText (caseless : Bool) (a b : List Char) : Bool :=
  a == b || (caseless && a.length == b.length && Text.utf8Length a == Text.utf8Length b &&
    (a.zip b).all fun (c, d) => Unicode.sameFold c d)

/-- The ways on from a repetition. -/
def repeatWays (c : Config) (p : Program) (lo : Nat) (hi : Option Nat) (greedy guarded : Bool)
    (count : Nat) (seen : Option Nat) : List Config :=
  let here := some c.place.offset
  let more : Option Nat → Config := fun seen =>
    { c with todo := .run p :: .again p lo hi greedy guarded (count + 1) seen :: c.todo }
  if hi == some count then [c]
  else if guarded && 0 < count && seen == here then []
  else if count < lo then [more seen]
  else if greedy then [more here, c]
  else [c, more here]

/-- The ways on for a task that needs no search of its own, the preferred one first. -/
def ways (c : Config) : Task → List Config
  | .run (.char s) =>
    match c.place.next? with
    | some (ch, q) => if s.mem ch then [{ c with place := q }] else []
    | none => []
  | .run (.anchor a) => if a.holds c.place then [c] else []
  | .run (.whole e) => (e.preferredEnd? c.place).toList.map fun q => { c with place := q }
  | .run (.sees e) => if e.fits c.place then [c] else []
  | .run (.seq ps) => [{ c with todo := ps.map .run ++ c.todo }]
  | .run (.alt ps) => ps.map fun p => { c with todo := .run p :: c.todo }
  | .run (.group n p) =>
    [{ c with todo := .run p :: .close n :: c.todo, opened := put n c.place c.opened }]
  | .run (.rep p lo hi greedy guarded) => c.repeatWays p lo hi greedy guarded 0 none
  | .run (.look back _ p) =>
    (c.place.back? back).toList.map fun q =>
      { c with todo := .run p :: .back c.place :: c.todo, place := q }
  | .run (.backref n caseless) =>
    match c.groupText? n with
    | some s =>
      if sameText caseless s (c.place.after.take s.length) then
        [{ c with place := c.place.ahead s.length }]
      else []
    | none => []
  | .run (.isSet n) => if (get? n c.opened).isSome then [c] else []
  | .run (.atomic _) => []
  | .run (.cond ..) => []
  | .again p lo hi greedy guarded count seen => c.repeatWays p lo hi greedy guarded count seen
  | .back q => [{ c with place := q }]
  | .close n => [{ c with closed := put n c.place.offset c.closed }]

end Config

/-- What comes of a search. -/
inductive Outcome where
  /-- A match, with how often the search may still go back. -/
  | found (c : Config) (budget : Nat)
  /-- No match. -/
  | exhausted (budget : Nat)
  | givenUp

/-- Searches from a configuration and then from those of a stack; `budget` says how often it may go
back, `fuel` bounds the tasks done. -/
def search : Nat → Nat → Config → List Config → Outcome
  | 0, _, _, _ => .givenUp
  | fuel + 1, budget, c, stack =>
    match c.todo with
    | [] => .found c budget
    | task :: todo =>
      let c := { c with todo }
      let goBack : Nat → Outcome := fun budget =>
        match stack, budget with
        | [], budget => .exhausted budget
        | _, 0 => .givenUp
        | c :: stack, budget + 1 => search fuel budget c stack
      let within : Program → Nat → Place → Outcome := fun p budget place =>
        search fuel budget { c with todo := [.run p], place } []
      match task with
      | .run (.look back true p) =>
        let outcome := (c.place.back? back).elim (.exhausted budget) (within p budget)
        match outcome with
        | .found _ budget => goBack budget
        | .exhausted (budget + 1) => search fuel budget c stack
        | .exhausted 0 => .givenUp
        | .givenUp => .givenUp
      | .run (.atomic p) =>
        match within p budget c.place with
        | .found c' budget => search fuel budget { c' with todo } stack
        | .exhausted budget => goBack budget
        | .givenUp => .givenUp
      | .run (.cond test yes no) =>
        match within test budget c.place with
        | .found c' budget => search fuel budget { c' with todo := .run yes :: todo } stack
        | .exhausted (budget + 1) => search fuel budget { c with todo := .run no :: todo } stack
        | .exhausted 0 => .givenUp
        | .givenUp => .givenUp
      | task =>
        match c.ways task with
        | [] => goBack budget
        | c' :: others => search fuel budget c' (others ++ stack)

/-- How often a search may go back. -/
def maxReturns : Nat := 1000000

namespace Program

/-- The program that searches for another one from every place on, the first place preferred. -/
def anywhere (p : Program) : Program :=
  .seq [.rep (.char .any) 0 none false false, p]

/-- Searches a text for a program. A bound for the tasks between two returns follows from the length
of the text and the weight of the program. -/
def searchIn (p : Program) (text : List Char) : Outcome :=
  let fuel := (maxReturns + 1) * (text.length + 2) * (p.weight + 8)
  search fuel maxReturns
    { todo := [.run p.anywhere], place := .start text, opened := [], closed := [] } []

/-- Tells whether a program is found in a text; a search that is given up counts as a find. -/
def accepts (p : Program) (text : List Char) : Bool :=
  match p.searchIn text with
  | .exhausted _ => false
  | _ => true

end Program

end SchemaLint.Pattern
