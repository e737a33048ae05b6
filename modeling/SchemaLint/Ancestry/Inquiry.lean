import SchemaLint.Ancestry.Calls

/-!
# Asking for the sources of ancestors

The sources that a walk asks for are located by the names of their classes. When a source declares
another class, the class is asked for again, but only so often in a row; then the walk is given up.

Nothing is assumed of the answers, so that the questions come to an end has to follow from what they
use up: `questionsLeft` counts the questions that depth and attempts leave room for, and every answer
lowers it (`questionsLeft_answered_lt`).
-/

namespace SchemaLint

/-- A walk with the class that was asked for last and how often it was asked for in a row. -/
structure Inquiry where
  walk : AncestorWalk
  current : Option String
  attempts : Nat
  deriving DecidableEq, Repr

namespace Inquiry

open AncestorWalk

/-- Before the first question. -/
def start (source : String) (maxDepth : Nat) : Inquiry :=
  { walk := .start source maxDepth, current := none, attempts := 0 }

/-- The class that is asked for next. -/
def request? (q : Inquiry) : Option String :=
  q.walk.next.request?

/-- How often in a row a class will have been asked for when it is asked for next. -/
def attemptsFor (q : Inquiry) (name : String) : Nat :=
  if q.current = some name then q.attempts + 1 else 1

/-- The inquiry after a class has been asked for and the answer has been given to the walk. -/
def answered (q : Inquiry) (name : String) (source : Option String) : Inquiry :=
  { walk := q.walk.next.supply source, current := some name, attempts := q.attemptsFor name }

/-- How many questions may be asked at most, whatever the answers: as many as there are attempts for
each ancestor that there is room for. -/
def questionsLeft (maxAttempts : Nat) (q : Inquiry) : Nat :=
  match q.request? with
  | none => 0
  | some name =>
    (q.walk.maxDepth - q.walk.ancestors.length - 1) * maxAttempts +
      (maxAttempts + 1 - q.attemptsFor name)

theorem one_le_attemptsFor (q : Inquiry) (name : String) : 1 ≤ q.attemptsFor name := by
  unfold attemptsFor
  split
  · exact Nat.le_add_left 1 q.attempts
  · exact Nat.le_refl 1

section Answers

variable {q : Inquiry} {name : String} {maxAttempts : Nat}

@[simp] theorem attemptsFor_answered_self (source : Option String) :
    (q.answered name source).attemptsFor name = q.attemptsFor name + 1 := by
  simp [attemptsFor, answered]

theorem attemptsFor_answered_of_ne (source : Option String) {other : String} (hne : other ≠ name) :
    (q.answered name source).attemptsFor other = 1 := by
  simp [attemptsFor, answered, hne.symm]

theorem questionsLeft_of_request (h : q.request? = some name) :
    q.questionsLeft maxAttempts =
      (q.walk.maxDepth - q.walk.ancestors.length - 1) * maxAttempts +
        (maxAttempts + 1 - q.attemptsFor name) := by
  unfold questionsLeft
  rw [h]

theorem questionsLeft_of_not_request (h : q.request? = none) : q.questionsLeft maxAttempts = 0 := by
  unfold questionsLeft
  rw [h]

theorem answered_walk (h : q.request? = some name) (source : Option String) :
    Answered q.walk.next name source (q.answered name source).walk :=
  answered_supply (request?_eq_some.mp h) source

/-- Every answer lowers the number of questions left. -/
theorem questionsLeft_answered_lt (h : q.request? = some name)
    (hmax : q.attemptsFor name ≤ maxAttempts) (source : Option String) :
    (q.answered name source).questionsLeft maxAttempts < q.questionsLeft maxAttempts := by
  have hanswered := answered_walk h source
  have hfirst := q.one_le_attemptsFor name
  have hdepth : (q.answered name source).walk.maxDepth = q.walk.maxDepth := by
    rw [hanswered.maxDepth_eq, next_maxDepth]
  rw [questionsLeft_of_request h]
  rcases hanswered.next_request? (request?_eq_some.mp h) with
    hnone | ⟨hsame, hchain⟩ | ⟨other, hother, hne, hlength, hroom⟩
  · rw [questionsLeft_of_not_request hnone]
    omega
  · rw [questionsLeft_of_request hsame, attemptsFor_answered_self, hdepth, hchain, next_ancestors]
    omega
  · -- One ancestor more makes up for all the attempts that there may be for it.
    rw [next_ancestors] at hlength
    rw [next_maxDepth] at hroom
    rw [questionsLeft_of_request hother, attemptsFor_answered_of_ne source hne, hdepth, hlength]
    have hspare : q.walk.maxDepth - q.walk.ancestors.length - 1 =
        q.walk.maxDepth - (q.walk.ancestors.length + 1) - 1 + 1 := by omega
    rw [hspare, Nat.add_mul]
    omega

end Answers

section Pursue

variable {m : Type → Type} [Monad m]

/-- Asks until the walk comes to its end or a class has been asked for too often. -/
def pursue (locate : String → m (Option String)) (maxAttempts : Nat) (q : Inquiry) :
    m AncestorWalk :=
  match h : q.request? with
  | none => return q.walk.next
  | some name =>
    if hmax : q.attemptsFor name ≤ maxAttempts then do
      let source ← locate name
      have := questionsLeft_answered_lt h hmax source
      pursue locate maxAttempts (q.answered name source)
    else return q.walk.next.abort
termination_by q.questionsLeft maxAttempts

variable {locate : String → m (Option String)} {maxAttempts : Nat} {q : Inquiry} {name : String}

theorem pursue_of_not_request (h : q.request? = none) :
    q.pursue locate maxAttempts = pure q.walk.next := by
  rw [pursue]
  split
  · rfl
  · next hname =>
    rw [h] at hname
    cases hname

theorem pursue_of_request (h : q.request? = some name) :
    q.pursue locate maxAttempts =
      if q.attemptsFor name ≤ maxAttempts then do
        let source ← locate name
        (q.answered name source).pursue locate maxAttempts
      else pure q.walk.next.abort := by
  rw [pursue]
  split
  · next hnone =>
    rw [h] at hnone
    cases hnone
  · next other hother =>
    obtain rfl : name = other := Option.some.inj (h.symm.trans hother)
    rfl

end Pursue

end Inquiry

/-- Completes the fields of a class by those of its ancestors, whose sources are located by name. -/
def AncestorWalk.resolve {m : Type → Type} [Monad m] (locate : String → m (Option String))
    (source : String) (maxDepth maxAttempts : Nat) : m Resolution :=
  return (← (Inquiry.start source maxDepth).pursue locate maxAttempts).finish

end SchemaLint
