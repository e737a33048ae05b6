import SchemaLint.Text.Blank
import SchemaLint.Unicode.Fold

/-!
# Forms of text

A form says in which ways a text can start. It gives all of them, the preferred way first, each as
what was read and what is left; a form that does not fit gives none. Forms are put together by
sequence, choice and repetition, and what a larger form prefers follows from what its parts prefer:
the first way of the whole is the one that a reader finds who always tries the preferred way first
and goes back when the rest does not fit.
-/

namespace SchemaLint

/-- The ways in which a text can start, the preferred one first. -/
def Form (α : Type) : Type :=
  List Char → List (α × List Char)

namespace Form

/-- Reads nothing. -/
protected def pure {α : Type} (a : α) : Form α :=
  fun s => [(a, s)]

/-- Reads one form and then another that depends on what was read. -/
protected def bind {α β : Type} (f : Form α) (g : α → Form β) : Form β :=
  fun s => (f s).flatMap fun (a, r) => g a r

instance : Monad Form where
  pure := Form.pure
  bind := Form.bind

/-- What the preferred way of a form reads. -/
def read? {α : Type} (f : Form α) (s : List Char) : Option α :=
  (f s).head?.map (·.1)

/-- Tells whether a text starts with a form. -/
def fits {α : Type} (f : Form α) (s : List Char) : Bool :=
  !(f s).isEmpty

/-- Reads two forms one after the other and joins their texts. -/
def append (f g : Form (List Char)) : Form (List Char) :=
  fun s => (f s).flatMap fun (x, r) => (g r).map fun (y, t) => (x ++ y, t)

instance : Append (Form (List Char)) :=
  ⟨append⟩

/-- Reads one of several forms, the earlier ones preferred. -/
def oneOf {α : Type} (fs : List (Form α)) : Form α :=
  fun s => fs.flatMap (· s)

/-- Reads a form or nothing, the form preferred. -/
def opt (f : Form (List Char)) : Form (List Char) :=
  fun s => f s ++ [([], s)]

/-- Reads one character that passes a test. -/
def char (p : Char → Bool) : Form (List Char)
  | [] => []
  | c :: s => if p c then [([c], s)] else []

/-- Reads characters that pass a test, as many as possible preferred. -/
def run (p : Char → Bool) : Form (List Char)
  | [] => [([], [])]
  | c :: s => if p c then (run p s).map (fun (x, r) => (c :: x, r)) ++ [([], c :: s)] else [([], c :: s)]

/-- Reads one or more characters that pass a test, as many as possible preferred. -/
def run1 (p : Char → Bool) : Form (List Char) :=
  char p ++ run p

/-- Reads the longest run of characters that pass a test, and no shorter one. -/
def span (p : Char → Bool) : Form (List Char) :=
  fun s => [(s.takeWhile p, s.dropWhile p)]

/-- Reads the longest run of characters that pass a test, if there is one. -/
def span1 (p : Char → Bool) : Form (List Char) :=
  char p ++ span p

/-- Reads characters that pass a test, as few as possible preferred. -/
def fewest (p : Char → Bool) : Form (List Char)
  | [] => [([], [])]
  | c :: s => ([], c :: s) :: if p c then (fewest p s).map fun (x, r) => (c :: x, r) else []

/-- Reads one or more characters that pass a test, as few as possible preferred. -/
def fewest1 (p : Char → Bool) : Form (List Char) :=
  char p ++ fewest p

/-- Reads a form up to `n` times, as often as possible preferred. -/
def upTo (f : Form (List Char)) : Nat → Form (List Char)
  | 0, s => [([], s)]
  | n + 1, s => ((f s).flatMap fun (x, r) => (upTo f n r).map fun (y, t) => (x ++ y, t)) ++ [([], s)]

/-- Reads a form, which reads something each time, any number of times, as often as possible
preferred. -/
def star (f : Form (List Char)) : Form (List Char) :=
  fun s => upTo f s.length s

/-- Reads characters that each fold together with the one asked for. -/
def folded : List Char → Form (List Char)
  | [] => Form.pure []
  | c :: cs => char (Unicode.sameFold c) ++ folded cs

/-- Reads a word in any case. -/
def word (w : String) : Form (List Char) :=
  folded w.toList

/-- Reads exactly the given characters. -/
def exact : List Char → Form (List Char)
  | [] => Form.pure []
  | c :: cs => char (· == c) ++ exact cs

/-- Reads blanks. -/
def blanks : Form (List Char) :=
  run Text.isBlank

/-- Reads one or more blanks. -/
def blanks1 : Form (List Char) :=
  run1 Text.isBlank

/-- Reads all that is left. -/
def rest : Form (List Char) :=
  fun s => [(s, [])]

/-- Reads all that is left if there is something. -/
def rest1 : Form (List Char) :=
  fun s => if s.isEmpty then [] else [(s, [])]

/-- Reads nothing before a character that passes a test, or at the end of the text. -/
def ahead (p : Char → Bool) : Form Unit :=
  fun s => if s.head?.all p then [((), s)] else []

/-- Reads nothing at the end of the text. -/
def done : Form Unit :=
  fun s => if s.isEmpty then [((), [])] else []

/-- What a form reads at each place of a text where it fits, the places from left to right and none
inside what was read before. The form is told the character before its place; a form that reads
nothing is not looked for. `skip` counts the characters that were read already. -/
def findAll {α : Type} (f : Option Char → Form α) : Nat → Option Char → List Char → List α
  | _, _, [] => []
  | skip + 1, _, c :: s => findAll f skip (some c) s
  | 0, before, c :: s =>
    match (f before (c :: s)).head? with
    | some (a, r) => a :: findAll f (s.length - r.length) (some c) s
    | none => findAll f 0 (some c) s

/-- What a form reads at each place of a whole text where it fits. -/
def occurrences {α : Type} (f : Option Char → Form α) (s : List Char) : List α :=
  findAll f 0 none s

end Form

end SchemaLint
