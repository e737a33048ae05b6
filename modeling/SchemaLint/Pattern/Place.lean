import SchemaLint.Pattern.Expr

/-!
# Places in a text

A place lies between two characters of a text or at one of its ends. Anchors are tests on places;
to match a character is to move one place forward.
-/

namespace SchemaLint.Pattern

/-- A place in a text. -/
structure Place where
  /-- The number of characters before the place. -/
  offset : Nat
  /-- What is before the place, the nearest character first. -/
  before : List Char
  /-- What is after the place. -/
  after : List Char

namespace Place

/-- The place before a text. -/
def start (text : List Char) : Place :=
  { offset := 0, before := [], after := text }

/-- The place after the next character, and that character. -/
def next? (p : Place) : Option (Char × Place) :=
  match p.after with
  | [] => none
  | c :: s => some (c, { offset := p.offset + 1, before := c :: p.before, after := s })

/-- The place `n` characters ahead, or the last one. -/
def ahead : Nat → Place → Place
  | 0, p => p
  | n + 1, p =>
    match p.next? with
    | some (_, q) => ahead n q
    | none => p

/-- The place `n` characters back. -/
def back? : Nat → Place → Option Place
  | 0, p => some p
  | n + 1, p =>
    match p.before with
    | [] => none
    | c :: s => back? n { offset := p.offset - 1, before := s, after := c :: p.after }

/-- The text from one place up to the offset of another. -/
def upTo (p : Place) (offset : Nat) : List Char :=
  p.after.take (offset - p.offset)

/-- Tells whether the character before a place is of a word. -/
def isAfterWord (p : Place) : Bool :=
  p.before.head?.any Unicode.isWord

/-- Tells whether the character after a place is of a word. -/
def isBeforeWord (p : Place) : Bool :=
  p.after.head?.any Unicode.isWord

end Place

/-- Tells whether an anchor holds at a place. -/
def Anchor.holds (p : Place) : Anchor → Bool
  | textStart => p.before.isEmpty
  | textEnd => p.after.isEmpty
  | lineStart => p.before.head?.all (· == '\n')
  | lineEnd => p.after.head?.all (· == '\n')
  | wordEdge => p.isAfterWord != p.isBeforeWord
  | notWordEdge => p.isAfterWord == p.isBeforeWord
  | wordStart => !p.isAfterWord && p.isBeforeWord
  | wordEnd => p.isAfterWord && !p.isBeforeWord
  | searchStart => p.before.isEmpty

end SchemaLint.Pattern
