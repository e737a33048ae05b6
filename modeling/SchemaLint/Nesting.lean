import SchemaLint.Text.Blank

/-!
# Quotes and brackets on a line

A line is read character by character. A reader knows how many brackets are open, which quote it
is inside of, and whether a backslash has just escaped the next character of that quote. Brackets
inside quotes do not count, a closing bracket that closes nothing leaves the depth at zero, and the
kinds of brackets are not told apart here (`Balance` does that).

Each character gets a `Mark`: its depth, the same for an opening bracket and its partner, and
whether it is quoted, the quotes themselves included.
-/

namespace SchemaLint

/-- A character that opens and closes a quoted text. -/
def isQuote (c : Char) : Bool :=
  c == '\x27' || c == '\x22' || c == '\x60'

/-- An opening bracket of one of the three kinds. -/
def isOpener (c : Char) : Bool :=
  c == '(' || c == '[' || c == '\x7b'

/-- A closing bracket of one of the three kinds. -/
def isCloser (c : Char) : Bool :=
  c == ')' || c == ']' || c == '\x7d'

/-- What a reader knows between two characters. -/
structure Nesting where
  /-- The brackets open. -/
  depth : Nat
  /-- The quote the reader is inside of. -/
  quote : Option Char
  /-- Whether the next character of the quote is escaped. -/
  escaped : Bool
  deriving DecidableEq, Repr

/-- A character with what the reader knows of its place. -/
structure Mark where
  ch : Char
  /-- The bracket depth; an opening bracket and its partner have the same. -/
  depth : Nat
  /-- Whether the character is inside a quote or is one of its ends. -/
  quoted : Bool
  deriving DecidableEq, Repr

/-- A place outside all quotes and brackets. -/
def Mark.isTop (m : Mark) : Bool :=
  m.depth == 0 && !m.quoted

namespace Nesting

/-- Outside all quotes and brackets, where every line starts. -/
def start : Nesting :=
  { depth := 0, quote := none, escaped := false }

/-- What is known after a character. -/
def next (n : Nesting) (c : Char) : Nesting :=
  match n.quote with
  | some q =>
    if n.escaped then { n with escaped := false }
    else if c == '\\' then { n with escaped := true }
    else if c == q then { n with quote := none }
    else n
  | none =>
    if isQuote c then { n with quote := some c }
    else if isOpener c then { n with depth := n.depth + 1 }
    else if isCloser c then { n with depth := n.depth - 1 }
    else n

/-- The mark of a character read at this point. -/
def mark (n : Nesting) (c : Char) : Mark :=
  match n.quote with
  | some _ => { ch := c, depth := n.depth, quoted := true }
  | none =>
    if isQuote c then { ch := c, depth := n.depth, quoted := true }
    else if isCloser c then { ch := c, depth := n.depth - 1, quoted := false }
    else { ch := c, depth := n.depth, quoted := false }

/-- What is known after a text. -/
def after (n : Nesting) (s : List Char) : Nesting :=
  s.foldl next n

/-- The marks of a text. -/
def marks (n : Nesting) : List Char → List Mark
  | [] => []
  | c :: s => n.mark c :: (n.next c).marks s

end Nesting

/-- The marks of a line. -/
def marks (s : List Char) : List Mark :=
  Nesting.start.marks s

/-- The quote that a line leaves open. -/
def openQuote? (s : List Char) : Option Char :=
  (Nesting.start.after s).quote

/-- A test on a place of a line: the character before it, if any, and the line from there on. -/
abbrev PlaceTest := Option Char → List Char → Bool

namespace Nesting

/-- A text cut before every place outside quotes and brackets that passes a test. The first part is
what comes before all of them; the parts together are the text. -/
def parts (test : PlaceTest) : Nesting → Option Char → List Char → List (List Char)
  | _, _, [] => [[]]
  | n, before, c :: s =>
    let later := Text.consHead c (parts test (n.next c) (some c) s)
    if (n.mark c).isTop && test before (c :: s) then [] :: later else later

/-- A text cut at its first unquoted closing bracket of the given depth. -/
def cutAtCloser? (depth : Nat) : Nesting → List Char → Option (List Char × List Char)
  | _, [] => none
  | n, c :: s =>
    if isCloser c && !(n.mark c).quoted && (n.mark c).depth == depth then some ([], c :: s)
    else (cutAtCloser? depth (n.next c) s).map fun (x, y) => (c :: x, y)

/-- For a text that starts with an unquoted opening bracket, what is between it and the bracket
that closes it, and the text from that bracket on. -/
def cutAtPartner? (n : Nesting) : List Char → Option (List Char × List Char)
  | [] => none
  | c :: s =>
    if isOpener c && !(n.mark c).quoted then cutAtCloser? n.depth (n.next c) s else none

end Nesting

/-- A line cut before every place outside quotes and brackets that passes a test. -/
def parts (test : PlaceTest) (s : List Char) : List (List Char) :=
  Nesting.start.parts test none s

/-- Where all parts but the first begin, when the first begins at a given byte offset. -/
def partOffsets (offset : Nat) : List (List Char) → List Nat
  | [] => []
  | [_] => []
  | p :: ps => (offset + Text.utf8Length p) :: partOffsets (offset + Text.utf8Length p) ps

/-- What is left of a text at the beginning of each of its parts but the first. -/
def partSuffixes : List (List Char) → List (List Char)
  | [] => []
  | _ :: ps => if ps.isEmpty then [] else ps.flatten :: partSuffixes ps

/-- The byte offsets of the places outside quotes and brackets that pass a test, ascending. -/
def offsets (test : PlaceTest) (s : List Char) : List Nat :=
  partOffsets 0 (parts test s)

/-- A line cut at the first place outside quotes and brackets that passes a test. -/
def firstCut? (test : PlaceTest) (s : List Char) : Option (List Char × List Char) :=
  match parts test s with
  | p :: q :: ps => some (p, (q :: ps).flatten)
  | _ => none

/-- Passes where the given character stands. -/
def standsAt (c : Char) : PlaceTest :=
  fun _ rest => rest.head? == some c

/-- A line cut at every separator outside quotes and brackets, which is dropped. -/
def segments (sep : Char) (s : List Char) : List (List Char) :=
  match parts (standsAt sep) s with
  | [] => []
  | p :: ps => p :: ps.map (·.drop 1)

/-- The segments of a line, trimmed, the blank ones dropped. -/
def splitTop (sep : Char) (s : List Char) : List (List Char) :=
  ((segments sep s).map Text.trim).filter (!·.isEmpty)

/-- A line cut at the first place outside quotes and brackets with the given character, which is
dropped. -/
def cutAtTop? (c : Char) (s : List Char) : Option (List Char × List Char) :=
  (firstCut? (standsAt c) s).map fun (x, y) => (x, y.drop 1)

/-- The byte offset of the first place outside quotes and brackets with the given character. -/
def findTop? (c : Char) (s : List Char) : Option Nat :=
  (offsets (standsAt c) s).head?

/-- A line that starts with an opening bracket, cut at the partner of that bracket. -/
def cutAtPartner? (s : List Char) : Option (List Char × List Char) :=
  Nesting.start.cutAtPartner? s

/-- Walks to a byte offset; from an unquoted opening bracket there, the offset of its partner. -/
def Nesting.partnerOffset? (offset : Nat) : Nesting → Nat → List Char → Option Nat
  | _, _, [] => none
  | n, here, c :: s =>
    if here == offset then
      (n.cutAtPartner? (c :: s)).map fun (x, _) => here + c.utf8Size + Text.utf8Length x
    else partnerOffset? offset (n.next c) (here + c.utf8Size) s

/-- The byte offset of the bracket that closes the unquoted opening bracket at a byte offset. -/
def partnerOffset? (s : List Char) (offset : Nat) : Option Nat :=
  Nesting.start.partnerOffset? offset 0 s

end SchemaLint
