/-!
# Blank characters

The blank characters are those with the Unicode property `White_Space`. Trimming drops them from
the ends of a text, `words` cuts a text at every run of them.
-/

namespace SchemaLint.Text

/-- Tells whether a character has the Unicode property `White_Space`. -/
def isBlank (c : Char) : Bool :=
  let n := c.toNat
  (0x09 ≤ n && n ≤ 0x0D) || n == 0x20 || n == 0x85 || n == 0xA0 || n == 0x1680 ||
    (0x2000 ≤ n && n ≤ 0x200A) || n == 0x2028 || n == 0x2029 || n == 0x202F || n == 0x205F ||
    n == 0x3000

/-- Drops the blanks at the start of a text. -/
def trimStart (s : List Char) : List Char :=
  s.dropWhile isBlank

/-- Drops the blanks at the end of a text. -/
def trimEnd (s : List Char) : List Char :=
  (s.reverse.dropWhile isBlank).reverse

/-- Drops the blanks at both ends of a text. -/
def trim (s : List Char) : List Char :=
  trimEnd (trimStart s)

/-- Puts a character in front of the first of several pieces. -/
def consHead (c : Char) : List (List Char) → List (List Char)
  | [] => [[c]]
  | p :: ps => (c :: p) :: ps

/-- Cuts a text at every character that passes `p`, which is dropped; a text always has a piece. -/
def pieces (p : Char → Bool) : List Char → List (List Char)
  | [] => [[]]
  | c :: s => if p c then [] :: pieces p s else consHead c (pieces p s)

/-- The runs of characters that are not blank. -/
def words (s : List Char) : List (List Char) :=
  (pieces isBlank s).filter (!·.isEmpty)

/-- The lines of a text; a line end closes a line, so a text that ends in one has no line after it. -/
def lines (s : List Char) : List (List Char) :=
  match pieces (· == '\n') s with
  | [] => []
  | ps => if ps.getLast? == some [] then ps.dropLast else ps

/-- The number of bytes a text takes in UTF-8. -/
def utf8Length : List Char → Nat
  | [] => 0
  | c :: s => c.utf8Size + utf8Length s

end SchemaLint.Text
