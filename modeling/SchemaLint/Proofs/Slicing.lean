import SchemaLint.Proofs.Slicing.Shell
import SchemaLint.Proofs.Slicing.Sql
import SchemaLint.Script

/-!
# No slice of a line is out of range

A line may be read by byte offsets: the places of its separators, brackets and keywords are noted by
their offsets, and everything between them is a slice. The reader of this module does so from the line
to what its statement touches and to the problems of its shape, in both dialects. Only what a form of a
statement reads is given to it as texts. Where a slice might be none by design, which is at the end of a
text that is too short for a keyword, the reader asks for that; everywhere else a slice that is none
makes the whole answer none.

No answer is none, for any line (`slices_in_range`). The offsets are those of places between
characters, the word at a place is as long as its keyword, separators and brackets take one byte, and a
group or array is cut between its brackets only when the last byte of the text is the partner of the
first.
-/

namespace SchemaLint.Slicing

open Text

def footprint? (dialect : Dialect) (line : List Char) : Option Footprint :=
  match dialect with
  | .mysql => Sql.footprint? line
  | .mongodb => Shell.footprint? line

def shapeProblems? (dialect : Dialect) (line : List Char) : Option (List ShapeProblem) := do
  let statement ← statementOf? line
  match dialect with
  | .mysql => Sql.shapeProblems? statement
  | .mongodb => Shell.shapeProblems? statement

theorem footprint?_eq (dialect : Dialect) (line : List Char) :
    footprint? dialect line = some (footprint dialect line) := by
  cases dialect with
  | mysql => exact Sql.footprint?_eq line
  | mongodb => exact Shell.footprint?_eq line

theorem shapeProblems?_eq (dialect : Dialect) (line : List Char) :
    shapeProblems? dialect line = some (shapeProblems dialect line) := by
  rw [shapeProblems?, statementOf?_eq, Option.bind_eq_bind, Option.bind_some]
  cases dialect with
  | mysql => exact Sql.shapeProblems?_eq (statementOf line)
  | mongodb => exact Shell.shapeProblems?_eq (statementOf line)

/-- A slice is none when it starts behind its end, when its end is behind the end of the text, and when
a bound is inside of a character. None of the slices is that the statement of a line, the pieces of a
text, the offsets of a keyword, a text without its quotes, what a line touches and what its shape lacks
are read from: each reader gives for every text what the text holds. -/
theorem slices_in_range :
    (∀ s i j, slice? s i j = none ↔
      j < i ∨ utf8Length s < j ∨ InsideChar s i ∨ InsideChar s j) ∧
    (∀ line, statementOf? line = some (statementOf line)) ∧
    (∀ sep s, splitTop? sep s = some (splitTop sep s)) ∧
    (∀ keyword s, keywordOffsets? keyword s = some (keywordOffsets keyword s)) ∧
    (∀ raw, unquote? raw = some (Identifier.unquote raw)) ∧
    (∀ dialect line, footprint? dialect line = some (footprint dialect line)) ∧
    ∀ dialect line, shapeProblems? dialect line = some (shapeProblems dialect line) :=
  ⟨fun _ _ _ => slice?_eq_none_iff, statementOf?_eq, splitTop?_eq, keywordOffsets?_eq, unquote?_eq,
    footprint?_eq, shapeProblems?_eq⟩

end SchemaLint.Slicing
