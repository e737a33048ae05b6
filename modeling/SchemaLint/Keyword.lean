import SchemaLint.Nesting
import SchemaLint.Text.Ascii

/-!
# Keywords outside quotes and brackets

A keyword stands at a place outside quotes and brackets where its letters follow in any ASCII case
and neither neighbour continues an identifier. Cutting a line at a keyword gives the text before it
and the text after it, the keyword itself dropped.
-/

namespace SchemaLint

/-- Passes where a keyword stands as a whole word. -/
def isKeywordAt (keyword : String) : PlaceTest :=
  fun before rest =>
    Text.startsIgnoringCase keyword.toList rest &&
      !before.any Text.isIdentChar && !(rest.drop keyword.length).head?.any Text.isIdentChar

/-- The byte offsets of a keyword on a line, ascending. -/
def keywordOffsets (keyword : String) (s : List Char) : List Nat :=
  offsets (isKeywordAt keyword) s

/-- A line cut at the first occurrence of a keyword: what is before it and what is after it. -/
def cutAtKeyword? (keyword : String) (s : List Char) : Option (List Char × List Char) :=
  (firstCut? (isKeywordAt keyword) s).map fun (x, y) => (x, y.drop keyword.length)

/-- Tells whether a keyword stands on a line. -/
def hasKeyword (keyword : String) (s : List Char) : Bool :=
  (firstCut? (isKeywordAt keyword) s).isSome

end SchemaLint
