import SchemaLint.Dialect
import SchemaLint.Shell.Footprint
import SchemaLint.Shell.Shape
import SchemaLint.Sql.Footprint
import SchemaLint.Sql.Shape

/-!
# Lines of a script

What the statement on a line touches and what its shape lacks, in the dialect of its script.
-/

namespace SchemaLint

/-- What the statement on a line touches. -/
def footprint (dialect : Dialect) (line : List Char) : Footprint :=
  match dialect with
  | .mysql => Sql.footprint line
  | .mongodb => Shell.footprint line

/-- What the shape of the statement on a line lacks. -/
def shapeProblems (dialect : Dialect) (line : List Char) : List ShapeProblem :=
  match dialect with
  | .mysql => Sql.shapeProblems (statementOf line)
  | .mongodb => Shell.shapeProblems (statementOf line)

end SchemaLint
