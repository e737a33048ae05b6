/-!
# Problems with the shape of a statement

A statement of a known kind may lack a clause or an argument that it needs.
-/

namespace SchemaLint

/-- A clause with a list of columns after the word `BY`. -/
inductive ByClause where
  | group
  | order
  deriving DecidableEq, Repr

/-- The first word of a clause. -/
def ByClause.keyword : ByClause → String
  | group => "GROUP"
  | order => "ORDER"

/-- The name of a clause. -/
def ByClause.name : ByClause → String
  | group => "GROUP BY"
  | order => "ORDER BY"

/-- What a statement lacks. -/
inductive ShapeProblem where
  /-- An `INSERT` has no values. -/
  | insertWithoutValues
  /-- A `JOIN` has no condition. -/
  | joinWithoutCondition
  /-- A list of columns is empty. -/
  | missingByColumn (clause : ByClause)
  /-- A `HAVING` has no `GROUP BY` before it. -/
  | havingWithoutGroupBy
  /-- A call has arguments of another kind than its verb takes. -/
  | callArguments (verb expected : String)
  /-- What an update operator is applied to is no object. -/
  | operatorOperand (operator : String)
  deriving DecidableEq, Repr

/-- What is said of a problem. -/
def ShapeProblem.message : ShapeProblem → String
  | insertWithoutValues => "INSERT statement needs VALUES, SET or SELECT"
  | joinWithoutCondition => "JOIN needs an ON or USING condition"
  | missingByColumn clause => clause.name ++ " needs at least one column"
  | havingWithoutGroupBy => "HAVING must follow GROUP BY"
  | callArguments verb expected => verb ++ "() expects " ++ expected
  | operatorOperand operator => operator ++ " operand must be an object"

end SchemaLint
