import SchemaLint.Shape
import SchemaLint.Shell.Call
import SchemaLint.Shell.Value

/-!
# The shape of a call of a collection method

The arguments must be of the kinds that the layout of the verb asks for, and each operator of an
update must be applied to an object. A line that is no known call has no problems of shape.
-/

namespace SchemaLint.Shell

/-- Tells whether an argument is an object. -/
def isObject (arg : List Char) : Bool :=
  (Value.ofText arg).isObject

/-- Tells whether an argument is an array. -/
def isArray (arg : List Char) : Bool :=
  match Value.ofText arg with
  | .array _ => true
  | _ => false

/-- Tells whether an argument is left out or is an object. -/
def isOptionalObject (arg : List Char) : Bool :=
  arg.isEmpty || isObject arg

/-- What the arguments of a layout are. -/
def Layout.expected : Layout → String
  | find => "a query object and an optional projection object"
  | query => "a query object"
  | count => "an optional query object"
  | update => "a query object and an update object"
  | replace => "a query object and a replacement object"
  | insertOne => "a document object"
  | insertMany => "an array of documents"

/-- Tells whether the arguments of a call are of the kinds that its layout asks for. -/
def Call.argumentsFit (c : Call) : Bool :=
  match c.layout with
  | .find => isOptionalObject (c.arg 0) && isOptionalObject (c.arg 1)
  | .query => isObject (c.arg 0)
  | .count => isOptionalObject (c.arg 0)
  | .update => isObject (c.arg 0) && (isObject (c.arg 1) || isArray (c.arg 1))
  | .replace => isObject (c.arg 0) && isObject (c.arg 1)
  | .insertOne => isObject (c.arg 0)
  | .insertMany => isArray (c.arg 0)

/-- The operators of an update that are not applied to an object. -/
def operandProblems (update : List Char) : List ShapeProblem :=
  (entries update).filterMap fun (operator, operand) =>
    if isOperator operator && !isObject operand then
      some (.operatorOperand (String.ofList operator))
    else none

/-- The problems with the shape of a call. -/
def Call.shapeProblems (c : Call) : List ShapeProblem :=
  (if c.argumentsFit then [] else [.callArguments c.verb c.layout.expected]) ++
    if c.layout = .update then operandProblems (c.arg 1) else []

/-- The problems with the shape of a statement. -/
def shapeProblems (statement : List Char) : List ShapeProblem :=
  ((Call.read? statement).map Call.shapeProblems).getD []

end SchemaLint.Shell
