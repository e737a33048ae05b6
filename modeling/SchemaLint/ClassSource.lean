import SchemaLint.ClassSource.Comment
import SchemaLint.ClassSource.Declaration
import SchemaLint.ClassSource.TypeName
import SchemaLint.Field
import SchemaLint.Identifier

/-!
# Class sources

What is taken from the source of a class: its name, its fields and the class that it extends. The
first class declared names the source; the fields of a source are those of all its classes, without
the static ones. A source without a class has no fields.
-/

namespace SchemaLint

/-- What is taken from a source. -/
structure ClassOutline where
  name : Option String
  fields : List Field
  /-- The class that it extends, without its package. -/
  parent : Option String
  deriving DecidableEq, Repr

namespace ClassSource

/-- The text of a source without comments. -/
def code (source : String) : List Char :=
  withoutComments .code source.toList

/-- The field that a declaration declares, unless it is static or its name cannot be a field's. -/
def FieldDeclaration.field? (d : FieldDeclaration) : Option Field :=
  if d.modifiers.contains "static".toList || d.name == "class".toList then none
  else some { name := String.ofList d.name, type := storedType d.type }

/-- The outline of a source. -/
def outline (source : String) : ClassOutline :=
  let code := code source
  match (Form.occurrences classDeclaration code).head? with
  | none => { name := none, fields := [], parent := none }
  | some d =>
    { name := some (String.ofList d.name)
      fields := Field.merge [] ((Form.occurrences fieldDeclaration code).filterMap (·.field?))
      parent := d.parent.map fun p => String.ofList (Identifier.unqualified p) }

/-- Tells whether a source declares a class of a name. -/
def declares (source name : String) : Bool :=
  (Form.occurrences classDeclaration (code source)).any fun d => d.name == name.toList

end ClassSource

end SchemaLint
