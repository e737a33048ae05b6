import SchemaLint.Form
import SchemaLint.Unicode.Word

/-!
# Declarations in class sources

A declaration is read where it stands, whatever is around it. A class declaration is the word
`class` with a name, arguments up to the first closing angle bracket, and the class it extends. A
field declaration has a visibility, modifiers, a type and one name, and ends with a semicolon.
-/

namespace SchemaLint.ClassSource

open Form

/-- The declaration of a class. -/
structure ClassDeclaration where
  name : List Char
  /-- The class that it extends, as written. -/
  parent : Option (List Char)
  deriving DecidableEq, Repr

/-- The declaration of a field. -/
structure FieldDeclaration where
  modifiers : List (List Char)
  type : List Char
  name : List Char
  deriving DecidableEq, Repr

/-- Reads a word that does not continue the word before it. -/
def freshWord (words : List String) (before : Option Char) : Form (List Char) :=
  if before.any Unicode.isWord then oneOf [] else oneOf (words.map fun w => exact w.toList)

/-- Reads blanks. -/
def space : Form (List Char) :=
  span Text.isBlank

/-- Reads one or more blanks. -/
def space1 : Form (List Char) :=
  span1 Text.isBlank

/-- Reads a name. -/
def identifier : Form (List Char) :=
  span1 Unicode.isWord

/-- Reads a name that may have dots. -/
def dottedName : Form (List Char) :=
  span1 fun c => Unicode.isWord c || c == '.'

/-- Reads the arguments of a class up to the first closing angle bracket, before any brace. -/
def classArguments : Form (List Char) :=
  space ++ exact ['<'] ++ span (fun c => !(c == '>' || c == '\x7b')) ++ exact ['>']

/-- Reads what a class extends. -/
def extended : Form (Option (List Char)) := do
  let _ ← space1 ++ exact "extends".toList ++ space1
  return some (← dottedName)

/-- Reads the declaration of a class. -/
def classDeclaration (before : Option Char) : Form ClassDeclaration := do
  let _ ← freshWord ["class"] before ++ space1
  let name ← identifier
  let _ ← opt classArguments
  let parent ← oneOf [extended, Form.pure none]
  return { name, parent }

/-- Reads a modifier of a field and the blanks after it. -/
def modifier : Form (List Char) :=
  oneOf (["static", "final", "transient", "volatile"].map fun w => exact w.toList) ++ space1

/-- Characters that may stand between the angle brackets of a type. -/
def isArgumentChar (c : Char) : Bool :=
  !(c == ';' || c == '=' || c == '(' || c == ')' || c == '\x7b' || c == '\x7d')

/-- Reads the arguments of a type, up to the last closing angle bracket preferred. -/
def typeArguments : Form (List Char) :=
  space ++ exact ['<'] ++ run isArgumentChar ++ exact ['>']

/-- Reads a pair of brackets after a type. -/
def brackets : Form (List Char) :=
  space ++ exact ['['] ++ space ++ exact [']']

/-- Reads a type. -/
def typeName : Form (List Char) :=
  dottedName ++ opt typeArguments ++ star brackets

/-- Reads the value that a field starts with. -/
def initializer : Form (List Char) :=
  exact ['='] ++ span (· != ';')

/-- Reads the declaration of a field. -/
def fieldDeclaration (before : Option Char) : Form FieldDeclaration := do
  let _ ← freshWord ["public", "protected", "private"] before ++ space1
  let modifiers ← star modifier
  let type ← typeName
  let _ ← space1
  let name ← identifier
  let _ ← space ++ opt initializer ++ exact [';']
  return { modifiers := Text.words modifiers, type, name }

end SchemaLint.ClassSource
