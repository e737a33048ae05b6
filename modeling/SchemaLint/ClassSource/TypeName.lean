import SchemaLint.Text.Blank

/-!
# Types of the fields of classes

The type under which a field of a class is stored follows from the name of its own type. Arrays and
the usual containers are told by their names, arguments in angle brackets do not count, other types
of the standard packages keep their names, and all else is an embedded document.
-/

namespace SchemaLint.ClassSource

/-- What the packages of standard types begin with. -/
def standardPackages : List String :=
  ["java.", "javax.", "sun.", "com.sun.", "org.w3c.", "org.xml."]

/-- The stored types of the types that are known by name. -/
def knownTypes : List (String × List String) :=
  [("String", ["String", "Character", "char", "UUID"]),
   ("Integer", ["Integer", "int", "Byte", "byte", "Short", "short"]),
   ("Long", ["Long", "long"]),
   ("Double", ["Double", "double"]),
   ("Float", ["Float", "float"]),
   ("Boolean", ["Boolean", "boolean"]),
   ("Decimal128", ["BigDecimal"]),
   ("Date", ["Date", "LocalDate", "LocalDateTime", "Calendar"]),
   ("Array", ["List", "ArrayList", "LinkedList", "Set", "HashSet", "TreeSet"]),
   ("Object", ["Map", "HashMap", "TreeMap"])]

/-- The name of a type without its arguments. -/
def baseType (type : List Char) : List Char :=
  Text.trim ((Text.trim type).takeWhile (· != '<'))

/-- The type under which a field is stored. -/
def storedType (type : List Char) : String :=
  if ("[]".toList).isSuffixOf (Text.trim type) then "Array"
  else
    let base := String.ofList (baseType type)
    match knownTypes.find? fun (_, names) => names.contains base with
    | some (stored, _) => stored
    | none =>
      if standardPackages.any fun p => p.toList.isPrefixOf base.toList then base else "Object"

end SchemaLint.ClassSource
