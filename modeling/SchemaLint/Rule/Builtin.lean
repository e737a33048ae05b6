import SchemaLint.Rule.Table

/-!
# Built-in rules

The rules that a table starts with. Values of tables are judged as SQL literals, those of documents
as shell expressions; the rules for lines ask for conditions in statements that change rows and warn
of operations that are better written otherwise.
-/

namespace SchemaLint.RuleTable

/-- The built-in rules for SQL statements. -/
def sqlRules : ValueKind → List Rule
  | .string =>
    [{ id := "1"
       name := "String quoting"
       description := "String values must use single quotes"
       pattern := "^'.*'$"
       message := "should be wrapped in single quotes"
       severity := .error }]
  | .number =>
    [{ id := "2"
       name := "Unquoted number"
       description := "Numbers must not be quoted"
       pattern := r#"^[^'"](.*[^'"])?$"#
       message := "should not be wrapped in quotes"
       severity := .error },
     { id := "18"
       name := "Numeric literal"
       description := "Numbers must be plain integer or decimal literals"
       pattern := r"^-?\d+(\.\d+)?$"
       message := "should be a numeric literal"
       severity := .error }]
  | .date =>
    [{ id := "3"
       name := "Date format"
       description := "Dates must use the standard format"
       pattern := r"^'\d{4}-\d{2}-\d{2}( \d{2}:\d{2}:\d{2})?'$"
       message := "should use the 'YYYY-MM-DD HH:mm:ss' format in single quotes"
       severity := .error }]
  | .boolean =>
    [{ id := "4"
       name := "Boolean literal"
       description := "Booleans must be TRUE or FALSE"
       pattern := "(?i)^(TRUE|FALSE|0|1)$"
       message := "should be TRUE, FALSE, 0 or 1"
       severity := .error }]
  | .object => []
  | .array => []
  | .line =>
    [{ id := "5"
       name := "No SELECT *"
       description := "Avoid SELECT *"
       pattern := r"(?i)^(?!.*\bSELECT\s+\*\s+FROM\b).*$"
       message := "avoid SELECT *, list the columns you need"
       severity := .warning },
     { id := "6"
       name := "UPDATE requires WHERE"
       description := "UPDATE statements must include a WHERE clause"
       pattern := r"(?i)^(?!\s*UPDATE\b(?!.*\bWHERE\b)).*$"
       message := "UPDATE statement must have a WHERE clause"
       severity := .error },
     { id := "7"
       name := "DELETE requires WHERE"
       description := "DELETE statements must include a WHERE clause"
       pattern := r"(?i)^(?!\s*DELETE\s+FROM\b(?!.*\bWHERE\b)).*$"
       message := "DELETE statement must have a WHERE clause"
       severity := .error },
     { id := "8"
       name := "Explicit JOIN"
       description := "Joins should be written explicitly"
       pattern := r"(?i)^(?!.*\bFROM\s+\w+\s*,\s*\w+).*$"
       message := "use explicit JOIN syntax instead of an implicit join"
       severity := .warning }]

/-- The built-in rules for calls of collection methods. -/
def shellRules : ValueKind → List Rule
  | .string =>
    [{ id := "9"
       name := "String quoting"
       description := "String values must be quoted; ObjectId fields may use ObjectId()"
       pattern := r#"^(['"])(.*?)\1$|^ObjectId\(.*\)$"#
       message := "should be wrapped in single or double quotes or written as ObjectId()"
       severity := .error }]
  | .number =>
    [{ id := "10"
       name := "Unquoted number"
       description := "Numbers must not be quoted"
       pattern := r#"^[^'"](.*[^'"])?$"#
       message := "should not be wrapped in quotes"
       severity := .error },
     { id := "19"
       name := "Numeric literal"
       description := "Numbers must be numeric literals or number constructors"
       pattern := r"^(-?\d+(\.\d+)?|Number(Int|Long|Decimal)\(.*\))$"
       message := "should be a number or NumberInt/NumberLong/NumberDecimal"
       severity := .error }]
  | .date =>
    [{ id := "11"
       name := "Date constructor"
       description := "Dates must use a date constructor"
       pattern := r"^(ISODate|new Date)\(.*\)$"
       message := "should use ISODate() or new Date()"
       severity := .error },
     { id := "12"
       name := "ISO date string"
       description := "ISODate arguments should use the ISO format"
       pattern := r#"^(?!ISODate\().*$|^ISODate\("\d{4}-\d{2}-\d{2}T\d{2}:\d{2}:\d{2}(\.\d{3})?Z"\)$"#
       message := r#"should use an ISO date string such as "YYYY-MM-DDTHH:MM:SS.MMMZ""#
       severity := .warning }]
  | .boolean =>
    [{ id := "13"
       name := "Boolean literal"
       description := "Booleans must be true or false"
       pattern := "^(true|false)$"
       message := "should be true or false"
       severity := .error }]
  | .object => []
  | .array => []
  | .line =>
    [{ id := "14"
       name := "No $where"
       description := "Avoid the $where operator"
       pattern := r"^(?!.*\$where).*$"
       message := "$where is deprecated, use $expr instead"
       severity := .warning },
     { id := "15"
       name := "No remove()"
       description := "Avoid the deprecated remove method"
       pattern := r"^(?!.*\.remove\().*$"
       message := "remove() is deprecated, use deleteOne() or deleteMany()"
       severity := .error },
     { id := "16"
       name := "No update()"
       description := "Avoid the deprecated update method"
       pattern := r"^(?!.*\.update\().*$"
       message := "update() is deprecated, use updateOne() or updateMany()"
       severity := .error },
     { id := "17"
       name := "Text index"
       description := "Queries should use indexes"
       pattern := "^(?!.*\\.find\\(\\\x7b\\s*\\$text).*$"
       message := "text search should be backed by a text index"
       severity := .warning }]

/-- The built-in table, with a bucket for every kind. -/
def builtin : RuleTable :=
  { bucket? := fun
      | .mysql, k => some (sqlRules k)
      | .mongodb, k => some (shellRules k) }

end SchemaLint.RuleTable
