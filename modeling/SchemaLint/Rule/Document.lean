import SchemaLint.Json.Reader
import SchemaLint.Json.Record
import SchemaLint.Json.Writer
import SchemaLint.Rule.Table

/-!
# Rule documents

A table of rules is kept as an object with a section for each dialect, each an object with the
buckets that are present. Reading is strict: both sections must be there, every bucket must be of a
known kind and hold rules, and no bucket may hold an id twice. A rule may lack its description.
-/

namespace SchemaLint

/-- Why a rule document cannot be read. -/
inductive RuleError where
  /-- The document is no JSON. -/
  | notJson
  /-- The document is no object. -/
  | notAnObject
  | missingDialect (d : Dialect)
  /-- A section, a bucket or a rule is not as it should be. -/
  | malformed
  | duplicateId (id : String) (d : Dialect) (k : ValueKind)
  deriving DecidableEq, Repr

/-- What is said of a document that cannot be read. -/
def RuleError.message : RuleError → String
  | notJson => "Invalid rule document: not a JSON document"
  | notAnObject => "Invalid rule document: top level must be an object"
  | missingDialect d => "Invalid rule document: missing '" ++ d.name ++ "' section"
  | malformed => "Invalid rule document: malformed section"
  | duplicateId id d k =>
    "Invalid rule document: duplicate rule id '" ++ id ++ "' in " ++ d.name ++ "/" ++ k.name

namespace Rule

/-- The keys of a rule in a document. -/
def keys : List String :=
  ["id", "name", "description", "pattern", "message", "severity"]

/-- A rule in a document. -/
def toJson (r : Rule) : Json.Value :=
  .ofMembers (keys.zip [.ofString r.id, .ofString r.name, .ofString r.description,
    .ofString r.pattern, .ofString r.message, .ofString r.severity.name])

/-- The rule that a value means. -/
def ofJson? (v : Json.Value) : Option Rule := do
  match ← v.record? keys with
  | [some id, some name, description, some pattern, some message, some severity] =>
    return {
      id := ← id.string?
      name := ← name.string?
      description := ← description.elim (some "") (·.string?)
      pattern := ← pattern.string?
      message := ← message.string?
      severity := ← severity.name?.bind Severity.ofName? }
  | _ => none

end Rule

namespace RuleTable

/-- The section of a dialect in a document. -/
def sectionJson (t : RuleTable) (d : Dialect) : Json.Value :=
  .ofMembers ((t.buckets d).map fun (k, rules) => (k.name, .array (rules.map Rule.toJson)))

/-- The document that holds a table. -/
def toDocument (t : RuleTable) : String :=
  Json.write (.ofMembers (Dialect.all.map fun d => (d.name, t.sectionJson d)))

/-- The bucket that a member of a section means. -/
def bucketOfJson? : Json.Text × Json.Value → Option (ValueKind × List Rule)
  | (some name, v) => do
    let k ← ValueKind.ofName? name
    let rules ← (← v.items?).mapM Rule.ofJson?
    return (k, rules)
  | (none, _) => none

/-- The buckets that a section means. -/
def sectionOfJson? (v : Json.Value) : Option (List (ValueKind × List Rule)) :=
  v.members?.bind fun members => members.mapM bucketOfJson?

/-- The table with the buckets of two sections. -/
def ofSections (sections : Dialect → List (ValueKind × List Rule)) : RuleTable :=
  { bucket? := fun d k => ((sections d).find? (·.1 == k)).map (·.2) }

/-- The first id that stands for a second rule. -/
def firstRepeated? (seen : List String) : List Rule → Option String
  | [] => none
  | r :: rules => if seen.contains r.id then some r.id else firstRepeated? (r.id :: seen) rules

/-- The first bucket that holds an id twice, with the id. -/
def repeated? (t : RuleTable) : Option RuleError :=
  Dialect.all.findSome? fun d => (t.buckets d).findSome? fun (k, rules) =>
    (firstRepeated? [] rules).map fun id => .duplicateId id d k

/-- The table that two sections of a document mean. -/
def ofValues (mysql mongodb : Json.Value) : Except RuleError RuleTable :=
  match sectionOfJson? mysql, sectionOfJson? mongodb with
  | some sql, some shell =>
    let t := ofSections fun
      | .mysql => sql
      | .mongodb => shell
    match t.repeated? with
    | some e => .error e
    | none => .ok t
  | _, _ => .error .malformed

/-- The table that a document holds. -/
def ofDocument (document : String) : Except RuleError RuleTable :=
  match Json.readDocument? document with
  | none => .error .notJson
  | some v =>
    if v.members?.isNone then .error .notAnObject
    else
      match v.get? Dialect.mysql.name, v.get? Dialect.mongodb.name with
      | none, _ => .error (.missingDialect .mysql)
      | _, none => .error (.missingDialect .mongodb)
      | some mysql, some mongodb => ofValues mysql mongodb

end RuleTable

end SchemaLint
