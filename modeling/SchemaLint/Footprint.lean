/-!
# What a statement touches

Reading a statement yields mentions of fields in the order of the text: a field that is only named,
or a field together with a value written to it or compared with it. The footprint of a statement is
its target and what its mentions amount to: each field once, in the order of first mention, and all
values in order. Mentions of a nameless field count for nothing.
-/

namespace SchemaLint

/-- A field as a statement mentions it. -/
inductive Mention where
  /-- The field is named. -/
  | touch (field : String)
  /-- The field is named together with a value, given as written. -/
  | assign (field value : String)
  deriving DecidableEq, Repr

/-- The field that is mentioned. -/
def Mention.field : Mention → String
  | touch f => f
  | assign f _ => f

/-- The field with its value, for a mention that has one. -/
def Mention.value? : Mention → Option (String × String)
  | touch _ => none
  | assign f v => some (f, v)

/-- What one statement touches. -/
structure Footprint where
  /-- The table or collection; a line that is no known statement has none. -/
  target : Option String
  /-- The fields named, in the order of first mention, without repeats. -/
  fields : List String
  /-- The fields with the values to check, as written, in order. -/
  values : List (String × String)
  deriving DecidableEq, Repr

namespace Footprint

/-- The footprint of a line that is no known statement. -/
def unrecognized : Footprint :=
  { target := none, fields := [], values := [] }

/-- Adds a name that is not there yet. -/
def addField (fields : List String) (f : String) : List String :=
  if fields.contains f then fields else fields ++ [f]

/-- The footprint of a statement on `target` with the given mentions. -/
def ofMentions (target : String) (mentions : List Mention) : Footprint :=
  let named := mentions.filter (·.field != "")
  { target := some target
    fields := (named.map (·.field)).foldl addField []
    values := named.filterMap (·.value?) }

/-- Tells whether the line was no known statement. -/
def isUnrecognized (p : Footprint) : Bool :=
  p.target.isNone

end Footprint

end SchemaLint
