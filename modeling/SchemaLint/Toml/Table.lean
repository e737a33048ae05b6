import SchemaLint.Toml.Value

/-!
# Tables

A document puts its tables together line by line. A key is defined once. A dotted key leads only
through tables that such keys or deeper headers made, and ends in one that dotted keys made; a
header leads through any table but one in braces, and through the last of the tables of a header in
double brackets. A table gets its own header at most once.
-/

namespace SchemaLint.Toml

namespace Entries

/-- The value of a key. -/
def get? (es : Entries) (key : String) : Option Value :=
  es.lookup key

/-- Gives a key a value in place of the one that it has. -/
def put (es : Entries) (key : String) (v : Value) : Entries :=
  es.filter (·.1 != key) ++ [(key, v)]

/-- Changes the last of several tables. -/
def changeLast (change : Entries → Option Entries) : List Entries → Option (List Entries)
  | [] => none
  | [es] => (change es).map ([·])
  | es :: ts => (changeLast change ts).map (es :: ·)

/-- Gives a key that has no value one. -/
def define (es : Entries) (key : String) (v : Value) : Option Entries :=
  if (es.get? key).isSome then none else some (es.put key v)

/-- Gives a dotted key a value, `path` being the keys before its last one. -/
def defineAt (es : Entries) (path : List String) (key : String) (v : Value) : Option Entries :=
  match path with
  | [] => es.define key v
  | next :: rest => do
    let inner (within : Entries) := defineAt within rest key v
    match es.get? next with
    | none => return es.put next (.table .dotted (← inner []))
    | some (.table .dotted within) => return es.put next (.table .dotted (← inner within))
    | some (.table .implied within) =>
      if rest.isEmpty then none else return es.put next (.table .implied (← inner within))
    | some (.tables ts) =>
      if rest.isEmpty then none else return es.put next (.tables (← changeLast inner ts))
    | some _ => none

/-- Changes what the path of a header leads to. -/
def changeAt (es : Entries) (path : List String) (change : Option Value → Option Value) :
    Option Entries :=
  match path with
  | [] => none
  | [key] => (change (es.get? key)).map (es.put key)
  | next :: rest => do
    let inner (within : Entries) := changeAt within rest change
    match es.get? next with
    | none => return es.put next (.table .implied (← inner []))
    | some (.table .inline _) => none
    | some (.table origin within) => return es.put next (.table origin (← inner within))
    | some (.tables ts) => return es.put next (.tables (← changeLast inner ts))
    | some _ => none

end Entries

/-- A key with its value, which may be dotted. -/
structure Pair where
  /-- The keys before the last one. -/
  path : List String
  key : String
  value : Value

/-- Defines keys one after the other. -/
def Entries.defineAll (es : Entries) (pairs : List Pair) : Option Entries :=
  pairs.foldlM (fun es p => es.defineAt p.path p.key p.value) es

/-- A header and the keys below it. -/
structure Section where
  path : List String
  /-- Whether the header stands in double brackets. -/
  isRepeated : Bool
  pairs : List Pair

/-- What a section makes of the value that is at its header. -/
def Section.extend (s : Section) : Option Value → Option Value
  | none => do
    let es ← Entries.defineAll [] s.pairs
    return if s.isRepeated then .tables [es] else .table .header es
  | some (.table .implied es) =>
    if s.isRepeated then none else (Entries.defineAll es s.pairs).map (.table .header)
  | some (.tables ts) =>
    if s.isRepeated then (Entries.defineAll [] s.pairs).map fun es => .tables (ts ++ [es]) else none
  | some _ => none

/-- The table that the first keys of a document and its sections make. -/
def Entries.ofSections (first : List Pair) (sections : List Section) : Option Entries := do
  sections.foldlM (fun es s => es.changeAt s.path s.extend) (← Entries.defineAll [] first)

end SchemaLint.Toml
