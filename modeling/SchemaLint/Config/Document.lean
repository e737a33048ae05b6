import SchemaLint.Config
import SchemaLint.Toml.Reader
import SchemaLint.Toml.Writer

/-!
# Configuration documents

A configuration is kept as a TOML document with a table for each group of settings. What is not set
has its default and what is not known does not count. The settings of a group may also be written as
an array in their order.
-/

namespace SchemaLint

namespace Toml.Value

/-- The values of the given keys of a group of settings, which may be written as an array in the
order of the keys; a time is a group that sets nothing. -/
def settings? (keys : List String) (v : Value) : Option (List (Option Value)) :=
  match v with
  | table _ es => some (keys.map (Entries.get? es))
  | time => some (keys.map fun _ => none)
  | v => v.items?.map fun vs => (List.range keys.length).map (vs[·]?)

/-- Tells whether a value is an array or a table without anything in it. -/
def isEmpty : Value → Bool
  | array vs => vs.isEmpty
  | table _ es => es.isEmpty
  | _ => false

end Toml.Value

namespace Config

open Toml

/-- The value of a setting, which must be of its type where it is set. -/
def setting? {α : Type} (read? : Value → Option α) (default : α) : Option Value → Option α
  | none => some default
  | some v => read? v

/-- The settings of a group that may be missing. -/
def group? (es : Entries) (name : String) (keys : List String) : Option (List (Option Value)) :=
  match es.get? name with
  | none => some (keys.map fun _ => none)
  | some v => v.settings? keys

/-- The dialect that a value means: its name, or a table with an empty entry of that name. -/
def dialect? : Value → Option Dialect
  | .string name => Dialect.ofName? name
  | .table _ [(name, v)] => if v.isEmpty then Dialect.ofName? name else none
  | _ => none

/-- The configuration that a document holds. -/
def ofDocument? (root document : String) : Option Config := do
  let es ← Toml.read? document
  let base := default root
  let dialect ← setting? dialect? base.dialect (es.get? "default_dialect")
  match ← group? es "store" ["dir"], ← group? es "inheritance" ["max_depth", "search_dirs", "prompt"],
      ← group? es "validation" ["structural_checks"] with
  | [dir], [depth, dirs, prompt], [checks] =>
    let storeDirectory ← setting? Value.string? base.storeDirectory dir
    let maxDepth ← setting? Value.nat? base.maxDepth depth
    let searchDirectories ←
      setting? (fun v => v.items? >>= List.mapM Value.string?) base.searchDirectories dirs
    let prompts ← setting? Value.boolean? base.prompts prompt
    let structuralChecks ← setting? Value.boolean? base.structuralChecks checks
    return { dialect, storeDirectory, maxDepth, searchDirectories, prompts, structuralChecks, root }
  | _, _, _ => none

/-- The document that holds a configuration. -/
def toDocument (c : Config) : String :=
  "default_dialect = " ++ writeString c.dialect.name ++
  "\n\n[store]\ndir = " ++ writeString c.storeDirectory ++
  "\n\n[inheritance]\nmax_depth = " ++ toString c.maxDepth ++
  "\nsearch_dirs = " ++ writeStrings c.searchDirectories ++
  "\nprompt = " ++ writeBool c.prompts ++
  "\n\n[validation]\nstructural_checks = " ++ writeBool c.structuralChecks ++ "\n"

end Config

end SchemaLint
