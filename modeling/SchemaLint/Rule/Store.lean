import SchemaLint.Rule.Builtin
import SchemaLint.Rule.Document
import SchemaLint.Store.Document

/-!
# Stored rules

A table of rules is kept as its document under one key and is edited a rule at a time. The first use
of a backend puts the built-in rules there.
-/

namespace SchemaLint

/-- A change of a table of rules. -/
inductive RuleEdit where
  /-- Takes the built-in rules in place of all others. -/
  | reset
  | add (d : Dialect) (k : ValueKind) (rule : Rule)
  /-- Puts a rule in place of the one of its id. -/
  | update (d : Dialect) (k : ValueKind) (rule : Rule)
  | remove (d : Dialect) (k : ValueKind) (id : String)
  deriving DecidableEq, Repr

/-- Why a step on stored rules fails. -/
abbrev RuleFault := StoreFault RuleError RuleEditError

/-- What is said of a step that fails. -/
def RuleFault.message (e : RuleFault) : String :=
  StoreFault.message RuleError.message RuleEditError.message e

namespace RuleTable

/-- How a table of rules is kept. -/
def format : DocumentFormat RuleTable RuleError :=
  { key := "validationRules", initial := empty, write := toDocument, read := ofDocument }

/-- The table after an edit. -/
def edit (t : RuleTable) : RuleEdit → Except RuleEditError RuleTable
  | .reset => .ok builtin
  | .add d k rule => t.add d k rule
  | .update d k rule => t.replace d k rule
  | .remove d k id => t.remove d k id

/-- The rules that a backend holds, the built-in ones being saved if it holds none. -/
def openStore {m : Type → Type} [Monad m] (b : Backend m) : m (Except RuleFault RuleTable) := do
  match ← b.load format.key with
  | .error e => return .error (.backend e)
  | .ok none => valueAfter (format.commit b builtin) empty
  | .ok (some document) => return (ofDocument document).mapError .document

end RuleTable

end SchemaLint
