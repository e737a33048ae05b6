import SchemaLint.Dialect
import SchemaLint.Rule
import SchemaLint.ValueKind

/-!
# Tables of rules

Rules are kept in buckets, one for each dialect and kind of value; a bucket may be absent, which
differs from an empty one in documents only. Rules of a bucket apply in their order, and each id
stands for one rule of its bucket.
-/

namespace SchemaLint

/-- Rules by dialect and kind of value. -/
@[ext]
structure RuleTable where
  /-- The bucket of a kind, if there is one. -/
  bucket? : Dialect → ValueKind → Option (List Rule)

/-- Why a table of rules cannot be edited. -/
inductive RuleEditError where
  | duplicateId (id : String)
  | notFound (id : String)
  deriving DecidableEq, Repr

/-- What is said of an edit that fails. -/
def RuleEditError.message : RuleEditError → String
  | duplicateId id => "Rule id '" ++ id ++ "' already exists in this bucket"
  | notFound id => "Rule '" ++ id ++ "' not found"

namespace RuleTable

/-- The table without buckets. -/
def empty : RuleTable :=
  { bucket? := fun _ _ => none }

/-- The rules of a bucket. -/
def rules (t : RuleTable) (d : Dialect) (k : ValueKind) : List Rule :=
  (t.bucket? d k).getD []

/-- The buckets of a dialect, in the order of the kinds. -/
def buckets (t : RuleTable) (d : Dialect) : List (ValueKind × List Rule) :=
  ValueKind.all.filterMap fun k => (t.bucket? d k).map fun rules => (k, rules)

/-- The number of rules of all buckets. -/
def size (t : RuleTable) : Nat :=
  (Dialect.all.flatMap fun d => (t.buckets d).flatMap (·.2)).length

/-- Puts rules into a bucket in place of those there. -/
def put (t : RuleTable) (d : Dialect) (k : ValueKind) (rules : List Rule) : RuleTable :=
  { bucket? := fun d' k' => if d' = d ∧ k' = k then some rules else t.bucket? d' k' }

/-- Tells whether a bucket has a rule of an id. -/
def has (t : RuleTable) (d : Dialect) (k : ValueKind) (id : String) : Bool :=
  (t.rules d k).any (·.id == id)

/-- Adds a rule at the end of a bucket. -/
def add (t : RuleTable) (d : Dialect) (k : ValueKind) (r : Rule) : Except RuleEditError RuleTable :=
  if t.has d k r.id then .error (.duplicateId r.id) else .ok (t.put d k (t.rules d k ++ [r]))

/-- Replaces the rule of the same id. -/
def replace (t : RuleTable) (d : Dialect) (k : ValueKind) (r : Rule) :
    Except RuleEditError RuleTable :=
  if t.has d k r.id then
    .ok (t.put d k ((t.rules d k).map fun old => if old.id == r.id then r else old))
  else .error (.notFound r.id)

/-- Removes the rule of an id. -/
def remove (t : RuleTable) (d : Dialect) (k : ValueKind) (id : String) :
    Except RuleEditError RuleTable :=
  if t.has d k id then .ok (t.put d k ((t.rules d k).filter (·.id != id)))
  else .error (.notFound id)

/-- The rule of an id in a bucket. -/
def find? (t : RuleTable) (d : Dialect) (k : ValueKind) (id : String) : Option Rule :=
  (t.rules d k).find? (·.id == id)

end RuleTable

end SchemaLint
