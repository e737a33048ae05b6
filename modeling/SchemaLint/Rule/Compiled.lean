import SchemaLint.Pattern
import SchemaLint.Rule.Table

/-!
# Compiled rules

The rules of one dialect with their patterns compiled. A rule whose pattern is none is left out and
listed; the others of its bucket stay in their order. A value is told by the first rule of its kind
that it fails, a line by all that it fails.
-/

namespace SchemaLint

/-- A rule with its pattern compiled. -/
structure CompiledRule where
  rule : Rule
  pattern : Pattern

/-- Tells whether a rule lets a text pass. -/
def CompiledRule.accepts (r : CompiledRule) (text : String) : Bool :=
  r.pattern.accepts text.toList

/-- Compiles a rule. -/
def Rule.compile? (r : Rule) : Option CompiledRule :=
  (Pattern.compile? r.pattern).map fun pattern => { rule := r, pattern }

/-- The rules of a dialect, ready to judge. -/
structure CompiledRules where
  buckets : List (ValueKind × List CompiledRule)
  /-- The rules left out, with their kinds, in order. -/
  skipped : List (ValueKind × String)

namespace CompiledRules

/-- Compiles the rules of a dialect. -/
def ofTable (t : RuleTable) (d : Dialect) : CompiledRules :=
  { buckets := (t.buckets d).map fun (k, rules) => (k, rules.filterMap Rule.compile?)
    skipped := (t.buckets d).flatMap fun (k, rules) =>
      (rules.filter fun r => (Pattern.compile? r.pattern).isNone).map fun r => (k, r.id) }

/-- The compiled rules of a kind. -/
def bucket (rs : CompiledRules) (k : ValueKind) : List CompiledRule :=
  ((rs.buckets.find? (·.1 == k)).map (·.2)).getD []

/-- The first rule that a value of a kind fails. -/
def firstFailure? (rs : CompiledRules) (k : ValueKind) (value : String) : Option Rule :=
  ((rs.bucket k).find? fun r => !r.accepts value).map (·.rule)

/-- The rules for lines that a line fails. -/
def lineFailures (rs : CompiledRules) (line : String) : List Rule :=
  ((rs.bucket .line).filter fun r => !r.accepts line).map (·.rule)

end CompiledRules

end SchemaLint
