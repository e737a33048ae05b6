import SchemaLint.Rule

/-!
# Diagnostics

A diagnostic says what was found on a line. A line is valid when nothing was found on it.
-/

namespace SchemaLint

/-- What a finding is about. -/
inductive IssueCode where
  /-- The line is no known statement. -/
  | targetUnrecognized
  /-- The target is not in the schema. -/
  | targetUnknown
  /-- Fields are not in the schema. -/
  | fieldUnknown
  /-- A value fails a rule for the kind of its field. -/
  | typeMismatch
  /-- The line fails a rule for lines or a check of its structure. -/
  | syntaxViolation
  deriving DecidableEq, Repr

namespace IssueCode

/-- All codes. -/
def all : List IssueCode :=
  [targetUnrecognized, targetUnknown, fieldUnknown, typeMismatch, syntaxViolation]

/-- The name of a code. -/
def name : IssueCode → String
  | targetUnrecognized => "TARGET_UNRECOGNIZED"
  | targetUnknown => "TARGET_UNKNOWN"
  | fieldUnknown => "FIELD_UNKNOWN"
  | typeMismatch => "TYPE_MISMATCH"
  | syntaxViolation => "SYNTAX_VIOLATION"

/-- The code with exactly the given name. -/
def ofName? (s : String) : Option IssueCode :=
  all.find? (·.name == s)

end IssueCode

/-- A finding on a line. -/
structure Issue where
  code : IssueCode
  severity : Severity
  message : String
  /-- The rule that was failed, if it was a rule. -/
  ruleId : Option String
  deriving DecidableEq, Repr

namespace Issue

/-- A finding that comes from no rule. -/
def plain (code : IssueCode) (message : String) : Issue :=
  { code, severity := .error, message, ruleId := none }

/-- A rule that was failed, with what is said of it. -/
def ofRule (code : IssueCode) (r : Rule) (message : String) : Issue :=
  { code, severity := r.severity, message, ruleId := some r.id }

end Issue

/-- What was found on a line. -/
structure Diagnostic where
  /-- The place of the line among the lines that are not blank, from one on. -/
  lineNumber : Nat
  content : String
  target : Option String
  isValid : Bool
  issues : List Issue
  deriving DecidableEq, Repr

namespace Diagnostic

/-- The diagnostic of a line on which nothing was found so far. -/
def ofLine (lineNumber : Nat) (content : String) : Diagnostic :=
  { lineNumber, content, target := none, isValid := true, issues := [] }

/-- A diagnostic with the target of its line. -/
def withTarget (d : Diagnostic) (target : Option String) : Diagnostic :=
  { d with target }

/-- Records a finding; the line becomes invalid. -/
def push (d : Diagnostic) (i : Issue) : Diagnostic :=
  { d with isValid := false, issues := d.issues ++ [i] }

/-- Records findings one after the other. -/
def pushAll (d : Diagnostic) (is : List Issue) : Diagnostic :=
  is.foldl push d

section PushAll

variable (d : Diagnostic) (is : List Issue)

@[simp] theorem lineNumber_pushAll : (d.pushAll is).lineNumber = d.lineNumber := by
  induction is generalizing d with
  | nil => rfl
  | cons i is ih => exact ih (d.push i)

@[simp] theorem content_pushAll : (d.pushAll is).content = d.content := by
  induction is generalizing d with
  | nil => rfl
  | cons i is ih => exact ih (d.push i)

@[simp] theorem target_pushAll : (d.pushAll is).target = d.target := by
  induction is generalizing d with
  | nil => rfl
  | cons i is ih => exact ih (d.push i)

@[simp] theorem issues_pushAll : (d.pushAll is).issues = d.issues ++ is := by
  induction is generalizing d with
  | nil => exact (List.append_nil d.issues).symm
  | cons i is ih =>
    have hpush : (d.push i).issues = d.issues ++ [i] := rfl
    rw [List.append_cons, ← hpush]
    exact ih (d.push i)

end PushAll

/-- What was said of the line. -/
def messages (d : Diagnostic) : List String :=
  d.issues.map (·.message)

/-- The codes found on the line, in the order of all codes. -/
def codes (d : Diagnostic) : List IssueCode :=
  IssueCode.all.filter fun c => d.issues.any (·.code == c)

end Diagnostic

end SchemaLint
