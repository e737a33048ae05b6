import Mathlib.Data.List.Forall2
import SchemaLint.Proofs.Rule.Compiled
import SchemaLint.Proofs.Rule.Document
import SchemaLint.Proofs.Validator.Script

/-!
# Rules added to a table

A rule that is added to a bucket stands behind the others there. A value that failed a rule still
fails that rule first, and the new one is told only of values that failed none; a line still fails
all the rules for lines that it failed, and the new one behind them. So the findings of a script
under the larger table are those under the smaller with findings of the new rule put among them
(`added_rule_only_adds_findings`).
-/

namespace SchemaLint

variable {t t' : RuleTable} {d dialect : Dialect} {k kind : ValueKind} {r : Rule}

namespace RuleTable

theorem rules_of_add (h : t.add d k r = .ok t') :
    t'.rules dialect kind =
      t.rules dialect kind ++ if dialect = d ∧ kind = k then [r] else [] := by
  rw [add] at h
  split at h
  · cases h
  · cases h
    rw [rules_put]
    split
    · next hbucket => rw [hbucket.1, hbucket.2]
    · exact (List.append_nil _).symm

/-- The buckets of the other dialect are compiled as before. -/
theorem ofTable_of_add (h : t.add d k r = .ok t') (hdialect : dialect ≠ d) :
    CompiledRules.ofTable t' dialect = CompiledRules.ofTable t dialect := by
  have hbuckets : t'.buckets dialect = t.buckets dialect := by
    rw [add] at h
    split at h
    · cases h
    · cases h
      simp [buckets, put, hdialect]
  rw [CompiledRules.ofTable, CompiledRules.ofTable, hbuckets]

end RuleTable

/-! ## What compiled rules find -/

/-- Compiled rules find what others find, and besides at most that one rule is failed. -/
structure CompiledRules.ExtendedBy (r : Rule) (rs rs' : CompiledRules) : Prop where
  firstFailure? : ∀ kind value,
    rs'.firstFailure? kind value = rs.firstFailure? kind value ∨
      rs.firstFailure? kind value = none ∧ rs'.firstFailure? kind value = some r
  lineFailures : ∀ line,
    rs'.lineFailures line = rs.lineFailures line ∨ rs'.lineFailures line = rs.lineFailures line ++ [r]

theorem CompiledRules.extendedBy_of_add (h : t.add d k r = .ok t') (dialect : Dialect) :
    ExtendedBy r (ofTable t dialect) (ofTable t' dialect) := by
  constructor
  · intro kind value
    rw [firstFailure?_ofTable, firstFailure?_ofTable, RuleTable.rules_of_add h, List.find?_append]
    cases (t.rules dialect kind).find? (·.fails value) with
    | some q => exact .inl rfl
    | none =>
      rw [Option.none_or]
      split
      · rw [List.find?_singleton]
        cases r.fails value with
        | false => exact .inl rfl
        | true => exact .inr ⟨rfl, rfl⟩
      · exact .inl rfl
  · intro line
    rw [lineFailures_ofTable, lineFailures_ofTable, RuleTable.rules_of_add h, List.filter_append]
    split
    · rw [List.filter_singleton]
      cases r.fails line with
      | false => exact .inl (List.append_nil _)
      | true => exact .inr rfl
    · exact .inl (List.append_nil _)

/-! ## Findings -/

/-- Findings with others put among them, all of which name one rule. -/
def Issue.WithMoreOf (id : String) (before after : List Issue) : Prop :=
  before.Sublist after ∧ ∀ i ∈ after, i ∈ before ∨ i.ruleId = some id

namespace Issue.WithMoreOf

variable {id : String} {before after before' after' : List Issue}

theorem refl (id : String) (is : List Issue) : WithMoreOf id is is :=
  ⟨List.Sublist.refl is, fun _ hi => .inl hi⟩

theorem snoc {i : Issue} (hi : i.ruleId = some id) (is : List Issue) : WithMoreOf id is (is ++ [i]) := by
  refine ⟨List.sublist_append_left is [i], fun j hj => ?_⟩
  rcases List.mem_append.mp hj with hj | hj
  · exact .inl hj
  · rw [List.mem_singleton.mp hj]
    exact .inr hi

theorem append (h : WithMoreOf id before after) (h' : WithMoreOf id before' after') :
    WithMoreOf id (before ++ before') (after ++ after') := by
  refine ⟨h.1.append h'.1, fun i hi => ?_⟩
  rcases List.mem_append.mp hi with hi | hi
  · exact (h.2 i hi).imp_left (List.mem_append_left _)
  · exact (h'.2 i hi).imp_left (List.mem_append_right _)

/-- A check that still finds what it found, and else only failures of one rule. -/
theorem filterMap {α : Type} {f g : α → Option Issue}
    (h : ∀ a, g a = f a ∨ f a = none ∧ ∃ i, g a = some i ∧ i.ruleId = some id) (as : List α) :
    WithMoreOf id (as.filterMap f) (as.filterMap g) := by
  induction as with
  | nil => exact refl id []
  | cons a as ih =>
    rcases h a with hsame | ⟨hnone, i, hsome, hi⟩
    · cases hf : f a with
      | none => rwa [List.filterMap_cons_none hf, List.filterMap_cons_none (hsame.trans hf)]
      | some i =>
        rw [List.filterMap_cons_some hf, List.filterMap_cons_some (hsame.trans hf)]
        exact (refl id [i]).append ih
    · rw [List.filterMap_cons_none hnone, List.filterMap_cons_some hsome]
      exact (snoc hi []).append ih

end Issue.WithMoreOf

/-- A diagnostic of a line beside one of the same line on which more may be found, all of it
failures of one rule. -/
structure Diagnostic.WithMoreOf (id : String) (before after : Diagnostic) : Prop where
  lineNumber : after.lineNumber = before.lineNumber
  content : after.content = before.content
  target : after.target = before.target
  issues : Issue.WithMoreOf id before.issues after.issues
  isValid : after.isValid = true → before.isValid = true

namespace Validator

variable {v : Validator} {rs : CompiledRules}

theorem valueIssue?_of_extendedBy (h : v.rules.ExtendedBy r rs) (table : Table)
    (field value : String) :
    { v with rules := rs }.valueIssue? table field value = v.valueIssue? table field value ∨
      v.valueIssue? table field value = none ∧
        ∃ i, { v with rules := rs }.valueIssue? table field value = some i ∧
          i.ruleId = some r.id := by
  unfold valueIssue?
  dsimp only
  split
  · exact .inl rfl
  · cases table.find? field with
    | none => exact .inl rfl
    | some f =>
      simp only [Option.bind_eq_bind, Option.bind_some]
      cases ValueKind.ofType? f.type with
      | none => exact .inl rfl
      | some kind =>
        simp only [Option.bind_some]
        rcases h.firstFailure? kind value with hsame | ⟨hnone, hsome⟩
        · rw [hsame]
          exact .inl rfl
        · rw [hnone, hsome]
          exact .inr ⟨rfl, _, rfl, rfl⟩

theorem valueIssues_of_extendedBy (h : v.rules.ExtendedBy r rs) (table : Table) (p : Footprint) :
    Issue.WithMoreOf r.id (v.valueIssues table p) ({ v with rules := rs }.valueIssues table p) := by
  simp only [valueIssues]
  apply Issue.WithMoreOf.filterMap
  rintro ⟨field, value⟩
  exact valueIssue?_of_extendedBy h table field value

theorem lineIssues_of_extendedBy (h : v.rules.ExtendedBy r rs) (line : String) :
    Issue.WithMoreOf r.id (v.lineIssues line) ({ v with rules := rs }.lineIssues line) := by
  simp only [lineIssues]
  rcases h.lineFailures line with hsame | hmore
  · rw [hsame]
    exact .refl _ _
  · rw [hmore, List.map_append]
    exact .snoc rfl _

theorem issues_of_extendedBy (h : v.rules.ExtendedBy r rs) (line : String) (p : Footprint) :
    Issue.WithMoreOf r.id (v.issues line p) ({ v with rules := rs }.issues line p) := by
  simp only [issues]
  split
  · exact .refl _ _
  · split
    · exact .refl _ _
    · next table _ =>
      have hfields := Issue.WithMoreOf.refl r.id (v.fieldIssues table p)
      have hstructure := Issue.WithMoreOf.refl r.id (v.structureIssues line.toList)
      have hvalues := valueIssues_of_extendedBy h table p
      have hlines := lineIssues_of_extendedBy h line
      exact ((hfields.append hvalues).append hlines).append hstructure

theorem judge_of_extendedBy (h : v.rules.ExtendedBy r rs) (n : Nat) (line : List Char) :
    Diagnostic.WithMoreOf r.id (v.judge n line) ({ v with rules := rs }.judge n line) := by
  have hissues := issues_of_extendedBy h (String.ofList line) (footprint v.dialect line)
  refine ⟨?_, ?_, ?_, ?_, fun hvalid => ?_⟩
  · rw [judge, judge, Diagnostic.lineNumber_pushAll, Diagnostic.lineNumber_pushAll]
  · rw [judge, judge, Diagnostic.content_pushAll, Diagnostic.content_pushAll]
  · rw [target_judge, target_judge]
  · rw [issues_judge, issues_judge]
    exact hissues
  · -- What is a part of nothing is nothing.
    have hnone := (isFlagged_judge _ n line).mp hvalid
    rw [issues_judge] at hnone
    rw [hnone] at hissues
    refine (isFlagged_judge v n line).mpr ?_
    rw [issues_judge]
    exact List.sublist_nil.mp hissues.1

/-- A rule added to a table changes nothing for the other dialect. For its own dialect the
diagnostics of a script stay as many, of the same lines and targets. What was found on a line is
still found there, in the same order; all that is new is that the rule is failed. So no line becomes
valid. -/
theorem added_rule_only_adds_findings {table table' : RuleTable} {bucketDialect : Dialect}
    {kind : ValueKind} {rule : Rule} (hadd : table.add bucketDialect kind rule = .ok table')
    (dialect : Dialect) (schema : Schema) (checks : Bool) (script : String) :
    let before := (ofTable dialect schema table checks).validate script
    let after := (ofTable dialect schema table' checks).validate script
    (dialect ≠ bucketDialect → after = before) ∧
      (dialect = bucketDialect → List.Forall₂ (Diagnostic.WithMoreOf rule.id) before after) := by
  constructor
  · intro hdialect
    simp only [ofTable, RuleTable.ofTable_of_add hadd hdialect]
  · intro _
    have hrules := CompiledRules.extendedBy_of_add hadd dialect
    rw [validate, validate, List.forall₂_map_left_iff, List.forall₂_map_right_iff, List.forall₂_same]
    rintro ⟨line, n⟩ -
    exact judge_of_extendedBy (v := ofTable dialect schema table checks) hrules n line

theorem rule_added_for_numbers :
    let rule : Rule :=
      { id := "20"
        name := "Sign"
        description := "Numbers must not be negative"
        pattern := "^[^-]"
        message := "should not be negative"
        severity := .warning }
    let table := RuleTable.builtin.put .mysql .number (RuleTable.sqlRules .number ++ [rule])
    let field : Field := { name := "age", type := "INT" }
    let schema := Schema.empty.insert "users" (Table.ofFields .mysql [field])
    let script := "UPDATE users SET age = -1, name = 'x'\nDELETE FROM users"
    RuleTable.builtin.add .mysql .number rule = .ok table ∧
      List.Forall₂ (Diagnostic.WithMoreOf "20")
        ((ofTable .mysql schema .builtin true).validate script)
        ((ofTable .mysql schema table true).validate script) := by
  intro rule table field schema script
  have hadd : RuleTable.builtin.add .mysql .number rule = .ok table := if_neg (by decide)
  exact ⟨hadd, (added_rule_only_adds_findings hadd .mysql schema true script).2 rfl⟩

end Validator

end SchemaLint
