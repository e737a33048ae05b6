import SchemaLint.Proofs.Validator

/-!
# Comments behind a line

All that is found on a line is found in its statement, except what the rules for lines say: these
read the line to its end. So two lines with one statement get diagnostics that differ in these
findings only (`judge_of_statementOf_eq`), and a comment behind a line is seen by these rules alone
(`comment_seen_by_line_rules_only`).
-/

namespace SchemaLint

open Nesting Text

/-- Tells whether a finding is that of a rule for lines. -/
def Issue.isOfLineRule (i : Issue) : Bool :=
  i.code == .syntaxViolation && i.ruleId.isSome

/-- What is found on a line, without what the rules for lines find. -/
def Diagnostic.otherIssues (d : Diagnostic) : List Issue :=
  d.issues.filter (!·.isOfLineRule)

theorem footprint_of_statementOf_eq {line line' : List Char}
    (h : statementOf line = statementOf line') (d : Dialect) : footprint d line = footprint d line' := by
  cases d
  · simp only [footprint, Sql.footprint, h]
  · simp only [footprint, Shell.footprint, h]

theorem shapeProblems_of_statementOf_eq {line line' : List Char}
    (h : statementOf line = statementOf line') (d : Dialect) :
    shapeProblems d line = shapeProblems d line' := by
  cases d <;> simp only [shapeProblems, h]

namespace Validator

variable {v : Validator} {line line' : List Char} {t : Table} {p : Footprint} {i : Issue} {n : Nat}

theorem structureIssues_of_statementOf_eq (h : statementOf line = statementOf line') :
    v.structureIssues line = v.structureIssues line' := by
  unfold structureIssues
  rw [h, shapeProblems_of_statementOf_eq h]

/-! ## The findings of rules for lines -/

theorem isOfLineRule_of_lineIssues {text : String} (h : i ∈ v.lineIssues text) :
    i.isOfLineRule = true := by
  obtain ⟨r, -, rfl⟩ := List.mem_map.mp h
  rfl

theorem filter_lineIssues (v : Validator) (text : String) :
    (v.lineIssues text).filter (!·.isOfLineRule) = [] := by
  rw [List.filter_eq_nil_iff]
  intro i hi
  rw [isOfLineRule_of_lineIssues hi]
  decide

theorem code_of_valueIssues (h : i ∈ v.valueIssues t p) : i.code = .typeMismatch := by
  obtain ⟨⟨field, value⟩, -, hvalue⟩ := List.mem_filterMap.mp h
  obtain ⟨f, k, r, message, -, -, rfl⟩ := valueIssue?_eq_some hvalue
  rfl

theorem mem_lineIssues_of_isOfLineRule {text : String} (hi : i ∈ v.issues text p)
    (h : i.isOfLineRule = true) : i ∈ v.lineIssues text := by
  rw [Issue.isOfLineRule, Bool.and_eq_true, beq_iff_eq] at h
  obtain ⟨hcode, hrule⟩ := h
  rw [issues] at hi
  split at hi
  · rw [List.mem_singleton.mp hi] at hrule
    cases hrule
  · split at hi
    · rw [List.mem_singleton.mp hi] at hrule
      cases hrule
    · simp only [List.mem_append] at hi
      rcases hi with ((hi | hi) | hi) | hi
      · rw [ruleId_of_fieldIssues hi] at hrule
        cases hrule
      · rw [code_of_valueIssues hi] at hcode
        cases hcode
      · exact hi
      · rw [ruleId_of_structureIssues hi] at hrule
        cases hrule

/-! ## Two lines with one statement -/

theorem filter_issues_congr {text text' : String}
    (h : v.structureIssues text.toList = v.structureIssues text'.toList) (p : Footprint) :
    (v.issues text p).filter (!·.isOfLineRule) = (v.issues text' p).filter (!·.isOfLineRule) := by
  unfold issues
  cases p.target with
  | none => rfl
  | some target =>
    simp only
    cases v.schema.target? target with
    | none => rfl
    | some t => simp only [List.filter_append, filter_lineIssues, h]

theorem judge_of_statementOf_eq (h : statementOf line = statementOf line') (v : Validator) (n : Nat) :
    (v.judge n line).target = (v.judge n line').target ∧
      (v.judge n line).otherIssues = (v.judge n line').otherIssues := by
  have hprint := footprint_of_statementOf_eq h v.dialect
  constructor
  · rw [target_judge, target_judge, hprint]
  · unfold Diagnostic.otherIssues
    rw [issues_judge, issues_judge, hprint]
    apply filter_issues_congr
    rw [String.toList_ofList, String.toList_ofList, structureIssues_of_statementOf_eq h]

/-- Behind a line whose quotes and brackets are closed, a comment changes nothing of the statement,
of what it touches and of what is wrong with its shape and its delimiters, whatever the comment says.
The diagnostic of the line changes only in the findings of rules for lines. -/
theorem comment_seen_by_line_rules_only (line comment opener : List Char)
    (hquote : openQuote? line = none) (hdepth : (start.after line).depth = 0)
    (hopener : opener = " -- ".toList ∨ opener = " #".toList) :
    statementOf (line ++ opener ++ comment) = statementOf line ∧
    unbalanced (statementOf (line ++ opener ++ comment)) = unbalanced (statementOf line) ∧
    (∀ d : Dialect, footprint d (line ++ opener ++ comment) = footprint d line ∧
      shapeProblems d (line ++ opener ++ comment) = shapeProblems d line) ∧
    ∀ (v : Validator) (n : Nat),
      (v.judge n (trim (line ++ opener ++ comment))).target = (v.judge n (trim line)).target ∧
      (v.judge n (trim (line ++ opener ++ comment))).otherIssues =
        (v.judge n (trim line)).otherIssues ∧
      ∀ i ∈ (v.judge n (trim line)).issues,
        i ∈ (v.judge n (trim line)).otherIssues ∨ i ∈ v.lineIssues (String.ofList (trim line)) := by
  obtain ⟨m, hm, happend⟩ : ∃ m, startsComment m = true ∧
      line ++ opener ++ comment = line ++ ' ' :: m := by
    rcases hopener with rfl | rfl
    · exact ⟨'-' :: '-' :: ' ' :: comment, rfl, by simp⟩
    · exact ⟨'#' :: comment, rfl, by simp⟩
  have hsame : statementOf (line ++ opener ++ comment) = statementOf line := by
    rw [happend]
    exact statementOf_append_comment hquote hdepth hm
  have htrim : statementOf (trim (line ++ opener ++ comment)) = statementOf (trim line) := by
    rw [statementOf_trim, statementOf_trim, hsame]
  refine ⟨hsame, by rw [hsame], ?_, ?_⟩
  · intro d
    exact ⟨footprint_of_statementOf_eq hsame d, shapeProblems_of_statementOf_eq hsame d⟩
  · intro v n
    obtain ⟨htarget, hissues⟩ := judge_of_statementOf_eq htrim v n
    refine ⟨htarget, hissues, fun i hi => ?_⟩
    cases hrule : i.isOfLineRule with
    | true =>
      rw [issues_judge] at hi
      exact .inr (mem_lineIssues_of_isOfLineRule hi hrule)
    | false => exact .inl (List.mem_filter.mpr ⟨hi, by rw [hrule]; rfl⟩)

theorem comment_with_open_quote :
    openQuote? "UPDATE t SET a = 1; --".toList = none ∧
      (start.after "UPDATE t SET a = 1; --".toList).depth = 0 ∧
      statementOf ("UPDATE t SET a = 1; --".toList ++ " #".toList ++ "it's (".toList) =
        statementOf "UPDATE t SET a = 1; --".toList :=
  ⟨by decide, by decide,
    (comment_seen_by_line_rules_only _ _ _ (by decide) (by decide) (.inr rfl)).1⟩

end Validator

end SchemaLint
