import SchemaLint.Proofs.Rule.Where
import SchemaLint.Proofs.Sql.Statement
import SchemaLint.Proofs.Statement
import SchemaLint.Validator

/-!
# What is found on a line

On a line with a known target the rules for lines are cited exactly when the line fails them. For
the built-in rules that ask for a condition this is told from the characters of the line: the rules
do not see where its statement, its quotes and its comments end.
-/

namespace SchemaLint

/-- Tells whether a finding of a diagnostic names a rule. -/
def Diagnostic.cites (d : Diagnostic) (id : String) : Bool :=
  d.issues.any (·.ruleId == some id)

/-! ## What diagnostics hold -/

namespace Diagnostic

/-- A diagnostic tells by its flag whether there are findings. -/
def IsFlagged (d : Diagnostic) : Prop :=
  d.isValid = true ↔ d.issues = []

theorem isFlagged_ofLine (n : Nat) (content : String) : (ofLine n content).IsFlagged :=
  iff_of_true rfl rfl

theorem IsFlagged.withTarget {d : Diagnostic} (h : d.IsFlagged) (target : Option String) :
    (d.withTarget target).IsFlagged :=
  h

theorem isFlagged_push (d : Diagnostic) (i : Issue) : (d.push i).IsFlagged :=
  iff_of_false Bool.false_ne_true (List.append_ne_nil_of_right_ne_nil d.issues (List.cons_ne_nil i []))

theorem IsFlagged.pushAll {d : Diagnostic} (h : d.IsFlagged) (is : List Issue) : (d.pushAll is).IsFlagged := by
  induction is generalizing d with
  | nil => exact h
  | cons i is ih => exact ih (isFlagged_push d i)

end Diagnostic

namespace Validator

theorem isFlagged_judge (v : Validator) (n : Nat) (line : List Char) : (v.judge n line).IsFlagged :=
  ((Diagnostic.isFlagged_ofLine n _).withTarget _).pushAll _

theorem target_judge (v : Validator) (n : Nat) (line : List Char) :
    (v.judge n line).target = (footprint v.dialect line).target :=
  Diagnostic.target_pushAll _ _

theorem issues_judge (v : Validator) (n : Nat) (line : List Char) :
    (v.judge n line).issues = v.issues (String.ofList line) (footprint v.dialect line) :=
  Diagnostic.issues_pushAll _ _

theorem content_judge (v : Validator) (n : Nat) (line : List Char) :
    (v.judge n line).content.toList = line :=
  (congrArg String.toList (Diagnostic.content_pushAll _ _)).trans String.toList_ofList

/-! ## Findings of rules -/

variable {dialect : Dialect} {schema : Schema} {table : RuleTable} {checks : Bool}

/-- A diagnostic of a script is that of a line without blanks at its ends. -/
theorem mem_validate {v : Validator} {script : String} {d : Diagnostic} (h : d ∈ v.validate script) :
    ∃ n line, '\n' ∉ line ∧ Text.trim line = line ∧ d = v.judge n line := by
  obtain ⟨⟨line, n⟩, hmem, rfl⟩ := List.mem_map.mp h
  have hline : line ∈ scriptLines script.toList := List.fst_mem_of_mem_zipIdx hmem
  obtain ⟨htrim, -⟩ := List.mem_filter.mp hline
  obtain ⟨raw, hraw, rfl⟩ := List.mem_map.mp htrim
  exact ⟨n, _, fun hnl => Text.not_mem_lines hraw (Text.mem_of_mem_trim hnl),
    (Text.trimmed_trim raw).trim_eq, rfl⟩

theorem judge_mem_validate (v : Validator) {script : String} {line : List Char}
    (h : scriptLines script.toList = [line]) : v.judge 1 line ∈ v.validate script := by
  rw [validate, h]
  exact List.mem_singleton_self _

theorem ofType?_ne_line (type : String) : ValueKind.ofType? type ≠ some .line := by
  intro h
  rw [ValueKind.ofType?] at h
  split at h
  · cases h
  · obtain ⟨entry, hfind, hkind⟩ := Option.map_eq_some_iff.mp h
    have hall : ValueKind.markers.all (fun m => m.1 != .line) = true := by decide
    have hne := List.all_eq_true.mp hall entry (List.mem_of_find?_eq_some hfind)
    simp [hkind] at hne

/-- A finding about a value is a rule for the kind of its field that the value fails. -/
theorem valueIssue?_eq_some {v : Validator} {t : Table} {field value : String} {i : Issue}
    (h : v.valueIssue? t field value = some i) :
    ∃ (f : Field) (k : ValueKind) (r : Rule) (message : String), ValueKind.ofType? f.type = some k ∧
      v.rules.firstFailure? k value = some r ∧ i = .ofRule .typeMismatch r message := by
  rw [valueIssue?] at h
  split at h
  · cases h
  · obtain ⟨f, -, h⟩ := Option.bind_eq_some_iff.mp h
    obtain ⟨k, hk, h⟩ := Option.bind_eq_some_iff.mp h
    obtain ⟨r, hr, h⟩ := Option.bind_eq_some_iff.mp h
    exact ⟨f, k, r, _, hk, hr, (Option.some.inj h).symm⟩

/-- A finding about a value names a rule for a kind of values. -/
theorem ruleId_of_valueIssue? {t : Table} {field value : String} {i : Issue}
    (h : (ofTable dialect schema table checks).valueIssue? t field value = some i) :
    ∃ k, k ≠ .line ∧ ∃ r ∈ table.rules dialect k, i.ruleId = some r.id := by
  obtain ⟨f, k, r, message, hk, hr, rfl⟩ := valueIssue?_eq_some h
  refine ⟨k, ?_, r, CompiledRules.mem_rules_of_firstFailure? hr, rfl⟩
  rintro rfl
  exact ofType?_ne_line f.type hk

theorem ruleId_of_fieldIssues {v : Validator} {t : Table} {p : Footprint} {i : Issue}
    (h : i ∈ v.fieldIssues t p) : i.ruleId = none := by
  rw [fieldIssues] at h
  split at h
  · cases h
  · rw [List.mem_singleton.mp h]
    rfl

theorem ruleId_of_structureIssues {v : Validator} {line : List Char} {i : Issue}
    (h : i ∈ v.structureIssues line) : i.ruleId = none := by
  rw [structureIssues] at h
  split at h
  · obtain ⟨message, -, rfl⟩ := List.mem_map.mp h
    rfl
  · cases h

/-- On a line with a known target a rule that stands among the rules for lines only is cited exactly
when the line fails it. -/
theorem cites_judge {line : List Char} {n : Nat} {target id : String} {t : Table}
    (hid : ∀ k, k ≠ .line → ∀ r ∈ table.rules dialect k, r.id ≠ id)
    (htarget : (footprint dialect line).target = some target)
    (ht : schema.target? target = some t) :
    ((ofTable dialect schema table checks).judge n line).cites id = true ↔
      ∃ r ∈ (CompiledRules.ofTable table dialect).lineFailures (String.ofList line), r.id = id := by
  have hissues : (ofTable dialect schema table checks).issues (String.ofList line)
      (footprint dialect line) =
        (ofTable dialect schema table checks).fieldIssues t (footprint dialect line) ++
        (ofTable dialect schema table checks).valueIssues t (footprint dialect line) ++
        (ofTable dialect schema table checks).lineIssues (String.ofList line) ++
        (ofTable dialect schema table checks).structureIssues line := by
    simp only [issues, htarget, ofTable, ht, String.toList_ofList]
  rw [Diagnostic.cites, issues_judge, List.any_eq_true]
  change (∃ i ∈ (ofTable dialect schema table checks).issues (String.ofList line)
    (footprint dialect line), _) ↔ _
  rw [hissues]
  constructor
  · rintro ⟨i, hi, hrule⟩
    rw [beq_iff_eq] at hrule
    rcases List.mem_append.mp hi with hi | hi
    · rcases List.mem_append.mp hi with hi | hi
      · rcases List.mem_append.mp hi with hi | hi
        · rw [ruleId_of_fieldIssues hi] at hrule
          cases hrule
        · obtain ⟨⟨field, value⟩, -, hvalue⟩ := List.mem_filterMap.mp hi
          obtain ⟨k, hk, r, hr, hid'⟩ := ruleId_of_valueIssue? hvalue
          rw [hid'] at hrule
          exact absurd (Option.some.inj hrule) (hid k hk r hr)
      · obtain ⟨r, hr, rfl⟩ := List.mem_map.mp hi
        exact ⟨r, hr, Option.some.inj hrule⟩
    · rw [ruleId_of_structureIssues hi] at hrule
      cases hrule
  · rintro ⟨r, hr, rfl⟩
    refine ⟨.ofRule .syntaxViolation r r.message, ?_, beq_self_eq_true _⟩
    exact List.mem_append_left _ (List.mem_append_right _ (List.mem_map_of_mem hr))

/-! ## The rules that ask for a condition -/

/-- Tells whether the rule for `UPDATE` lets a line pass: the word stands anywhere on the line, or
the search goes back too often. -/
def passesUpdateRule (line : List Char) : Bool :=
  hasWord "WHERE" line || decide (Pattern.maxReturns < 2 * line.length - 2)

/-- What follows the verb of a `DELETE`. -/
def afterDelete (line : List Char) : List Char :=
  line.drop "DELETE".length

/-- Tells whether the rule for `DELETE` lets a line pass: `FROM` does not follow the verb at once,
the word stands anywhere on the line, or the search goes back too often. -/
def passesDeleteRule (line : List Char) : Bool :=
  !Text.startsIgnoringCase "FROM".toList ((afterDelete line).dropWhile Text.isBlank) ||
    (hasWord "WHERE" line || decide (Pattern.maxReturns <
      2 * line.length - ((afterDelete line).takeWhile Text.isBlank).length - 5))

variable {line table' body : List Char} {t : Table} {n : Nat}

theorem builtin_ids (k : ValueKind) (hk : k ≠ .line) :
    (RuleTable.builtin.rules .mysql k).all (fun r => r.id != "6" && r.id != "7") = true := by
  cases k with
  | line => exact absurd rfl hk
  | _ => rfl

theorem accepts_update_line (hnl : '\n' ∉ line) (htrim : Text.trim line = line)
    (h : Sql.Statement.read? (statementOf line) = some (.update table' body)) :
    (Pattern.requirement Pattern.updateHead "WHERE").accepts line = passesUpdateRule line := by
  obtain ⟨more, hmore⟩ := exists_append_statementOf line
  obtain ⟨verb, g, rest, htext, hverb, hg⟩ := Sql.update_shape h
  obtain rfl : line = verb ++ g :: (rest ++ more) := by
    rw [← htrim, hmore, htext, List.append_assoc, List.cons_append]
  exact Pattern.accepts_update hverb hg hnl

theorem accepts_delete_line (hnl : '\n' ∉ line) (htrim : Text.trim line = line)
    (h : Sql.Statement.read? (statementOf line) = some (.delete table' body)) :
    (Pattern.requirement Pattern.deleteHead "WHERE").accepts line = passesDeleteRule line := by
  obtain ⟨more, hmore⟩ := exists_append_statementOf line
  obtain ⟨verb, g, gap, tail, htext, hverb, hgap, htail⟩ := Sql.delete_shape h
  obtain rfl : line = verb ++ (g :: gap ++ (tail ++ more)) := by
    rw [← htrim, hmore, htext, List.append_assoc, List.append_assoc]
  have hafter : afterDelete (verb ++ (g :: gap ++ (tail ++ more))) = g :: gap ++ (tail ++ more) := by
    have hlen : verb.length = "DELETE".length := Text.length_eq_of_lower hverb
    rw [afterDelete, ← hlen, List.drop_left]
  have hnone : ∀ {s : List Char}, s.head?.any Text.isBlank = false →
      s.takeWhile Text.isBlank = [] ∧ s.dropWhile Text.isBlank = s := by
    intro s hs
    cases s with
    | nil => exact ⟨rfl, rfl⟩
    | cons c s => exact ⟨List.takeWhile_cons_of_neg (by simpa using hs),
        List.dropWhile_cons_of_neg (by simpa using hs)⟩
  rw [passesDeleteRule, hafter, List.takeWhile_append_of_pos hgap, List.dropWhile_append_of_pos hgap]
  rcases htail with ⟨v, d, rest, rfl, hfrom, hd⟩ | ⟨l, rest, rfl, hl⟩
  · have hassoc : v ++ d :: rest ++ more = v ++ d :: (rest ++ more) := by simp
    rw [hassoc] at hnl ⊢
    obtain ⟨htake, hdrop⟩ := hnone
      (Pattern.head_not_blank (a := d :: (rest ++ more)) Pattern.plain_from (by simp) hfrom)
    rw [htake, hdrop, Text.startsIgnoringCase_append hfrom, List.append_nil]
    exact Pattern.accepts_delete hverb hgap hfrom hd hnl
  · have hblank : Text.isBlank l = false := by
      have hword : Unicode.isWord l = true :=
        Unicode.isWord_of_toLower (by rcases hl with hl | hl | hl <;> rw [hl] <;> rfl)
      rw [Bool.eq_false_iff]
      intro hb
      rw [Unicode.isWord_of_isBlank hb] at hword
      exact Bool.false_ne_true hword
    obtain ⟨htake, hdrop⟩ := hnone (s := l :: rest ++ more) hblank
    have hfrom : Text.startsIgnoringCase "FROM".toList (l :: rest ++ more) = false := by
      rcases hl with hl | hl | hl <;> simp [Text.startsIgnoringCase, hl]
    rw [hdrop, hfrom]
    exact Pattern.accepts_delete_modified hverb hgap hnl hblank hfrom

theorem mem_sqlRules_update : ∃ r ∈ RuleTable.sqlRules .line, r.id = "6" := by
  simp [RuleTable.sqlRules]

theorem mem_sqlRules_delete : ∃ r ∈ RuleTable.sqlRules .line, r.id = "7" := by
  simp [RuleTable.sqlRules]

theorem target_of_read? {statement : Sql.Statement} {name : String}
    (h : Sql.Statement.read? (statementOf line) = some statement)
    (hname : statement.footprint.target = some name) :
    (footprint .mysql line).target = some name := by
  change (Sql.footprint line).target = _
  rw [Sql.footprint, h]
  exact hname

/-- A rule of the built-in table is cited on a line of a known table unless its pattern matches. -/
theorem cites_builtin {id name : String} {p : Pattern.Program} {passes : Bool} (hline : id = "6" ∨ id = "7")
    (hex : ∃ r ∈ RuleTable.sqlRules .line, r.id = id)
    (hp : ∀ r ∈ RuleTable.sqlRules .line, r.id = id →
      Pattern.compile? r.pattern = some (.stepwise p))
    (htarget : (footprint .mysql line).target = some name)
    (ht : (schema.target? name).isSome = true) (hpasses : p.accepts line = passes) :
    ((ofTable .mysql schema .builtin checks).judge n line).cites id = !passes := by
  obtain ⟨t, ht⟩ := Option.isSome_iff_exists.mp ht
  have hother : ∀ k, k ≠ .line → ∀ r ∈ RuleTable.builtin.rules .mysql k, r.id ≠ id := by
    intro k hk r hr
    have hne := List.all_eq_true.mp (builtin_ids k hk) r hr
    rw [Bool.and_eq_true, bne_iff_ne, bne_iff_ne] at hne
    rcases hline with rfl | rfl
    · exact hne.1
    · exact hne.2
  rw [Bool.eq_iff_iff, cites_judge hother htarget ht, RuleTable.exists_lineFailure_iff hex hp,
    String.toList_ofList, hpasses, Bool.not_eq_true']

theorem agrees_iff {cites passes keyword : Bool} (h : cites = !passes) :
    (cites = true ↔ keyword = false) ↔ passes = keyword := by
  subst h
  cases passes <;> cases keyword <;> decide

/-- On a line with an `UPDATE` of a known table the rule for `UPDATE` is cited unless it lets the
line pass, and on one with a `DELETE` the rule for `DELETE`. A rule so tells statements with a
condition from others exactly on the lines where it lets pass what has the keyword outside quotes,
brackets and comments, and nothing else. -/
theorem condition_rules_cited (schema : Schema) (checks : Bool) (script : String) (d : Diagnostic)
    (hd : d ∈ (ofTable .mysql schema .builtin checks).validate script) (table body : List Char)
    (htable : (schema.target? (Sql.targetName table)).isSome = true) :
    (Sql.Statement.read? (statementOf d.content.toList) = some (.update table body) →
      d.cites "6" = !passesUpdateRule d.content.toList ∧
        ((d.cites "6" = true ↔ hasKeyword "WHERE" (statementOf d.content.toList) = false) ↔
          passesUpdateRule d.content.toList =
            hasKeyword "WHERE" (statementOf d.content.toList))) ∧
    (Sql.Statement.read? (statementOf d.content.toList) = some (.delete table body) →
      d.cites "7" = !passesDeleteRule d.content.toList ∧
        ((d.cites "7" = true ↔ hasKeyword "WHERE" (statementOf d.content.toList) = false) ↔
          passesDeleteRule d.content.toList =
            hasKeyword "WHERE" (statementOf d.content.toList))) := by
  obtain ⟨n, line, hnl, htrim, rfl⟩ := mem_validate hd
  rw [content_judge]
  constructor
  · intro hread
    have hcites : ((ofTable .mysql schema .builtin checks).judge n line).cites "6" =
        !passesUpdateRule line :=
      cites_builtin (.inl rfl) mem_sqlRules_update (fun r => RuleTable.compile?_of_id_update)
        (target_of_read? hread rfl) htable (accepts_update_line hnl htrim hread)
    exact ⟨hcites, agrees_iff hcites⟩
  · intro hread
    have hcites : ((ofTable .mysql schema .builtin checks).judge n line).cites "7" =
        !passesDeleteRule line :=
      cites_builtin (.inr rfl) mem_sqlRules_delete (fun r => RuleTable.compile?_of_id_delete)
        (target_of_read? hread rfl) htable (accepts_delete_line hnl htrim hread)
    exact ⟨hcites, agrees_iff hcites⟩

/-- An `UPDATE` of all rows passes with the word in a quote, a `DELETE` with a modifier. -/
theorem condition_rules_pass_all_rows :
    (∃ d ∈ (ofTable .mysql (Schema.empty.insert "users" (.ofFields .mysql [⟨"name", "VARCHAR(64)"⟩]))
        .builtin true).validate "UPDATE users SET name = 'where'",
      hasKeyword "WHERE" (statementOf d.content.toList) = false ∧ d.cites "6" = false) ∧
    ∃ d ∈ (ofTable .mysql (Schema.empty.insert "users" (.ofFields .mysql [⟨"name", "VARCHAR(64)"⟩]))
        .builtin true).validate "DELETE QUICK FROM users",
      hasKeyword "WHERE" (statementOf d.content.toList) = false ∧ d.cites "7" = false := by
  have hknown : ((Schema.empty.insert "users"
      (.ofFields .mysql [⟨"name", "VARCHAR(64)"⟩])).target? (Sql.targetName "users".toList)).isSome =
        true := by
    decide
  constructor
  · have hlines : scriptLines "UPDATE users SET name = 'where'".toList =
        ["UPDATE users SET name = 'where'".toList] := by decide
    have hd := judge_mem_validate (ofTable .mysql (Schema.empty.insert "users"
        (.ofFields .mysql [⟨"name", "VARCHAR(64)"⟩])) .builtin true) hlines
    have hread : Sql.Statement.read? (statementOf "UPDATE users SET name = 'where'".toList) =
        some (.update "users".toList "name = 'where'".toList) := by decide +kernel
    have hcites := ((condition_rules_cited _ true _ _ hd _ _ hknown).1
      (by rw [content_judge]; exact hread)).1
    refine ⟨_, hd, ?_, ?_⟩
    · rw [content_judge]
      decide
    · rw [hcites, content_judge]
      decide
  · have hlines : scriptLines "DELETE QUICK FROM users".toList =
        ["DELETE QUICK FROM users".toList] := by decide
    have hd := judge_mem_validate (ofTable .mysql (Schema.empty.insert "users"
        (.ofFields .mysql [⟨"name", "VARCHAR(64)"⟩])) .builtin true) hlines
    have hread : Sql.Statement.read? (statementOf "DELETE QUICK FROM users".toList) =
        some (.delete "users".toList []) := by decide +kernel
    have hcites := ((condition_rules_cited _ true _ _ hd _ _ hknown).2
      (by rw [content_judge]; exact hread)).1
    refine ⟨_, hd, ?_, ?_⟩
    · rw [content_judge]
      decide
    · rw [hcites, content_judge]
      decide

end Validator

end SchemaLint
