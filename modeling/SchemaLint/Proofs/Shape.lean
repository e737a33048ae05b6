import SchemaLint.Proofs.Keyword
import SchemaLint.Proofs.Nesting.Place
import SchemaLint.Script

/-!
# Statements without problems of shape

An SQL statement has no problems of shape exactly when it is complete (`Sql.IsComplete`): its
clauses have what they need, at every place where one begins. The check does not ask whether the
statement is a known one. So a line that is not recognized has no problems when its dialect is that
of shell documents, but in SQL it has those of any other text (`unrecognized_shapeProblems`).
-/

namespace SchemaLint

open Nesting Text

/-! ## A keyword in a longer text -/

theorem stands_append {w : String} (hw : IsKeyword w) {a b : List Char} (h : Stands w a b)
    (hlast : ∀ c ∈ (a ++ b).getLast?, isIdentChar c = false) (z : List Char) :
    Stands w a (b ++ z) := by
  obtain ⟨c, t, rfl, htop, hat⟩ := h
  refine ⟨c, t ++ z, rfl, htop, ?_⟩
  simp only [isKeywordAt, Bool.and_eq_true, Bool.not_eq_true'] at hat
  obtain ⟨⟨hstart, hbefore⟩, hnext⟩ := hat
  obtain ⟨v, r, hsplit, hv⟩ := exists_append_of_startsIgnoringCase hstart
  rw [hsplit, drop_of_lower_eq hv] at hnext
  rw [isKeywordAt, hsplit, List.append_assoc, startsIgnoringCase_append hv, hbefore,
    drop_of_lower_eq hv]
  -- The keyword is not the end of the text, whose last character continues no word.
  cases r with
  | nil =>
    have hident : ∀ d ∈ v, isIdentChar d = true := isIdentChar_of_lower_eq hw.2 hv
    rw [hsplit, List.append_nil] at hlast
    have hne : v ≠ [] := by
      rintro rfl
      simp at hsplit
    have hmem := List.getLast_mem hne
    have hfalse := hlast (v.getLast hne)
      (by rw [List.getLast?_append_of_ne_nil _ hne]; exact List.getLast?_eq_some_getLast hne)
    rw [hident _ hmem] at hfalse
    cases hfalse
  | cons d r =>
    rw [List.head?_cons] at hnext
    rw [List.cons_append, List.head?_cons, hnext]
    rfl

theorem hasKeyword_append {w : String} (hw : IsKeyword w) {x : List Char}
    (h : hasKeyword w x = true) (hlast : ∀ c ∈ x.getLast?, isIdentChar c = false) (z : List Char) :
    hasKeyword w (x ++ z) = true := by
  obtain ⟨a, b, rfl, hstands⟩ := hasKeyword_iff.mp h
  exact hasKeyword_iff.mpr ⟨a, b ++ z, List.append_assoc a b z, stands_append hw hstands hlast z⟩

theorem isIdentChar_before {w : String} {a b : List Char} (h : Stands w a b) :
    ∀ c ∈ a.getLast?, isIdentChar c = false := by
  obtain ⟨-, -, -, -, hat⟩ := h
  simp only [isKeywordAt, Option.or_none, Bool.and_eq_true, Bool.not_eq_true'] at hat
  intro c hc
  have hbefore := hat.1.2
  rw [hc] at hbefore
  exact hbefore

/-! ## Complete statements -/

namespace Sql

/-- What follows the first word of a clause is not `BY`, or it is followed by a column. -/
def HasColumn (rest : List Char) : Prop :=
  startsIgnoringCase ['b', 'y'] (trimStart rest) = true →
    ∃ column, byColumnForm.read? rest = some column ∧
      ∀ w ∈ notColumns, sameIgnoringCase w.toList column = false

/-- A part of a text that begins with `JOIN` has a condition or, by what is in front of it, needs
none. -/
def HasCondition (before join : List Char) : Prop :=
  endsUnconditional before = true ∨ hasKeyword "ON" join = true ∨ hasKeyword "USING" join = true

/-- A text whose clauses have what they need: an `INSERT` its values, each `JOIN` a condition before
the next one, each `GROUP BY` and `ORDER BY` a column, and each `HAVING` a `GROUP` in front of it. -/
structure IsComplete (s : List Char) : Prop where
  values : insertVerb.fits s = true →
    ∃ w ∈ ["VALUES", "VALUE", "SET", "SELECT"], hasKeyword w s = true
  condition : ∀ before done join later,
    parts (isKeywordAt "JOIN") s = before :: (done ++ join :: later) →
      HasCondition (before ++ done.flatten) join
  column : ∀ (clause : ByClause) (a b : List Char), s = a ++ b → Stands clause.keyword a b →
    HasColumn (b.drop clause.keyword.length)
  grouping : ∀ a b, s = a ++ b → Stands "HAVING" a b → hasKeyword "GROUP" a = true

variable {s : List Char}

theorem insertLacksValues_eq_false_iff : insertLacksValues s = false ↔
    (insertVerb.fits s = true →
      ∃ w ∈ ["VALUES", "VALUE", "SET", "SELECT"], hasKeyword w s = true) := by
  rw [insertLacksValues, Bool.and_eq_false_imp]
  refine imp_congr_right fun _ => ?_
  rw [List.all_eq_false]
  simp

theorem joinLacksCondition_eq_false_iff {before : List Char} {joins : List (List Char)} :
    joinLacksCondition before joins = false ↔ ∀ done join later, joins = done ++ join :: later →
      HasCondition (before ++ done.flatten) join := by
  induction joins generalizing before with
  | nil => simp [joinLacksCondition]
  | cons join joins ih =>
    have hhere : (!endsUnconditional before && !hasKeyword "ON" join && !hasKeyword "USING" join) =
        false ↔ HasCondition before join := by
      rw [HasCondition]
      cases endsUnconditional before <;> cases hasKeyword "ON" join <;>
        cases hasKeyword "USING" join <;> simp
    rw [joinLacksCondition, Bool.or_eq_false_iff, hhere, ih]
    constructor
    · rintro ⟨hfirst, hlater⟩ done j later h
      cases done with
      | nil =>
        obtain ⟨rfl, -⟩ := List.cons.inj h
        rwa [List.flatten_nil, List.append_nil]
      | cons d done =>
        obtain ⟨rfl, rfl⟩ := List.cons.inj h
        rw [List.flatten_cons, ← List.append_assoc]
        exact hlater done j later rfl
    · intro h
      refine ⟨?_, fun done j later hjoins => ?_⟩
      · have := h [] join joins rfl
        rwa [List.flatten_nil, List.append_nil] at this
      · rw [List.append_assoc, ← List.flatten_cons]
        exact h (join :: done) j later (by rw [hjoins, List.cons_append])

theorem lacksJoinCondition_eq_false_iff : lacksJoinCondition s = false ↔
    ∀ before done join later, parts (isKeywordAt "JOIN") s = before :: (done ++ join :: later) →
      HasCondition (before ++ done.flatten) join := by
  obtain ⟨p, ps, hp⟩ := List.exists_cons_of_ne_nil (parts_ne_nil (isKeywordAt "JOIN") s)
  rw [lacksJoinCondition, hp]
  simp only
  rw [joinLacksCondition_eq_false_iff]
  constructor
  · intro h before done join later hparts
    obtain ⟨rfl, hps⟩ := List.cons.inj hparts
    exact h done join later hps
  · intro h done join later hps
    exact h p done join later (by rw [hps])

theorem lacksByColumn_eq_false_iff {rest : List Char} :
    lacksByColumn rest = false ↔ HasColumn rest := by
  rw [lacksByColumn, Bool.and_eq_false_imp, HasColumn]
  refine imp_congr_right fun _ => ?_
  cases byColumnForm.read? rest with
  | none => simp
  | some column => simp

theorem byProblems_eq_nil_iff {clause : ByClause} : byProblems s clause = [] ↔
    ∀ a b, s = a ++ b → Stands clause.keyword a b → HasColumn (b.drop clause.keyword.length) := by
  have hmem : ∀ b, b ∈ partSuffixes (parts (isKeywordAt clause.keyword) s) ↔
      ∃ a, s = a ++ b ∧ Stands clause.keyword a b := fun b => mem_partSuffixes_parts
  rw [byProblems, List.filterMap_eq_nil_iff]
  constructor
  · intro h a b hs hstands
    have hb := h b ((hmem b).mpr ⟨a, hs, hstands⟩)
    rw [← lacksByColumn_eq_false_iff, ← Bool.not_eq_true]
    intro hlacks
    rw [if_pos hlacks] at hb
    cases hb
  · intro h b hb
    obtain ⟨a, hs, hstands⟩ := (hmem b).mp hb
    rw [lacksByColumn_eq_false_iff.mpr (h a b hs hstands)]
    rfl

/-- It is enough that a `GROUP` stands in front of the first `HAVING`, since what stands there also
stands in front of the later ones. -/
theorem lacksGroupBy_eq_false_iff : lacksGroupBy s = false ↔
    ∀ a b, s = a ++ b → Stands "HAVING" a b → hasKeyword "GROUP" a = true := by
  cases hcut : firstCut? (isKeywordAt "HAVING") s with
  | none =>
    have hlacks : lacksGroupBy s = false := by
      rw [lacksGroupBy, cutAtKeyword?, hcut]
      rfl
    have hclear := firstCut?_eq_none_iff.mp hcut
    refine iff_of_true hlacks fun a b hs hstands => ?_
    have hb : b ≠ [] := by
      rintro rfl
      exact not_passes_nil hstands
    have hnot := hclear a b hs hb
    rw [List.append_nil] at hnot
    exact absurd hstands hnot
  | some cut =>
    obtain ⟨x, y⟩ := cut
    have hlacks : lacksGroupBy s = !hasKeyword "GROUP" x := by
      rw [lacksGroupBy, cutAtKeyword?, hcut]
      rfl
    obtain ⟨rfl, hfirst, hclear⟩ := firstCut?_eq_some_iff.mp hcut
    rw [hlacks, Bool.not_eq_false']
    constructor
    · intro hgroup a b hs hstands
      rcases List.append_eq_append_iff.mp hs with ⟨z, rfl, rfl⟩ | ⟨z, rfl, rfl⟩
      · exact hasKeyword_append (by decide) hgroup (isIdentChar_before hfirst) z
      · by_cases hz : z = []
        · rwa [hz, List.append_nil] at hgroup
        · exact absurd hstands (hclear a z rfl hz)
    · intro h
      exact h x y rfl hfirst

theorem shapeProblems_eq_nil_iff : shapeProblems s = [] ↔ IsComplete s := by
  have hnil : ∀ (b : Bool) (p : ShapeProblem), (if b then [p] else []) = [] ↔ b = false := by
    intro b p
    cases b <;> simp
  have hclauses : [ByClause.group, ByClause.order].flatMap (byProblems s) = [] ↔
      ∀ clause, byProblems s clause = [] := by
    rw [List.flatMap_eq_nil_iff]
    refine ⟨fun h clause => h clause ?_, fun h clause _ => h clause⟩
    cases clause <;> simp
  rw [shapeProblems, List.append_eq_nil_iff, List.append_eq_nil_iff, List.append_eq_nil_iff, hnil,
    hnil, hnil, hclauses, insertLacksValues_eq_false_iff, lacksJoinCondition_eq_false_iff,
    lacksGroupBy_eq_false_iff]
  simp only [byProblems_eq_nil_iff]
  constructor
  · rintro ⟨⟨⟨hvalues, hcondition⟩, hcolumn⟩, hgrouping⟩
    exact ⟨hvalues, hcondition, hcolumn, hgrouping⟩
  · rintro ⟨hvalues, hcondition, hcolumn, hgrouping⟩
    exact ⟨⟨⟨hvalues, hcondition⟩, hcolumn⟩, hgrouping⟩

end Sql

/-! ## Lines that are not recognized -/

theorem Shell.shapeProblems_eq_nil_of_target {line : List Char}
    (h : (Shell.footprint line).target = none) : Shell.shapeProblems (statementOf line) = [] := by
  rw [Shell.footprint] at h
  rw [Shell.shapeProblems]
  cases hread : Shell.Call.read? (statementOf line) with
  | none => rfl
  | some c =>
    rw [hread] at h
    cases h

/-- A line that is not recognized has no problems of shape exactly when, in SQL, its statement is
complete nonetheless. -/
theorem unrecognized_shapeProblems (d : Dialect) (line : List Char)
    (h : (footprint d line).target = none) :
    shapeProblems d line = [] ↔ (d = .mysql → Sql.IsComplete (statementOf line)) := by
  cases d with
  | mysql =>
    have hcomplete : shapeProblems .mysql line = [] ↔ Sql.IsComplete (statementOf line) :=
      Sql.shapeProblems_eq_nil_iff
    rw [hcomplete]
    exact ⟨fun hc _ => hc, fun hc => hc rfl⟩
  | mongodb =>
    refine iff_of_true (Shell.shapeProblems_eq_nil_of_target h) fun hd => ?_
    cases hd

/-- A view that is joined without a condition is not recognized, and yet it is not complete. -/
theorem unrecognized_join_without_condition :
    (footprint .mysql "CREATE VIEW v AS SELECT id FROM a JOIN b".toList).target = none ∧
      ¬ Sql.IsComplete (statementOf "CREATE VIEW v AS SELECT id FROM a JOIN b".toList) := by
  have htarget : (footprint .mysql "CREATE VIEW v AS SELECT id FROM a JOIN b".toList).target = none := by
    decide +kernel
  refine ⟨htarget, fun hcomplete => ?_⟩
  have hnone := (unrecognized_shapeProblems .mysql _ htarget).mpr fun _ => hcomplete
  have hproblem : shapeProblems .mysql "CREATE VIEW v AS SELECT id FROM a JOIN b".toList =
      [.joinWithoutCondition] := by decide +kernel
  rw [hproblem] at hnone
  cases hnone

end SchemaLint
