import SchemaLint.Proofs.Sql.Selection.Columns
import SchemaLint.Proofs.Sql.Selection.Joins
import SchemaLint.Script

/-!
# The shape of selections

What the check of shapes finds in a `SELECT` statement of the grammar. It finds nothing but two
kinds of false alarms: a `NATURAL` join with the words `LEFT OUTER` or `RIGHT OUTER`
(`Join.isMisread`), and a list of columns whose beginning it takes for none (`startsColumn`).
-/

namespace SchemaLint.Sql

open Nesting Text

/-! ## Groups -/

section Groups

variable {is js : List Item} {e : Expression} {ts : List Token}

theorem lacksGroupBy_of_free (hsep : Separate ts) (hfree : ∀ t ∈ ts, t.shows "HAVING" = false) :
    lacksGroupBy (textOf ts) = false := by
  rw [lacksGroupBy, cutAtKeyword?, firstCut?, parts_of_free (by decide) hsep hfree]
  rfl

/-- The check finds the word `GROUP` in front of a `HAVING`. -/
theorem lacksGroupBy_of_written (h : Written (is ++ (clause "HAVING" (some e) ++ js)) ts)
    (hsep : Separate ts) (his : is.any (Item.shows "HAVING") = false)
    (hgroup : .keyword "GROUP" ∈ is) : lacksGroupBy (textOf ts) = false := by
  obtain ⟨hw, k, us, vs, rfl, hus, hfront, -⟩ := Written.of_first (by decide) h his
  obtain ⟨hv, k', hmem⟩ := hus.exists_mem_keyword (List.mem_append_left _ hgroup)
  have hfound : hasKeyword "GROUP" (textOf us) = true := hasKeyword_of_mem hsep.left hmem
  obtain ⟨p, ps, hp⟩ := List.exists_cons_of_ne_nil (parts_ne_nil (isKeywordAt "HAVING") (textOf vs))
  rw [lacksGroupBy, cutAtKeyword?, firstCut?, parts_keyword hsep hfront, hp, foldr_consHead]
  simp only [Option.map_some, Option.any_some, hfound, Bool.not_true]

end Groups

/-! ## Whole statements -/

namespace Selection

variable (s : Selection) {ts : List Token}

/-- The check takes the list of columns of a clause for none. -/
def misreadsColumns (c : ByClause) : Bool :=
  (s.columnsOf c).any fun e => !startsColumn (textOf e.tokens)

namespace Spells

variable {s} (h : s.Spells ts)

include h

theorem insertLacksValues_eq : insertLacksValues (textOf ts) = false := by
  have hmem : .keyword "SELECT" ∈ s.items := by simp [items, source]
  obtain ⟨hw, k, hk⟩ := h.written.exists_mem_keyword hmem
  have hselect : hasKeyword "SELECT" (textOf ts) = true := hasKeyword_of_mem h.separate hk
  simp [insertLacksValues, hselect]

theorem lacksJoinCondition_eq :
    lacksJoinCondition (textOf ts) = s.joins.any Join.isMisread := by
  have hwritten : Written (s.source ++ (s.joins.flatMap Join.items ++ s.clauses)) ts := by
    rw [← List.append_assoc]
    exact h.written
  obtain ⟨us, vs, rfl, hus, hvs⟩ := hwritten.split
  have hsource : ∀ t ∈ us, t.shows "JOIN" = false :=
    hus.free (by decide) (s.source_free "JOIN" (by decide))
  obtain ⟨q, -, ps, -, hparts, -, hps⟩ :=
    joinLacksCondition_joins hvs h.separate hsource s.clauses_free
  rw [lacksJoinCondition, hparts]
  exact hps []

theorem byProblems_eq (c : ByClause) :
    byProblems (textOf ts) c = if s.misreadsColumns c then [.missingByColumn c] else [] := by
  have hjoins := s.joins_free c.keyword (by cases c <;> decide)
  cases c with
  | group =>
    have hwritten : Written
        ((s.source ++ s.joins.flatMap Join.items ++ clause "WHERE" s.condition) ++
          (listClause .group (s.columnsOf .group) ++ (clause "HAVING" s.having ++
            listClause .order (s.columnsOf .order) ++ clause "LIMIT" s.limit))) ts := by
      simpa only [items, clauses, List.append_assoc] using h.written
    refine byProblems_of_clause hwritten h.separate ?_ ?_
    · rw [List.any_append, List.any_append, any_clause, s.source_free _ (by decide), hjoins]
      cases s.condition <;> rfl
    · rw [List.any_append, List.any_append, any_clause, any_clause, any_listClause]
      cases s.having <;> cases s.columnsOf .order <;> cases s.limit <;> rfl
  | order =>
    have hwritten : Written
        ((s.source ++ s.joins.flatMap Join.items ++ clause "WHERE" s.condition ++
          listClause .group (s.columnsOf .group) ++ clause "HAVING" s.having) ++
          (listClause .order (s.columnsOf .order) ++ clause "LIMIT" s.limit)) ts := by
      simpa only [items, clauses, List.append_assoc] using h.written
    refine byProblems_of_clause hwritten h.separate ?_ ?_
    · simp only [List.any_append, any_clause, any_listClause, s.source_free _ (mem_reserved .order),
        hjoins]
      cases s.condition <;> cases s.columnsOf .group <;> cases s.having <;> rfl
    · rw [any_clause]
      cases s.limit <;> rfl

theorem lacksGroupBy_eq : lacksGroupBy (textOf ts) = false := by
  have hwritten : Written ((s.source ++ s.joins.flatMap Join.items ++ clause "WHERE" s.condition ++
      listClause .group (s.columnsOf .group)) ++ (clause "HAVING" s.having ++
        (listClause .order (s.columnsOf .order) ++ clause "LIMIT" s.limit))) ts := by
    simpa only [items, clauses, List.append_assoc] using h.written
  have hfront : (s.source ++ s.joins.flatMap Join.items ++ clause "WHERE" s.condition ++
      listClause .group (s.columnsOf .group)).any (Item.shows "HAVING") = false := by
    simp only [List.any_append, any_clause, any_listClause, s.source_free "HAVING" (by decide),
      s.joins_free "HAVING" (by decide)]
    cases s.condition <;> cases s.columnsOf .group <;> rfl
  cases hhaving : s.having with
  | none =>
    refine lacksGroupBy_of_free h.separate (hwritten.free (by decide) ?_)
    rw [List.any_append, hfront, hhaving, List.any_append, List.any_append, any_listClause,
      any_clause]
    cases s.columnsOf .order <;> cases s.limit <;> rfl
  | some e =>
    rw [hhaving] at hwritten
    obtain ⟨g, hg, -⟩ := Option.bind_eq_some_iff.mp hhaving
    refine lacksGroupBy_of_written hwritten h.separate hfront (List.mem_append_right _ ?_)
    rw [columnsOf, hg]
    simp [listClause, ByClause.keyword]

end Spells

/-- What the check finds in a statement are its misread joins and lists of columns. -/
theorem shapeProblems_eq (h : s.Spells ts) : Sql.shapeProblems (textOf ts) =
    (if s.joins.any Join.isMisread then [.joinWithoutCondition] else []) ++
      [ByClause.group, ByClause.order].flatMap fun c =>
        if s.misreadsColumns c then [.missingByColumn c] else [] := by
  rw [Sql.shapeProblems, h.insertLacksValues_eq, h.lacksJoinCondition_eq, h.lacksGroupBy_eq,
    funext h.byProblems_eq]
  simp

/-- A statement of the grammar has no problems of shape exactly when none of its joins is a
`NATURAL LEFT OUTER` or `NATURAL RIGHT OUTER` one and each list of columns starts with what the
check takes for a column. -/
theorem free_of_problems_iff (h : s.Spells ts) :
    SchemaLint.shapeProblems .mysql (textOf ts) = [] ↔
      (∀ j ∈ s.joins, j.isMisread = false) ∧
        ∀ c, ∀ list ∈ s.columnsOf c, startsColumn (textOf list.tokens) = true := by
  have hjoins : (∀ j ∈ s.joins, j.isMisread = false) ↔ s.joins.any Join.isMisread = false := by
    simp
  have hcolumns : ∀ c, (∀ list ∈ s.columnsOf c, startsColumn (textOf list.tokens) = true) ↔
      s.misreadsColumns c = false := by
    intro c
    cases hlist : s.columnsOf c <;> simp [misreadsColumns, hlist]
  have hlists : (∀ c, ∀ list ∈ s.columnsOf c, startsColumn (textOf list.tokens) = true) ↔
      s.misreadsColumns .group = false ∧ s.misreadsColumns .order = false := by
    rw [← hcolumns, ← hcolumns]
    refine ⟨fun hall => ⟨hall .group, hall .order⟩, fun hboth c => ?_⟩
    cases c
    · exact hboth.1
    · exact hboth.2
  rw [SchemaLint.shapeProblems, h.statementOf_eq, shapeProblems_eq s h, hjoins, hlists,
    List.flatMap_cons, List.flatMap_singleton]
  cases s.joins.any Join.isMisread <;> cases s.misreadsColumns .group <;>
    cases s.misreadsColumns .order <;> simp

/-- Two tables joined on their common columns, with the rows of the first that have no partner. -/
def naturalOuterJoin : Selection where
  columns := .word "id" (by decide) (by decide)
  table := .word "a" (by decide) (by decide)
  joins := [.natural (.outer .left true) (.word "b" (by decide) (by decide))]
  condition := none
  grouping := none
  order := none
  limit := none

theorem spells_naturalOuterJoin :
    naturalOuterJoin.Spells (naturalOuterJoin.items.flatMap Item.spelling) where
  written := by
    refine written_spelling fun w hw => ?_
    have hmem : w ∈ ["SELECT", "FROM", "NATURAL", "LEFT", "OUTER", "JOIN"] := by
      simpa [naturalOuterJoin, items, source, clauses, clause, listClause, columnsOf, having,
        Join.items, Join.lead, Join.rest, spacedWords, JoinKind.words, Side.word] using hw
    clear hw
    revert w
    decide
  separate := by
    unfold Separate
    decide +kernel
  unended := by
    unfold Unended
    decide +kernel

theorem natural_outer_join_misread :
    (naturalOuterJoin.Spells (naturalOuterJoin.items.flatMap Item.spelling)) ∧
      ¬ SchemaLint.shapeProblems .mysql
        "SELECT id FROM a NATURAL LEFT OUTER JOIN b".toList = [] := by
  have htext : textOf (naturalOuterJoin.items.flatMap Item.spelling) =
      "SELECT id FROM a NATURAL LEFT OUTER JOIN b".toList := by decide +kernel
  refine ⟨spells_naturalOuterJoin, fun hnil => ?_⟩
  rw [← htext] at hnil
  have hjoins := ((free_of_problems_iff naturalOuterJoin spells_naturalOuterJoin).mp hnil).1
  exact absurd (hjoins _ List.mem_cons_self) (by decide)

end Selection

end SchemaLint.Sql
