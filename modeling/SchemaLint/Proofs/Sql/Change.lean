import SchemaLint.Proofs.Footprint
import SchemaLint.Proofs.Skip
import SchemaLint.Proofs.Sql.Clause
import SchemaLint.Script

/-!
# Statements that change rows

A `DELETE` or an `UPDATE` with a `WHERE` clause (`Change`) touches its table, the columns of its
`SET` list and of its clause in the order of first mention, and the literals written to them and
compared with them, in order (`Change.footprint_text`).

The text of such a statement is cut at the first `WHERE`. Neither the list nor the clause has one
outside quotes and brackets, whatever the literals in them contain, so the clause is cut off whole;
the list is then split at its commas and each item at its first `=`.
-/

namespace SchemaLint.Sql

open Form Nesting Text
open Shell (IsItem Spacing separated)

/-! ## Assignments -/

/-- A literal written to a column. -/
structure Assignment where
  column : Name
  value : Literal

namespace Assignment

variable (a : Assignment)

/-- An assignment as it is written, which is how a comparison by `=` is written. -/
def leaf : Leaf :=
  .compare a.column .equal a.value

def pair : String × String :=
  (a.column.toString, String.ofList a.value.text)

def text (a : Assignment) : List Char :=
  a.column.text ++ ' ' :: '=' :: ' ' :: a.value.text

theorem phrase : Phrase breaks a.text :=
  (a.column.phrase breaks_subset).spaced
    ((Comparison.equal.phrase _).spaced (a.value.phrase (by decide)))

theorem isItem : IsItem a.text := by
  have hsign : Hides (· == ',') ([' ', '=', ' '] ++ a.value.text) :=
    (Hides.of_forall (by simp)).append (.of_plain (List.all_eq_true.mp (by decide)))
      a.value.isItem.hides_comma
  exact ⟨a.phrase.lacks.balanced, (a.column.hides (by decide)).append a.column.balanced hsign,
    a.phrase.trimmed, a.phrase.ne_nil⟩

theorem cutAtTop?_text :
    cutAtTop? '=' a.text = some (a.column.text ++ [' '], ' ' :: a.value.text) := by
  have hbalanced : Balanced (a.column.text ++ [' ']) :=
    a.column.balanced.append (.of_plain (List.all_eq_true.mp (by decide)))
  have hhides : Hides (· == '=') (a.column.text ++ [' ']) :=
    (a.column.hides (by decide)).append a.column.balanced (.of_forall (by simp))
  rw [text, List.append_cons]
  exact cutAtTop?_append (by decide) hbalanced hhides _

/-- A written list of assignments mentions each column with its value, in order. -/
theorem setMentions_separated (sp : Spacing) (list : List Assignment) {gap : List Char}
    (hgap : ∀ c ∈ gap, isBlank c = true) :
    setMentions (separated sp (list.map text) ++ gap) = list.flatMap fun a => a.leaf.mentions := by
  have hitems : ∀ x ∈ list.map text, IsItem x := by
    intro x hx
    obtain ⟨a, -, rfl⟩ := List.mem_map.mp hx
    exact a.isItem
  have hsplit := Shell.splitTop_separated sp hitems (g := []) (by simp) hgap
  rw [List.nil_append] at hsplit
  have hitem : ∀ a : Assignment, (cutAtTop? '=' a.text).map
      (fun p => valueMention (fieldName p.1) p.2) =
        some (.assign a.column.toString (String.ofList a.value.text)) := by
    intro a
    have hvalue : trim (' ' :: a.value.text) = a.value.text := by
      rw [← List.singleton_append, trim_blank_append isBlank_space, a.value.isItem.trimmed.trim_eq]
    rw [a.cutAtTop?_text, Option.map_some, a.column.fieldName_append isBlank_space,
      a.value.mention _ hvalue]
  rw [setMentions, hsplit, List.filterMap_map]
  simp only [Function.comp_def, hitem]
  rw [List.filterMap_eq_map', List.map_eq_flatMap]
  rfl

end Assignment

/-! ## Statements and their texts -/

/-- A statement that changes the rows that meet a clause. -/
inductive Change where
  /-- `DELETE FROM table WHERE clause`. -/
  | delete (verb : Cased "DELETE") (source : Cased "FROM") (table : Name) (cond : Cased "WHERE")
      (clause : Clause)
  /-- `UPDATE table SET column = value, ... WHERE clause`. -/
  | update (verb : Cased "UPDATE") (table : Name) (set : Cased "SET") (first : Assignment)
      (others : List Assignment) (cond : Cased "WHERE") (clause : Clause)

namespace Change

def table : Change → Name
  | delete _ _ table _ _ => table
  | update _ table _ _ _ _ _ => table

def assignments : Change → List Assignment
  | delete _ _ _ _ _ => []
  | update _ _ _ first others _ _ => first :: others

def clause : Change → Clause
  | delete _ _ _ _ clause => clause
  | update _ _ _ _ _ _ clause => clause

def text (sp : Spacing) : Change → List Char
  | delete verb source table cond clause =>
    verb.text ++ ' ' :: (source.text ++ ' ' :: (table.text ++ ' ' ::
      (cond.text ++ ' ' :: clause.text sp)))
  | update verb table set first others cond clause =>
    verb.text ++ ' ' :: (table.text ++ ' ' :: (set.text ++ ' ' ::
      (separated sp ((first :: others).map Assignment.text) ++ ' ' ::
        (cond.text ++ ' ' :: clause.text sp))))

end Change

/-! ## Clauses cut off -/

/-- Passes in front of a word that ends a clause. -/
def clauseEndsAt : PlaceTest :=
  fun before rest => clauseEnds.any fun w => isKeywordAt w before rest

/-- The clause that a text begins with. -/
def upToClauseEnd (r : List Char) : List Char :=
  trim (((firstCut? clauseEndsAt r).map (·.1)).getD r)

theorem within_clauseEndsAt : clauseEndsAt.Within clauseEnds :=
  within_any (by decide)

theorem upToClauseEnd_eq {c : List Char} (hc : clauseEndsAt.Skips c) (htrim : Trimmed c) :
    upToClauseEnd (' ' :: c) = c := by
  have hcut := firstCut?_blank_append within_clauseEndsAt isBlank_space c
  rw [List.singleton_append, hc.firstCut?_eq, Option.map_none] at hcut
  rw [upToClauseEnd, hcut, Option.map_none, Option.getD_none, ← List.singleton_append,
    trim_blank_append isBlank_space, htrim.trim_eq]

/-- A clause goes up to the first word that ends it. -/
theorem upToClauseEnd_spaced {c : List Char} (hc : clauseEndsAt.Skips c) (htrim : Trimmed c)
    {w : String} (hw : w ∈ clauseEnds) (k : Cased w) (r : List Char) :
    upToClauseEnd (' ' :: (c ++ ' ' :: (k.text ++ ' ' :: r))) = c := by
  have hkeyword : ∀ w ∈ clauseEnds, IsKeyword w := by decide
  have hpass : ∀ rest, isKeywordAt w none rest = true → clauseEndsAt none rest = true :=
    fun rest h => List.any_eq_true.mpr ⟨w, hw, h⟩
  have hcut := firstCut?_blank_append within_clauseEndsAt isBlank_space
    (c ++ ' ' :: (k.text ++ ' ' :: r))
  rw [List.singleton_append, hc.firstCut?_keyword within_clauseEndsAt (endsAtBlank_any hkeyword)
    (hkeyword w hw) hpass, Option.map_some] at hcut
  rw [upToClauseEnd, hcut]
  exact htrim.trim_between isBlank_space isBlank_space

theorem cutAtWhere_of_hasKeyword {s : List Char} (h : hasKeyword "WHERE" s = false) :
    cutAtWhere s = (s, none) := by
  have hcut : cutAtKeyword? "WHERE" s = none := by
    rw [cutAtKeyword?, Option.isNone_iff_eq_none.mp (Option.isSome_eq_false_iff.mp h), Option.map_none]
  rw [cutAtWhere, hcut]

/-- The clause of a text is cut off at the first `WHERE`. -/
theorem cutAtWhere_spaced {s : List Char} (hs : (isKeywordAt "WHERE").Skips s) (k : Cased "WHERE")
    (r : List Char) : cutAtWhere (s ++ ' ' :: (k.text ++ ' ' :: r)) =
      (s ++ [' '], some (upToClauseEnd (' ' :: r))) := by
  unfold cutAtWhere
  rw [hs.cutAtKeyword?_eq (by decide)]
  rfl

theorem cutAtWhere_append (sp : Spacing) {s : List Char} (hs : Lacks ["WHERE"] s)
    (k : Cased "WHERE") (c : Clause) :
    cutAtWhere (s ++ ' ' :: (k.text ++ ' ' :: c.text sp)) = (s ++ [' '], some (c.text sp)) := by
  have hskips : clauseEndsAt.Skips (c.text sp) :=
    within_clauseEndsAt.skips_of_lacks ((c.phrase sp).lacks.mono (by decide))
  rw [cutAtWhere_spaced ((within_isKeywordAt (by decide)).skips_of_lacks hs),
    upToClauseEnd_eq hskips (c.phrase sp).trimmed]

theorem whereMentions_append (sp : Spacing) {s : List Char} (hs : Lacks ["WHERE"] s)
    (k : Cased "WHERE") (c : Clause) :
    whereMentions (s ++ ' ' :: (k.text ++ ' ' :: c.text sp)) = c.leaves.flatMap Leaf.mentions := by
  rw [whereMentions, cutAtWhere_append sp hs, Option.map_some, Option.getD_some, c.mentions_text]

/-! ## Statements read -/

theorem only_modifiers_keyword {w : String} (k : Cased w) (words : List String)
    (h : ∀ v ∈ words, Apart v w) (r : List Char) :
    Only (modifiers words) (k.text ++ ' ' :: r) [] (k.text ++ ' ' :: r) := by
  refine .star_nil (oneOf_append_eq_nil fun f hf => ?_)
  obtain ⟨v, hv, rfl⟩ := List.mem_map.mp hf
  exact append_eq_nil _ (k.word_eq_nil (h v hv))

theorem only_modifiers_name (n : Name) (words : List String) (h : words ⊆ keywords) (r : List Char) :
    Only (modifiers words) (n.text ++ ' ' :: r) [] (n.text ++ ' ' :: r) := by
  refine .star_nil (oneOf_append_eq_nil fun f hf => ?_)
  obtain ⟨v, hv, rfl⟩ := List.mem_map.mp hf
  exact folded_blanks1_eq_nil (isKeyword_keywords v (h hv)).2 n.isIdentChar_of_mem
    (n.not_keyword v (h hv))

theorem read?_delete (verb : Cased "DELETE") (source : Cased "FROM") (table : Name) {r : List Char}
    (hr : ∀ c ∈ r.head?, isBlank c = false ∧ c ≠ '.') :
    Statement.read? (verb.text ++ ' ' :: (source.text ++ ' ' :: (table.text ++ ' ' :: r))) =
      some (.delete table.text (' ' :: r)) := by
  have hno : ∀ w, Apart w "DELETE" →
      word w (verb.text ++ ' ' :: (source.text ++ ' ' :: (table.text ++ ' ' :: r))) = [] :=
    fun w h => verb.word_eq_nil h
  have hupdate := hno "UPDATE" (by decide)
  have hinsert : oneOf [word "INSERT", word "REPLACE"]
      (verb.text ++ ' ' :: (source.text ++ ' ' :: (table.text ++ ' ' :: r))) = [] := by
    refine oneOf_eq_nil fun f hf => ?_
    rcases List.mem_pair.mp hf with rfl | rfl
    · exact hno "INSERT" (by decide)
    · exact hno "REPLACE" (by decide)
  have hsource : ∀ c ∈ (source.text ++ ' ' :: (table.text ++ ' ' :: r)).head?, isBlank c = false :=
    fun c hc => (head?_keyword source (by decide) _ c hc).1
  have htable := table.head?_append (' ' :: r)
  have hhead := ((((verb.only_word (by decide)).append (.blanks1 hsource)).append
    (only_modifiers_keyword source ["LOW_PRIORITY", "QUICK", "IGNORE"] (by decide)
      (table.text ++ ' ' :: r))).append (source.only_word (by decide))).append (.blanks1 htable)
  unfold Statement.read?
  apply Prefers.read?_eq (r := [])
  refine .oneOf_cons_of_nil (bind_eq_nil _ (append_eq_nil _ (append_eq_nil _ hupdate))) ?_
  refine .oneOf_cons_of_nil (bind_eq_nil _ (append_eq_nil _ (append_eq_nil _ (append_eq_nil _
    (append_eq_nil _ hinsert))))) (.oneOf_cons ?_)
  exact hhead.prefers.bind ((table.only_name hr).prefers.bind (Prefers.bind (f := rest) rfl rfl))

/-- The word `SET` after a table is not taken for an alias unless another one follows. -/
theorem prefers_set (set : Cased "SET") {r : List Char} (hr : ∀ c ∈ r.head?, isBlank c = false)
    (hsecond : (word "SET" ++ blanks1) r = []) :
    ∃ x, Prefers (opt otherName ++ blanks1 ++ word "SET" ++ blanks1) (' ' :: (set.text ++ ' ' :: r))
      x r := by
  have hset : ∀ c ∈ (set.text ++ ' ' :: r).head?, isBlank c = false :=
    fun c hc => (head?_keyword set (by decide) _ c hc).1
  have hword : Only (span1 Unicode.isWord) (set.text ++ ' ' :: r) set.text (' ' :: r) := by
    have hletter : ∀ d ∈ lower "SET".toList, d.isAlpha = true := List.all_eq_true.mp (by decide)
    refine .span1 (set.text_ne_nil (by decide)) (fun c hc => ?_) (by rintro c ⟨⟩; decide)
    have hmem : c.toLower ∈ lower "SET".toList := by
      rw [← set.lower_eq]
      exact List.mem_map_of_mem hc
    exact Unicode.isWord_of_toLower (hletter _ hmem)
  have hother : Only otherName (' ' :: (set.text ++ ' ' :: r)) _ (' ' :: r) :=
    ((Only.blanks1 hset).append
      (.opt_nil (append_eq_nil _ (set.word_eq_nil (by decide))))).append hword
  have halias : (blanks1 ++ (word "SET" ++ blanks1)) (' ' :: r) = [] :=
    (Only.blanks1 hr).append_eq_nil hsecond
  have hplain := ((Only.blanks1 hset).append ((set.only_word (by decide)).append (.blanks1 hr)))
  refine ⟨[' '] ++ (set.text ++ [' ']), ?_⟩
  rw [append_assoc, append_assoc, Prefers, opt_append,
    hother.append_eq_nil halias, List.nil_append]
  exact hplain.prefers

theorem read?_update (verb : Cased "UPDATE") (table : Name) (set : Cased "SET") {r : List Char}
    (hr : ∀ c ∈ r.head?, isBlank c = false) (hsecond : (word "SET" ++ blanks1) r = []) :
    Statement.read? (verb.text ++ ' ' :: (table.text ++ ' ' :: (set.text ++ ' ' :: r))) =
      some (.update table.text r) := by
  have htable := table.head?_append (' ' :: (set.text ++ ' ' :: r))
  have hhead := ((verb.only_word (by decide)).append (.blanks1 htable)).append
    (only_modifiers_name table ["LOW_PRIORITY", "IGNORE"] (by decide) _)
  obtain ⟨x, hx⟩ := prefers_set set hr hsecond
  unfold Statement.read?
  apply Prefers.read?_eq (r := [])
  refine .oneOf_cons ?_
  exact hhead.prefers.bind ((table.only_name (head?_keyword set (by decide) _)).prefers.bind
    (hx.bind (Prefers.bind (f := rest) rfl rfl)))

/-- No column is called `SET`. -/
theorem Name.second_eq_nil (column : Name) (r : List Char) :
    (word "SET" ++ blanks1) (column.text ++ ' ' :: r) = [] :=
  folded_blanks1_eq_nil (isKeyword_keywords "SET" (by decide)).2 column.isIdentChar_of_mem
    (column.not_keyword "SET" (by decide))

/-! ## Footprints -/

namespace Change

variable (sp : Spacing)

/-- The leaves of a statement: its assignments and the leaves of its clause. -/
def leaves (s : Change) : List Leaf :=
  s.assignments.map Assignment.leaf ++ s.clause.leaves

theorem phrase_set (first : Assignment) (others : List Assignment) :
    Phrase breaks (separated sp ((first :: others).map Assignment.text)) := by
  refine phrase_separated sp fun x hx => ?_
  obtain ⟨a, -, rfl⟩ := List.mem_map.mp (show x ∈ (first :: others).map Assignment.text from hx)
  exact a.phrase

theorem phrase (s : Change) : Phrase [] (s.text sp) := by
  have hclause : ∀ c : Clause, Phrase [] (c.text sp) :=
    fun c => (c.phrase sp).mono (List.nil_subset _)
  cases s with
  | delete verb source table cond clause =>
    exact (verb.phrase (by decide) (by simp)).spaced ((source.phrase (by decide) (by simp)).spaced
      ((table.phrase (List.nil_subset _)).spaced ((cond.phrase (by decide) (by simp)).spaced
        (hclause clause))))
  | update verb table set first others cond clause =>
    exact (verb.phrase (by decide) (by simp)).spaced ((table.phrase (List.nil_subset _)).spaced
      ((set.phrase (by decide) (by simp)).spaced
        (((phrase_set sp first others).mono (List.nil_subset _)).spaced
          ((cond.phrase (by decide) (by simp)).spaced (hclause clause)))))

theorem exists_column_append (first : Assignment) (others : List Assignment) (t : List Char) :
    ∃ r, separated sp ((first :: others).map Assignment.text) ++ t =
      first.column.text ++ ' ' :: r := by
  cases others with
  | nil => exact ⟨'=' :: ' ' :: first.value.text ++ t, by simp [separated, Assignment.text]⟩
  | cons a others =>
    exact ⟨'=' :: ' ' :: first.value.text ++ (sp.before ++ ',' :: (sp.after ++
      separated sp ((a :: others).map Assignment.text))) ++ t, by simp [separated, Assignment.text]⟩

/-- A statement is read with its table, and mentions its leaves from left to right. -/
theorem read_text (s : Change) :
    (Statement.read? (s.text sp)).map Statement.footprint =
      some (.ofMentions s.table.toString (s.leaves.flatMap Leaf.mentions)) := by
  cases s with
  | delete verb source table cond clause =>
    have hwhere := whereMentions_append sp (s := []) .nil cond clause
    rw [List.nil_append] at hwhere
    rw [text, read?_delete verb source table (head?_keyword cond (by decide) _), Option.map_some,
      Statement.footprint, table.targetName_text, hwhere]
    rfl
  | update verb table set first others cond clause =>
    obtain ⟨r, hr⟩ :=
      exists_column_append sp first others (' ' :: (cond.text ++ ' ' :: clause.text sp))
    have hlacks : Lacks ["WHERE"] (separated sp ((first :: others).map Assignment.text)) :=
      (phrase_set sp first others).lacks.mono (by decide)
    rw [text, hr, read?_update verb table set (first.column.head?_append _)
        (first.column.second_eq_nil r), Option.map_some, Statement.footprint, table.targetName_text, ← hr,
      whereMentions_append sp hlacks, cutAtWhere_append sp hlacks,
      Assignment.setMentions_separated sp (first :: others) isBlank_space, leaves,
      List.flatMap_append, List.flatMap_map]
    rfl

/-- A statement that changes the rows that meet a clause touches its table, the columns of its
assignments and of the clause in the order of first mention, and the literals written to them and
compared with them in order, each with its column. -/
theorem footprint_text (s : Change) :
    SchemaLint.footprint .mysql (s.text sp) = {
      target := some s.table.toString
      fields := (s.assignments.map (·.column.toString) ++
        s.clause.leaves.map (·.column.toString)).eraseDups
      values := s.assignments.map Assignment.pair ++ s.clause.leaves.flatMap Leaf.pairs } := by
  have hmentions := Footprint.ofMentions_flatMap Leaf.mentions_ne_nil Leaf.field_mentions
    (fun l => by simpa [Name.toString] using l.column.ne_nil) s.table.toString s.leaves
  have hpairs :
      s.assignments.flatMap (fun a => a.leaf.pairs) = s.assignments.map Assignment.pair := by
    rw [List.map_eq_flatMap]
    rfl
  simp only [Leaf.values_mentions, leaves, List.map_append, List.map_map, List.flatMap_append,
    List.flatMap_map, hpairs] at hmentions
  unfold SchemaLint.footprint Sql.footprint
  simp only [statementOf_phrase (s.phrase sp), s.read_text sp, Option.getD_some, leaves,
    List.flatMap_append, List.flatMap_map]
  exact hmentions

/-- No keyword is a single letter. -/
theorem lower_letter_ne (c : Char) : ∀ w ∈ keywords, lower [c] ≠ lower w.toList := by
  have hlong : keywords.all (·.toList.length != 1) = true := by decide +kernel
  intro w hw hlower
  have hlength := congrArg List.length hlower
  rw [lower, lower, List.length_map, List.length_map] at hlength
  exact absurd hlength.symm (bne_iff_ne.mp (List.all_eq_true.mp hlong w hw))

theorem footprint_text_guarded :
    SchemaLint.footprint .mysql
        "UPDATE t SET a = 'it''s' WHERE b > -1 AND NOT (a in (2,'x or (y') Or c IS null)".toList = {
      target := some "t"
      fields := ["a", "b", "c"]
      values := [("a", "'it''s'"), ("b", "-1"), ("a", "2"), ("a", "'x or (y'")] } := by
  let letter (c : Char) (h : c.isAlpha = true) : Name :=
    { text := [c], head := ⟨c, rfl, by rw [isNameStart, h, Bool.true_or]⟩
      chars := by simp [Char.isAlphanum, h], not_keyword := lower_letter_ne c }
  let greater : Leaf :=
    .compare (letter 'b' rfl) .greater (.integer .minus ['1'] (by decide) (List.all_eq_true.mp rfl))
  let isAmong : Leaf :=
    .isIn (letter 'a' rfl) none ⟨"in".toList, by decide⟩
      (.integer .none ['2'] (by decide) (List.all_eq_true.mp rfl)) [.string "x or (y".toList]
  let isNull : Leaf :=
    .isNull (letter 'c' rfl) ⟨"IS".toList, rfl⟩ none ⟨"null".toList, by decide⟩
  have hread := footprint_text .tight <|
    .update ⟨"UPDATE".toList, rfl⟩ (letter 't' rfl) ⟨"SET".toList, rfl⟩
      ⟨letter 'a' rfl, .string "it's".toList⟩ [] ⟨"WHERE".toList, rfl⟩
      (.join (.leaf greater) (.and ⟨"AND".toList, rfl⟩) (.group (some ⟨"NOT".toList, rfl⟩)
        (.join (.leaf isAmong) (.or ⟨"Or".toList, by decide⟩) (.leaf isNull))))
  refine (congrArg (SchemaLint.footprint .mysql) ?_).trans (hread.trans ?_) <;> decide +kernel

end Change

end SchemaLint.Sql
