import SchemaLint.Proofs.Footprint
import SchemaLint.Proofs.Range
import SchemaLint.Proofs.Sql.Column
import SchemaLint.Proofs.Sql.Joined

/-!
# Columns that are named

A line touches the fields that its columns are called, and no others. The columns are those that are
read, which are the plain items of a projection and what the conditions of a clause compare, in groups
of any depth, and those that are written: the columns of an `INSERT` and the left sides of a `SET`
list (`mem_fields_iff`). A column is called by what stands behind its last dot, without blanks and
without the quotes around it (`fieldName_eq`).
-/

namespace SchemaLint.Sql

open Form Nesting Text

/-! ## What columns are called -/

theorem mem_of_mem_unquote {c : Char} {s : List Char} (h : c ∈ Identifier.unquote s) : c ∈ s := by
  apply (trim_isInfix s).subset
  unfold Identifier.unquote at h
  split at h
  · cases h
  · next q r htrim =>
    rw [htrim]
    split at h
    · exact List.mem_cons_of_mem q (List.mem_of_mem_dropLast h)
    · exact h

/-- What stands behind the last dot of a column, without blanks. -/
def lastSegment (column : List Char) : List Char :=
  Identifier.unqualified (words column).flatten

/-- The quotes that are taken off are those of the last segment. -/
theorem fieldName_eq (column : List Char) :
    fieldName column = String.ofList (Identifier.unquote (lastSegment column)) := by
  rw [fieldName, lastSegment]
  generalize (words column).flatten = s
  have hdots : ∀ p ∈ Identifier.segments s, ∀ c ∈ Identifier.unquote p, c ≠ '.' := by
    intro p hp c hc
    exact beq_eq_false_iff_ne.mp (not_mem_pieces p hp c (mem_of_mem_unquote hc))
  unfold Identifier.normalize Identifier.unqualified
  cases hsegments : Identifier.segments s with
  | nil => rfl
  | cons p ps =>
    rw [hsegments] at hdots
    have hlater : ∀ q ∈ ps.map Identifier.unquote, ∀ c ∈ q, c ≠ '.' :=
      List.forall_mem_map.mpr fun q hq => hdots q (List.mem_cons_of_mem p hq)
    rw [List.map_cons, intercalate_dotted, segments_dotted (hdots p List.mem_cons_self) hlater,
      ← List.map_cons, List.getLast?_map]
    cases h : (p :: ps).getLast? with
    | none => cases List.getLast?_eq_none_iff.mp h
    | some q => rfl

theorem field_valueMention (field : String) (value : List Char) :
    (valueMention field value).field = field := by
  unfold valueMention
  split <;> rfl

/-! ## Columns of clauses -/

/-- The column that a condition compares, if it is no group. -/
def Condition.column? : Condition → Option (List Char)
  | group _ => none
  | isNull column => some column
  | between column _ _ => some column
  | isIn column _ => some column
  | compare column _ => some column

/-- A condition of a clause, or of the clause of a group in it, compares a column. -/
inductive Compares : List Char → List Char → Prop
  | here {clause text column : List Char} {c : Condition} (htext : text ∈ conditions clause)
      (hread : Condition.read? text = some c) (hcolumn : c.column? = some column) :
      Compares clause column
  | inside {clause text inner column : List Char} (htext : text ∈ conditions clause)
      (hread : Condition.read? text = some (.group inner)) (h : Compares inner column) :
      Compares clause column

/-- A condition that is no group mentions its column and no other. -/
theorem mem_mentions_of_column? {c : Condition} {column : List Char} (h : c.column? = some column)
    (ofClause : List Char → List Mention) (f : String) :
    (∃ m ∈ c.mentions ofClause, m.field = f) ↔ fieldName column = f := by
  cases c with
  | group clause => cases h
  | isNull column' =>
    obtain rfl := Option.some.inj h
    simp [Condition.mentions, Mention.field]
  | between column' low high =>
    obtain rfl := Option.some.inj h
    simp [Condition.mentions, field_valueMention]
  | isIn column' list =>
    obtain rfl := Option.some.inj h
    rw [Condition.mentions]
    constructor
    · rintro ⟨m, hm, rfl⟩
      rcases List.mem_cons.mp hm with rfl | hm
      · rfl
      · split at hm
        · cases hm
        · obtain ⟨v, -, rfl⟩ := List.mem_map.mp hm
          exact (field_valueMention _ v).symm
    · rintro rfl
      exact ⟨_, List.mem_cons_self, rfl⟩
  | compare column' value =>
    obtain rfl := Option.some.inj h
    simp [Condition.mentions, field_valueMention]

theorem exists_column?_or_group (c : Condition) :
    (∃ column, c.column? = some column) ∨ ∃ inner, c = .group inner := by
  cases c with
  | group inner => exact .inr ⟨inner, rfl⟩
  | isNull column | between column | isIn column | compare column => exact .inl ⟨column, rfl⟩

theorem compares_of_mem_mentionsTo {depth : Nat} {clause : List Char} {m : Mention}
    (h : m ∈ clauseMentionsTo depth clause) :
    ∃ column, Compares clause column ∧ fieldName column = m.field := by
  induction depth generalizing clause with
  | zero => cases h
  | succ depth ih =>
    obtain ⟨text, htext, hm⟩ := List.mem_flatMap.mp h
    cases hread : Condition.read? text with
    | none =>
      rw [hread] at hm
      cases hm
    | some c =>
      rw [hread] at hm
      rcases exists_column?_or_group c with ⟨column, hcolumn⟩ | ⟨inner, rfl⟩
      · exact ⟨column, .here htext hread hcolumn,
          (mem_mentions_of_column? hcolumn _ _).mp ⟨m, hm, rfl⟩⟩
      · obtain ⟨column, hcompares, hfield⟩ := ih hm
        exact ⟨column, .inside htext hread hcompares, hfield⟩

theorem Compares.mem_clauseMentions {clause column : List Char} (h : Compares clause column) :
    ∃ m ∈ clauseMentions clause, m.field = fieldName column := by
  induction h with
  | here htext hread hcolumn =>
    obtain ⟨m, hm, hfield⟩ := (mem_mentions_of_column? hcolumn clauseMentions _).mpr rfl
    rw [clauseMentions_eq]
    exact ⟨m, List.mem_flatMap.mpr ⟨_, htext, by rw [conditionMentions, hread]; exact hm⟩, hfield⟩
  | inside htext hread _ ih =>
    obtain ⟨m, hm, hfield⟩ := ih
    rw [clauseMentions_eq]
    exact ⟨m, List.mem_flatMap.mpr ⟨_, htext, by rw [conditionMentions, hread]; exact hm⟩, hfield⟩

/-- A clause mentions what it compares, and nothing else. -/
theorem mem_clauseMentions_iff {clause : List Char} {f : String} :
    (∃ m ∈ clauseMentions clause, m.field = f) ↔
      ∃ column, Compares clause column ∧ fieldName column = f := by
  constructor
  · rintro ⟨m, hm, rfl⟩
    exact compares_of_mem_mentionsTo hm
  · rintro ⟨column, h, rfl⟩
    exact h.mem_clauseMentions

/-! ## Columns of statements -/

/-- The projection of a `SELECT` that has a table, and what stands behind the table. -/
def selectParts? (body : List Char) : Option (List Char × List Char) := do
  let (projection, source) ← cutAtKeyword? "FROM" body
  let (_, rest) ← tableForm.read? source
  return (projection, rest)

/-- The clause of a statement. -/
def Statement.clause? : Statement → Option (List Char)
  | update _ body => (cutAtWhere body).2
  | insert _ _ => none
  | delete _ body => (cutAtWhere body).2
  | select body => (selectParts? body).bind fun parts => (cutAtWhere parts.2).2

/-- A statement reads a column. -/
inductive Statement.Reads : Statement → List Char → Prop
  | projected {body projection rest item column : List Char}
      (hparts : selectParts? body = some (projection, rest)) (hitem : item ∈ splitTop ',' projection)
      (hcolumn : columnForm.read? item = some column) : Reads (.select body) column
  | compared {s : Statement} {clause column : List Char} (hclause : s.clause? = some clause)
      (h : Compares clause column) : Reads s column

/-- A list of settings has a column on the left side of an item. -/
def Sets (list column : List Char) : Prop :=
  ∃ item ∈ splitTop ',' list, ∃ value, cutAtTop? '=' item = some (column, value)

/-- A statement writes to a column. -/
inductive Statement.Writes : Statement → List Char → Prop
  | set {table body column : List Char} (h : Sets (cutAtWhere body).1 column) :
      Writes (.update table body) column
  | inserted {table body columns rest column : List Char} (hhead : (trimStart body).head? = some '(')
      (hcut : cutAtPartner? (trimStart body) = some (columns, rest))
      (hcolumn : column ∈ splitTop ',' columns) : Writes (.insert table body) column
  | insertedSet {table body before list column : List Char}
      (hhead : (trimStart body).head? ≠ some '(')
      (hcut : cutAtKeyword? "SET" (trimStart body) = some (before, list)) (h : Sets list column) :
      Writes (.insert table body) column

theorem mem_setMentions_iff {list : List Char} {f : String} :
    (∃ m ∈ setMentions list, m.field = f) ↔ ∃ column, Sets list column ∧ fieldName column = f := by
  constructor
  · rintro ⟨m, hm, rfl⟩
    obtain ⟨item, hitem, hm⟩ := List.mem_filterMap.mp hm
    obtain ⟨⟨column, value⟩, hcut, rfl⟩ := Option.map_eq_some_iff.mp hm
    exact ⟨column, ⟨item, hitem, value, hcut⟩, (field_valueMention _ value).symm⟩
  · rintro ⟨column, ⟨item, hitem, value, hcut⟩, rfl⟩
    exact ⟨_, List.mem_filterMap.mpr ⟨item, hitem, by rw [hcut]; rfl⟩, field_valueMention _ value⟩

theorem mem_projectionMentions_iff {projection : List Char} {f : String} :
    (∃ m ∈ projectionMentions projection, m.field = f) ↔
      ∃ item ∈ splitTop ',' projection, ∃ column, columnForm.read? item = some column ∧
        fieldName column = f := by
  constructor
  · rintro ⟨m, hm, rfl⟩
    obtain ⟨item, hitem, hm⟩ := List.mem_filterMap.mp hm
    obtain ⟨column, hcolumn, rfl⟩ := Option.map_eq_some_iff.mp hm
    exact ⟨item, hitem, column, hcolumn, rfl⟩
  · rintro ⟨item, hitem, column, hcolumn, rfl⟩
    exact ⟨_, List.mem_filterMap.mpr ⟨item, hitem, by rw [hcolumn]; rfl⟩, rfl⟩

theorem mem_whereMentions_iff {body : List Char} {f : String} :
    (∃ m ∈ whereMentions body, m.field = f) ↔
      ∃ clause, (cutAtWhere body).2 = some clause ∧ ∃ column, Compares clause column ∧
        fieldName column = f := by
  unfold whereMentions
  cases (cutAtWhere body).2 with
  | none => simp
  | some clause => simp [mem_clauseMentions_iff]

theorem mem_rowMentions {columns : List String} {rows : List Char} {m : Mention}
    (h : m ∈ rowMentions columns rows) : m.field ∈ columns := by
  obtain ⟨row, -, hm⟩ := List.mem_flatMap.mp h
  cases hvalues : inParentheses? row with
  | none =>
    rw [hvalues] at hm
    cases hm
  | some values =>
    rw [hvalues] at hm
    obtain ⟨⟨c, v⟩, hcv, rfl⟩ := List.mem_map.mp hm
    rw [field_valueMention]
    exact (List.of_mem_zip hcv).1

/-- Rows have no columns of their own. -/
theorem mem_touch_append_rows {names : List String} {rows : Option (List Char)} {f : String} :
    (∃ m ∈ names.map Mention.touch ++ (rows.map (rowMentions names)).getD [], m.field = f) ↔
      f ∈ names := by
  constructor
  · rintro ⟨m, hm, rfl⟩
    rcases List.mem_append.mp hm with hm | hm
    · obtain ⟨f, hf, rfl⟩ := List.mem_map.mp hm
      exact hf
    · cases rows with
      | none => cases hm
      | some rows => exact mem_rowMentions hm
  · intro hf
    exact ⟨.touch f, List.mem_append_left _ (List.mem_map_of_mem hf), rfl⟩

section Insert

variable {table body column : List Char}

/-- Behind a table in front of a parenthesis the columns that are written to are listed. -/
theorem writes_insert_of_columns (hhead : (trimStart body).head? = some '(') :
    (Statement.insert table body).Writes column ↔
      ∃ columns rest, cutAtPartner? (trimStart body) = some (columns, rest) ∧
        column ∈ splitTop ',' columns := by
  constructor
  · intro hwrites
    cases hwrites with
    | inserted _ hcut hcolumn => exact ⟨_, _, hcut, hcolumn⟩
    | insertedSet hhead' _ _ => exact absurd hhead hhead'
  · rintro ⟨columns, rest, hcut, hcolumn⟩
    exact .inserted hhead hcut hcolumn

/-- Behind any other table they stand in a `SET` list. -/
theorem writes_insert_of_set (hhead : (trimStart body).head? ≠ some '(') :
    (Statement.insert table body).Writes column ↔
      ∃ before list, cutAtKeyword? "SET" (trimStart body) = some (before, list) ∧
        Sets list column := by
  constructor
  · intro hwrites
    cases hwrites with
    | inserted hhead' _ _ => exact absurd hhead' hhead
    | insertedSet _ hcut hsets => exact ⟨_, _, hcut, hsets⟩
  · rintro ⟨before, list, hcut, hsets⟩
    exact .insertedSet hhead hcut hsets

theorem mem_insertMentions_iff (table : List Char) {f : String} :
    (∃ m ∈ insertMentions body, m.field = f) ↔
      ∃ column, (Statement.insert table body).Writes column ∧ fieldName column = f := by
  unfold insertMentions
  dsimp only
  split
  · next hhead =>
    rw [beq_iff_eq] at hhead
    simp only [writes_insert_of_columns hhead]
    cases cutAtPartner? (trimStart body) with
    | none => simp
    | some cut =>
      obtain ⟨columns, rest⟩ := cut
      rw [mem_touch_append_rows, List.mem_map]
      simp
  · next hhead =>
    rw [beq_iff_eq] at hhead
    simp only [writes_insert_of_set hhead]
    cases cutAtKeyword? "SET" (trimStart body) with
    | none => simp
    | some cut =>
      obtain ⟨before, list⟩ := cut
      simp [mem_setMentions_iff]

end Insert

theorem selectFootprint_eq (body : List Char) :
    (selectParts? body = none ∧ selectFootprint body = .unrecognized) ∨
      ∃ projection rest target, selectParts? body = some (projection, rest) ∧
        selectFootprint body =
          .ofMentions target (projectionMentions projection ++ whereMentions rest) := by
  unfold selectParts? selectFootprint
  cases cutAtKeyword? "FROM" body with
  | none => exact .inl ⟨rfl, rfl⟩
  | some cut =>
    cases htable : tableForm.read? cut.2 with
    | none => exact .inl ⟨by simp [htable], by simp [htable]⟩
    | some read => exact .inr ⟨cut.1, read.2, targetName read.1, by simp [htable], by simp [htable]⟩

theorem exists_mem_append {α : Type} {as bs : List α} {p : α → Prop} :
    (∃ a ∈ as ++ bs, p a) ↔ (∃ a ∈ as, p a) ∨ ∃ a ∈ bs, p a := by
  simp only [List.mem_append, or_and_right, exists_or]

/-- The fields of a statement are what its columns are called. -/
theorem Statement.mem_fields_iff {s : Statement} {f : String} :
    f ∈ s.footprint.fields ↔
      f ≠ "" ∧ ∃ column, (s.Reads column ∨ s.Writes column) ∧ fieldName column = f := by
  cases s with
  | update table body =>
    rw [footprint, Footprint.mem_fields_ofMentions, exists_mem_append, mem_setMentions_iff,
      mem_whereMentions_iff]
    refine and_congr_right fun _ => ⟨?_, ?_⟩
    · rintro (⟨column, hsets, hname⟩ | ⟨clause, hclause, column, hcompares, hname⟩)
      · exact ⟨column, .inr (.set hsets), hname⟩
      · exact ⟨column, .inl (.compared hclause hcompares), hname⟩
    · rintro ⟨column, (- | ⟨hclause, hcompares⟩) | hwrites, hname⟩
      · exact .inr ⟨_, hclause, column, hcompares, hname⟩
      · cases hwrites with
        | set hsets => exact .inl ⟨column, hsets, hname⟩
  | insert table body =>
    rw [footprint, Footprint.mem_fields_ofMentions, mem_insertMentions_iff table]
    refine and_congr_right fun _ => ⟨?_, ?_⟩
    · rintro ⟨column, hwrites, hname⟩
      exact ⟨column, .inr hwrites, hname⟩
    · rintro ⟨column, (- | ⟨hclause, -⟩) | hwrites, hname⟩
      · cases hclause
      · exact ⟨column, hwrites, hname⟩
  | delete table body =>
    rw [footprint, Footprint.mem_fields_ofMentions, mem_whereMentions_iff]
    refine and_congr_right fun _ => ⟨?_, ?_⟩
    · rintro ⟨clause, hclause, column, hcompares, hname⟩
      exact ⟨column, .inl (.compared hclause hcompares), hname⟩
    · rintro ⟨column, (- | ⟨hclause, hcompares⟩) | ⟨⟨⟩⟩, hname⟩
      exact ⟨_, hclause, column, hcompares, hname⟩
  | select body =>
    rw [footprint]
    rcases selectFootprint_eq body with ⟨hparts, hprint⟩ | ⟨projection, rest, target, hparts, hprint⟩
    · rw [hprint]
      constructor
      · intro h
        cases h
      · rintro ⟨-, column, (⟨hparts', -, -⟩ | ⟨hclause, -⟩) | ⟨⟨⟩⟩, -⟩
        · rw [hparts] at hparts'
          cases hparts'
        · rw [clause?, hparts] at hclause
          cases hclause
    · rw [hprint, Footprint.mem_fields_ofMentions, exists_mem_append, mem_projectionMentions_iff,
        mem_whereMentions_iff]
      refine and_congr_right fun _ => ⟨?_, ?_⟩
      · rintro (⟨item, hitem, column, hcolumn, hname⟩ | ⟨clause, hclause, column, hcompares, hname⟩)
        · exact ⟨column, .inl (.projected hparts hitem hcolumn), hname⟩
        · exact ⟨column, .inl (.compared (by rw [clause?, hparts]; exact hclause) hcompares), hname⟩
      · rintro ⟨column, (⟨hparts', hitem, hcolumn⟩ | ⟨hclause, hcompares⟩) | ⟨⟨⟩⟩, hname⟩
        · rw [hparts] at hparts'
          obtain ⟨rfl, rfl⟩ := Prod.mk.inj (Option.some.inj hparts')
          exact .inl ⟨_, hitem, column, hcolumn, hname⟩
        · rw [clause?, hparts] at hclause
          exact .inr ⟨_, hclause, column, hcompares, hname⟩

/-- A line touches the fields that the columns of its statement are called, and no others. -/
theorem mem_fields_iff {line : List Char} {f : String} :
    f ∈ (footprint line).fields ↔ f ≠ "" ∧ ∃ s column, Statement.read? (statementOf line) = some s ∧
      (s.Reads column ∨ s.Writes column) ∧ fieldName column = f := by
  unfold footprint
  cases Statement.read? (statementOf line) with
  | none =>
    constructor
    · intro h
      cases h
    · rintro ⟨-, s, column, h, -⟩
      cases h
  | some s =>
    rw [Option.map_some, Option.getD_some, Statement.mem_fields_iff]
    simp

/-! ## Columns stand in their line -/

theorem isInfix_of_mem_conditions {text clause : List Char} (h : text ∈ conditions clause) :
    text <:+: clause :=
  (scattered_conditions clause).isInfix_of_mem h

/-- A name that stands somewhere in a text. -/
def HasName (s column : List Char) : Prop :=
  ∃ t r, t <:+: s ∧ (column, r) ∈ name t

theorem HasName.mono {s t column : List Char} (h : HasName s column) (hst : s <:+: t) :
    HasName t column := by
  obtain ⟨u, r, hu, hname⟩ := h
  exact ⟨u, r, hu.trans hst, hname⟩

theorem HasName.isInfix {s column : List Char} (h : HasName s column) : column <:+: s := by
  obtain ⟨t, r, ht, hname⟩ := h
  refine List.IsInfix.trans ?_ ht
  rw [keeps_name t column r hname]
  exact (List.prefix_append column r).isInfix

/-- Each form begins with a name, which is what the condition compares. -/
theorem mem_name_of_mem_forms {f : Form Condition} (hf : f ∈ forms) {c : Condition} {s r : List Char}
    (h : (c, r) ∈ f s) : ∃ column t, c.column? = some column ∧ (column, t) ∈ name s := by
  simp only [forms, List.mem_cons, List.not_mem_nil, or_false] at hf
  rcases hf with rfl | rfl | rfl | rfl | rfl
  all_goals obtain ⟨column, t, hname, h⟩ := mem_bind.mp h
  all_goals refine ⟨column, t, ?_, hname⟩
  all_goals
    obtain ⟨_, _, -, h⟩ := mem_bind.mp h
    obtain ⟨_, _, -, h⟩ := mem_bind.mp h
  · obtain ⟨rfl, -⟩ := mem_pure.mp h
    rfl
  · obtain ⟨_, _, -, h⟩ := mem_bind.mp h
    obtain ⟨_, _, -, h⟩ := mem_bind.mp h
    obtain ⟨rfl, -⟩ := mem_pure.mp h
    rfl
  all_goals
    obtain ⟨rfl, -⟩ := mem_pure.mp h
    rfl

/-- A condition is a group whose clause stands in its text, or compares a name that does. -/
theorem read?_cases {text : List Char} {c : Condition} (h : Condition.read? text = some c) :
    (∃ inner, c = .group inner ∧ inner <:+: text) ∨
      ∃ column, c.column? = some column ∧ HasName text column := by
  have hdropped : Condition.dropNots text.length (trim text) <:+: text :=
    (dropNots_suffix _ _).isInfix.trans (trim_isInfix text)
  unfold Condition.read? at h
  dsimp only at h
  split at h
  · next inner hgroup =>
    obtain rfl := Option.some.inj h
    exact .inl ⟨inner, rfl, (isInfix_of_group? hgroup).trans hdropped⟩
  · obtain ⟨⟨c', r⟩, hhead, rfl⟩ := Option.map_eq_some_iff.mp h
    obtain ⟨f, hf, hmem⟩ := mem_oneOf.mp (List.mem_of_mem_head? hhead)
    obtain ⟨column, t, hcolumn, hname⟩ := mem_name_of_mem_forms hf hmem
    exact .inr ⟨column, hcolumn, _, t, hdropped, hname⟩

theorem Compares.hasName {clause column : List Char} (h : Compares clause column) :
    HasName clause column := by
  induction h with
  | here htext hread hcolumn =>
    refine HasName.mono ?_ (isInfix_of_mem_conditions htext)
    rcases read?_cases hread with ⟨inner, rfl, -⟩ | ⟨column', hcolumn', hname⟩
    · cases hcolumn
    · rw [hcolumn] at hcolumn'
      obtain rfl := Option.some.inj hcolumn'
      exact hname
  | inside htext hread _ ih =>
    refine ih.mono (List.IsInfix.trans ?_ (isInfix_of_mem_conditions htext))
    rcases read?_cases hread with ⟨inner', hinner, hinfix⟩ | ⟨column', hcolumn', -⟩
    · obtain rfl := Condition.group.inj hinner
      exact hinfix
    · cases hcolumn'

theorem hasName_of_columnForm {item column : List Char} (h : columnForm.read? item = some column) :
    HasName item column := by
  obtain ⟨⟨c, r⟩, hhead, rfl⟩ := Option.map_eq_some_iff.mp h
  have hdistinct := ((keeps_word "DISTINCT").append keeps_blanks1).opt
  obtain ⟨x, t, rfl, -, h⟩ := hdistinct.mem_bind (List.mem_of_mem_head? hhead)
  obtain ⟨column, t', hname, h⟩ := mem_bind.mp h
  obtain ⟨_, _, -, h⟩ := mem_bind.mp h
  obtain ⟨_, _, -, h⟩ := mem_bind.mp h
  obtain ⟨rfl, -⟩ := mem_pure.mp h
  exact ⟨t, t', (List.suffix_append x t).isInfix, hname⟩

theorem isInfix_of_cutAtWhere {body clause : List Char} (h : (cutAtWhere body).2 = some clause) :
    clause <:+: body := by
  rcases cutAtWhere_cases body with hcut | ⟨before, clause', g, t, hcut, rfl, hclause⟩
  · rw [hcut] at h
    cases h
  · rw [hcut] at h
    obtain rfl := Option.some.inj h
    exact (hclause.trans (List.suffix_cons g t).isInfix).trans (List.suffix_append before _).isInfix

theorem prefix_cutAtWhere (body : List Char) : (cutAtWhere body).1 <+: body := by
  rcases cutAtWhere_cases body with hcut | ⟨before, clause, g, t, hcut, rfl, -⟩
  · rw [hcut]
  · rw [hcut]
    exact List.prefix_append before _

/-- The projection and what stands behind the table both stand in a `SELECT`. -/
theorem isInfix_of_selectParts? {body projection rest : List Char}
    (h : selectParts? body = some (projection, rest)) : projection <:+: body ∧ rest <:+: body := by
  unfold selectParts? at h
  obtain ⟨⟨projection', source⟩, hcut, h⟩ := Option.bind_eq_some_iff.mp h
  obtain ⟨⟨table, rest'⟩, hread, h⟩ := Option.bind_eq_some_iff.mp h
  obtain ⟨rfl, rfl⟩ := Prod.mk.inj (Option.some.inj h)
  obtain ⟨g, t, rfl, ht⟩ := exists_of_cutAtKeyword? (by decide) hcut
  have hsource : source <:+: projection' ++ g :: t :=
    (ht.isInfix.trans (List.suffix_cons g t).isInfix).trans (List.suffix_append projection' _).isInfix
  refine ⟨(List.prefix_append projection' _).isInfix, List.IsInfix.trans ?_ hsource⟩
  obtain ⟨gap, rfl, -⟩ := exists_of_tableForm hread
  exact ((List.suffix_append table _).trans (List.suffix_append gap _)).isInfix

theorem Sets.isInfix {list column : List Char} (h : Sets list column) : column <:+: list := by
  obtain ⟨item, hitem, value, hcut⟩ := h
  obtain ⟨g, rfl⟩ := exists_of_cutAtTop? hcut
  exact (List.prefix_append column _).isInfix.trans (isInfix_of_mem_splitTop hitem)

namespace Statement

variable {s : Statement} {text column : List Char}

theorem isInfix_of_clause? {clause : List Char} (h : s.clause? = some clause) : clause <:+: s.body := by
  cases s with
  | update | delete => exact isInfix_of_cutAtWhere h
  | insert => cases h
  | select body =>
    obtain ⟨⟨projection, rest⟩, hparts, hclause⟩ := Option.bind_eq_some_iff.mp h
    exact (isInfix_of_cutAtWhere hclause).trans (isInfix_of_selectParts? hparts).2

theorem Reads.hasName (h : s.Reads column) : HasName s.body column := by
  cases h with
  | projected hparts hitem hcolumn =>
    exact (hasName_of_columnForm hcolumn).mono
      ((isInfix_of_mem_splitTop hitem).trans (isInfix_of_selectParts? hparts).1)
  | compared hclause h => exact h.hasName.mono (isInfix_of_clause? hclause)

theorem Writes.isInfix (h : s.Writes column) : column <:+: s.body := by
  cases h with
  | @set table body _ h => exact h.isInfix.trans (prefix_cutAtWhere body).isInfix
  | @inserted table body columns rest _ hhead hcut hcolumn =>
    obtain ⟨o, hbody⟩ := exists_of_cutAtPartner? hcut
    have hcolumns : columns <:+: trimStart body := by
      rw [hbody]
      exact (List.prefix_append columns rest).isInfix.trans (List.suffix_cons o _).isInfix
    exact (isInfix_of_mem_splitTop hcolumn).trans (hcolumns.trans (List.dropWhile_suffix _).isInfix)
  | @insertedSet table body before list _ hhead hcut h =>
    obtain ⟨g, t, hbody, ht⟩ := exists_of_cutAtKeyword? (by decide) hcut
    have hlist : list <:+: trimStart body := by
      rw [hbody]
      exact (ht.isInfix.trans (List.suffix_cons g t).isInfix).trans
        (List.suffix_append before _).isInfix
    exact h.isInfix.trans (hlist.trans (List.dropWhile_suffix _).isInfix)

end Statement

namespace Statement

variable {s : Statement} {line text column : List Char}

theorem body_isInfix (h : read? (statementOf line) = some s) : s.body <:+: line :=
  (body_suffix h).isInfix.trans (isInfix_statementOf line)

end Statement

end SchemaLint.Sql
