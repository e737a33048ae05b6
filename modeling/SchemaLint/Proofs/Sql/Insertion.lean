import SchemaLint.Proofs.Sql.Change

/-!
# Statements that insert rows

An `INSERT` with a list of columns and rows of values (`Insertion`) touches its columns in order and
records each value of each row for the column at its place (`Insertion.footprint_insert`).

The columns stand between the first parenthesis and its partner. The first `VALUES` behind them is
the one in front of the rows (`afterValues?_keyword`), so it does not matter that a value may
contain that word, and commas and parentheses too. A row is an item of the list of rows and a value
is an item of its row (`RowValue.isItem`), so each list is taken apart into as many items as were
written.
-/

namespace SchemaLint.Sql

open Form Nesting Text
open Shell (IsItem Spacing separated enclose)

/-! ## Names in backquotes or not -/

/-- A name of a table or column as it is written. -/
structure WrittenName where
  name : PlainName
  backquoted : Bool

namespace WrittenName

def text (n : WrittenName) : List Char :=
  if n.backquoted then '\x60' :: (n.name.text ++ ['\x60']) else n.name.text

def toString (n : WrittenName) : String :=
  String.ofList n.name.text

variable (n : WrittenName)

theorem staysQuoted : StaysQuoted '\x60' n.name.text := by
  refine (Shell.escaped_of_plain fun c hc => ⟨?_, ?_⟩).staysQuoted
  · rintro rfl
    exact absurd (n.name.isIdentChar_of_mem _ hc) (by decide)
  · rintro rfl
    exact absurd (n.name.isIdentChar_of_mem _ hc) (by decide)

theorem phrase : Phrase [] n.text := by
  unfold text
  split
  · have hitem := Shell.isItem_of_staysQuoted rfl n.staysQuoted
    have hlacks : Lacks [] ('\x60' :: (n.name.text ++ ['\x60']) ++ []) :=
      .quoted rfl n.staysQuoted .nil
    rw [List.append_nil] at hlacks
    exact ⟨hlacks, hitem.trimmed, hitem.ne_nil⟩
  · exact n.name.phrase (by simp)

theorem isItem : IsItem n.text := by
  refine ⟨n.phrase.lacks.balanced, ?_, n.phrase.trimmed, n.phrase.ne_nil⟩
  unfold text
  split
  · exact (Shell.isItem_of_staysQuoted rfl n.staysQuoted).hides_comma
  · exact n.name.hides (by decide)

theorem isSegment : IsSegment n.text n.name.text := by
  unfold text
  split
  · have hmem : ∀ c ∈ '\x60' :: (n.name.text ++ ['\x60']), c = '\x60' ∨ c ∈ n.name.text := by
      intro c hc
      simpa [or_comm, or_assoc] using hc
    refine ⟨fun c hc => ?_, fun c hc => ?_, Shell.unquote_quoted rfl _, n.name.ne_dot_of_mem⟩
    · rcases hmem c hc with rfl | hc
      · decide
      · exact n.name.isBlank_of_mem c hc
    · rcases hmem c hc with rfl | hc
      · decide
      · exact n.name.ne_dot_of_mem c hc
  · exact n.name.isSegment

theorem head?_append (s : List Char) : ∀ c ∈ (n.text ++ s).head?, isBlank c = false := by
  rw [List.head?_append_of_ne_nil _ n.phrase.ne_nil]
  exact n.phrase.trimmed.head

/-- A name in front of a blank is read as it is written. -/
theorem prefers_name {r : List Char} (hr : ∀ c ∈ r.head?, isBlank c = false ∧ c ≠ '.') :
    Prefers Sql.name (n.text ++ ' ' :: r) n.text (' ' :: r) := by
  unfold text
  split
  · have hopen : Only tick ('\x60' :: (n.name.text ++ '\x60' :: ' ' :: r)) ['\x60'] _ := .char rfl
    have hspan : Only (span1 isNameChar) (n.name.text ++ '\x60' :: ' ' :: r) n.name.text _ :=
      n.name.only_span1 (by rintro c ⟨⟩; decide)
    have hclose : Only tick ('\x60' :: ' ' :: r) ['\x60'] (' ' :: r) := .char rfl
    have hread := ((hopen.prefers.opt.append hspan.prefers).append hclose.prefers.opt).append
      (only_star_segment hr).prefers
    have hshape : '\x60' :: (n.name.text ++ ['\x60']) ++ ' ' :: r =
        '\x60' :: (n.name.text ++ '\x60' :: ' ' :: r) := by
      simp
    rw [List.append_nil] at hread
    rw [hshape]
    exact hread
  · exact (n.name.only_name hr).prefers

end WrittenName

/-! ## Values of rows -/

/-- The name that a word of letters is. -/
def PlainName.ofWord {w : String} (k : Cased w) (hne : w.toList ≠ [])
    (hw : ∀ c ∈ lower w.toList, c.isAlpha = true) : PlainName :=
  have hletter : ∀ c ∈ k.text, c.isAlpha = true := by
    intro c hc
    rw [← Unicode.isAlpha_toLower]
    exact hw _ (k.lower_eq ▸ List.mem_map_of_mem hc)
  have htext : k.text ≠ [] := by
    intro hnil
    have hlower := k.lower_eq
    rw [hnil] at hlower
    exact hne (List.map_eq_nil_iff.mp hlower.symm)
  { text := k.text
    head := ⟨k.text.head htext, List.head?_eq_some_head htext,
      by rw [isNameStart, hletter _ (List.head_mem htext), Bool.true_or]⟩
    chars := fun c hc => by rw [Char.isAlphanum, hletter c hc, Bool.true_or, Bool.true_or] }

/-- A value of a row. -/
inductive RowValue where
  /-- An integer or a text in quotes. -/
  | literal (value : Literal)
  /-- A number with a decimal point. -/
  | decimal (sign : Sign) (whole fraction : List Char) (ne_nil : whole ++ fraction ≠ [])
      (isDigit : ∀ c ∈ whole ++ fraction, c.isDigit = true)
  | null (word : Cased "NULL")
  /-- A call without arguments. -/
  | call (function : PlainName)

namespace RowValue

def text : RowValue → List Char
  | literal value => value.text
  | decimal sign whole fraction _ _ => sign.text ++ (whole ++ '.' :: fraction)
  | null word => word.text
  | call function => function.text ++ ['(', ')']

theorem isDecimalChar_decimal {sign : Sign} {whole fraction : List Char}
    (h : ∀ c ∈ whole ++ fraction, c.isDigit = true) :
    ∀ c ∈ sign.text ++ (whole ++ '.' :: fraction), isDecimalChar c = true := by
  refine sign.isDecimalChar_append fun c hc => ?_
  rcases List.mem_append.mp hc with hc | hc
  · exact isDecimalChar_of_isDigit (h c (List.mem_append_left _ hc))
  · rcases List.mem_cons.mp hc with rfl | hc
    · decide
    · exact isDecimalChar_of_isDigit (h c (List.mem_append_right _ hc))

/-- The name `NULL`, in the case in which it is written. -/
def nullName (word : Cased "NULL") : PlainName :=
  .ofWord word (by decide) (List.all_eq_true.mp (by decide))

theorem isItem (v : RowValue) : IsItem v.text := by
  cases v with
  | literal value => exact value.isItem
  | decimal sign whole fraction hne hdigit =>
    exact isItem_of_decimal (isDecimalChar_decimal hdigit) (by simp [text])
  | null word => exact (nullName word).isItem
  | call function => exact function.isItem.append (Shell.isItem_bracketed rfl rfl .nil)

/-- A value is recorded as it is written. -/
theorem mention (v : RowValue) (column : String) :
    valueMention column v.text = .assign column (String.ofList v.text) := by
  have htrim : trim v.text = v.text := v.isItem.trimmed.trim_eq
  cases v with
  | literal value => exact value.mention column htrim
  | decimal sign whole fraction hne hdigit =>
    exact valueMention_of_head (fun c hc => isNameStart_of_isDecimalChar
      (isDecimalChar_decimal hdigit c (List.mem_of_head? hc))) column htrim
  | null word =>
    have hname := (nullName word).valueMention_eq leavesName_nil column
      (htrim.trans (List.append_nil (nullName word).text).symm)
    rwa [List.append_nil] at hname
  | call function =>
    refine function.valueMention_eq ⟨?_, [], ['(', ')'], rfl, nofun, ?_⟩ column htrim <;>
      rintro c ⟨⟩ <;> decide

end RowValue

/-! ## Statements and their texts -/

/-- An `INSERT` with a list of distinct columns and one or more rows. -/
structure Insertion where
  verb : Cased "INSERT"
  into : Cased "INTO"
  table : WrittenName
  columns : List WrittenName
  distinct : (columns.map WrittenName.toString).Nodup
  values : Cased "VALUES"
  first : List RowValue
  others : List (List RowValue)

/-- The text of a row. -/
def rowText (sp : Spacing) (row : List RowValue) : List Char :=
  enclose sp '(' ')' (row.map RowValue.text)

/-- The values of a row, each with the column at its place. -/
def rowPairs (columns : List String) (row : List RowValue) : List (String × String) :=
  columns.zip (row.map fun v => String.ofList v.text)

namespace Insertion

def rows (s : Insertion) : List (List RowValue) :=
  s.first :: s.others

def fields (s : Insertion) : List String :=
  s.columns.map WrittenName.toString

def columnsText (sp : Spacing) (s : Insertion) : List Char :=
  enclose sp '(' ')' (s.columns.map WrittenName.text)

def rowsText (sp : Spacing) (s : Insertion) : List Char :=
  separated sp (s.rows.map (rowText sp))

def text (sp : Spacing) (s : Insertion) : List Char :=
  s.verb.text ++ ' ' :: (s.into.text ++ ' ' :: (s.table.text ++ ' ' ::
    (s.columnsText sp ++ ' ' :: (s.values.text ++ ' ' :: s.rowsText sp))))

end Insertion

/-! ## Rows read -/

variable (sp : Spacing)

theorem isItem_rowValues (row : List RowValue) : ∀ x ∈ row.map RowValue.text, IsItem x :=
  List.forall_mem_map.mpr fun v _ => v.isItem

theorem phrase_rowText (row : List RowValue) : Phrase [] (rowText sp row) :=
  .of_bracketed (Shell.balanced_inside sp (isItem_rowValues row))

theorem isItem_rowTexts (rows : List (List RowValue)) : ∀ x ∈ rows.map (rowText sp), IsItem x :=
  List.forall_mem_map.mpr fun row _ => Shell.isItem_enclose sp rfl rfl (isItem_rowValues row)

theorem inParentheses?_append (s : List Char) : inParentheses? ('(' :: (s ++ [')'])) = some s := by
  simp [inParentheses?]

theorem inParentheses?_enclose (xs : List (List Char)) :
    inParentheses? (enclose sp '(' ')' xs) = some (sp.edge ++ separated sp xs ++ sp.edge) :=
  inParentheses?_append _

/-- What the values of a row mention, each for the column at its place. -/
def valueMentions (columns : List String) (row : List (List Char)) : List Mention :=
  (columns.zip row).map fun p => valueMention p.1 p.2

/-- What an item of a list of rows mentions. -/
def rowItemMentions (columns : List String) (item : List Char) : List Mention :=
  ((inParentheses? item).map fun values => valueMentions columns (splitTop ',' values)).getD []

theorem rowMentions_eq (columns : List String) (rows : List Char) :
    rowMentions columns rows = (splitTop ',' rows).flatMap (rowItemMentions columns) := by
  refine List.flatMap_congr fun row _ => ?_
  rw [rowItemMentions]
  cases inParentheses? row <;> rfl

theorem rowItemMentions_enclose (columns : List String) {xs : List (List Char)}
    (h : ∀ x ∈ xs, IsItem x) :
    rowItemMentions columns (enclose sp '(' ')' xs) = valueMentions columns xs := by
  rw [rowItemMentions, inParentheses?_enclose, Option.map_some, Option.getD_some,
    Shell.splitTop_separated sp h sp.isBlank_edge sp.isBlank_edge]

/-- The values of a row are recorded for the columns at their places. -/
theorem valueMentions_row (columns : List String) (row : List RowValue) :
    valueMentions columns (row.map RowValue.text) =
      (rowPairs columns row).map fun p => .assign p.1 p.2 := by
  rw [valueMentions, rowPairs, List.zip_map_right, List.zip_map_right, List.map_map, List.map_map]
  refine List.map_congr_left fun p _ => ?_
  simp only [Function.comp_apply, Prod.map_fst, Prod.map_snd, id_eq, p.2.mention]

theorem rowMentions_separated (columns : List String) (rows : List (List RowValue)) {gap : List Char}
    (hgap : ∀ c ∈ gap, isBlank c = true) :
    rowMentions columns (gap ++ separated sp (rows.map (rowText sp))) =
      (rows.flatMap (rowPairs columns)).map fun p => .assign p.1 p.2 := by
  have hrows : splitTop ',' (gap ++ separated sp (rows.map (rowText sp)) ++ []) = _ :=
    Shell.splitTop_separated sp (isItem_rowTexts sp rows) hgap (by simp)
  rw [List.append_nil] at hrows
  rw [rowMentions_eq, hrows, List.flatMap_map, List.map_flatMap]
  refine List.flatMap_congr fun row _ => ?_
  rw [rowText, rowItemMentions_enclose sp columns (isItem_rowValues row), valueMentions_row]

/-! ## Statements read -/

theorem read?_insert (verb : Cased "INSERT") (into : Cased "INTO") (table : WrittenName)
    {r : List Char} (hr : ∀ c ∈ r.head?, isBlank c = false ∧ c ≠ '.') :
    Statement.read? (verb.text ++ ' ' :: (into.text ++ ' ' :: (table.text ++ ' ' :: r))) =
      some (.insert table.text (' ' :: r)) := by
  have hinto : ∀ c ∈ (into.text ++ ' ' :: (table.text ++ ' ' :: r)).head?, isBlank c = false :=
    fun c hc => (head?_keyword into (by decide) _ c hc).1
  have hverb : Prefers (oneOf [word "INSERT", word "REPLACE"])
      (verb.text ++ ' ' :: (into.text ++ ' ' :: (table.text ++ ' ' :: r))) verb.text _ :=
    .oneOf_cons (verb.only_word (by decide)).prefers
  have hhead := (((hverb.append (Only.blanks1 hinto).prefers).append
    (only_modifiers_keyword into ["LOW_PRIORITY", "DELAYED", "HIGH_PRIORITY", "IGNORE"] (by decide)
      (table.text ++ ' ' :: r)).prefers).append (into.only_word (by decide)).prefers).append
    (Only.blanks1 (table.head?_append (' ' :: r))).prefers
  unfold Statement.read?
  apply Prefers.read?_eq (r := [])
  refine .oneOf_cons_of_nil (bind_eq_nil _ (append_eq_nil _ (append_eq_nil _
    (verb.word_eq_nil (by decide))))) (.oneOf_cons ?_)
  exact hhead.bind ((table.prefers_name hr).bind (Prefers.bind (f := rest) rfl rfl))

/-- What stands behind a list of columns is looked through for rows. -/
theorem insertMentions_columns {columns : List (List Char)} (h : ∀ x ∈ columns, IsItem x)
    {gap : List Char} (hgap : ∀ c ∈ gap, isBlank c = true) (r : List Char) :
    insertMentions (gap ++ (enclose sp '(' ')' columns ++ r)) =
      (columns.map fieldName).map .touch ++
        ((afterValues? r).map (rowMentions (columns.map fieldName))).getD [] := by
  have hcut := cutAtPartner?_bracketed (o := '(') (c := ')') rfl rfl (Shell.balanced_inside sp h) r
  have hstart : trimStart (gap ++ (enclose sp '(' ')' columns ++ r)) =
      '(' :: (sp.edge ++ separated sp columns ++ sp.edge ++ ')' :: r) := by
    rw [trimStart_blank_append hgap, trimStart_of_head (by rintro c ⟨⟩; decide)]
    simp [enclose]
  unfold insertMentions
  simp only [hstart, hcut, List.head?_cons, beq_self_eq_true, if_true, List.drop_succ_cons,
    List.drop_zero, Shell.splitTop_separated sp h sp.isBlank_edge sp.isBlank_edge]

/-- Behind the columns the first `VALUES` is the one in front of the rows. -/
theorem afterValues?_keyword (k : Cased "VALUES") (rows : List Char) :
    afterValues? (' ' :: (k.text ++ ' ' :: rows)) = some (' ' :: rows) := by
  have hcut := cutAtKeyword?_append (w := "VALUES") (by decide) .nil k rows
  rw [List.nil_append] at hcut
  rw [afterValues?, hcut]
  rfl

namespace Insertion

variable (s : Insertion)

theorem isItem_columns : ∀ x ∈ s.columns.map WrittenName.text, IsItem x :=
  List.forall_mem_map.mpr fun n _ => n.isItem

theorem phrase : Phrase [] (s.text sp) := by
  have hcolumns : Phrase [] (s.columnsText sp) :=
    .of_bracketed (Shell.balanced_inside sp s.isItem_columns)
  have hrow : ∀ x ∈ s.rows.map (rowText sp), Phrase [] x :=
    List.forall_mem_map.mpr fun row _ => phrase_rowText sp row
  have hrows : Phrase [] (s.rowsText sp) := phrase_separated sp hrow
  exact (s.verb.phrase (by decide) (by simp)).spaced ((s.into.phrase (by decide) (by simp)).spaced
    (s.table.phrase.spaced (hcolumns.spaced ((s.values.phrase (by decide) (by simp)).spaced hrows))))

/-- The columns are named first, and then the values of the rows are recorded. -/
theorem insertMentions_text :
    insertMentions (' ' :: (s.columnsText sp ++ ' ' :: (s.values.text ++ ' ' :: s.rowsText sp))) =
      s.fields.map .touch ++ (s.rows.flatMap (rowPairs s.fields)).map fun p => .assign p.1 p.2 := by
  have hfields : (s.columns.map WrittenName.text).map fieldName = s.fields := by
    rw [List.map_map]
    exact List.map_congr_left fun n _ => n.isSegment.fieldName_eq
  have hmentions := insertMentions_columns sp s.isItem_columns isBlank_space
    (' ' :: (s.values.text ++ ' ' :: s.rowsText sp))
  have hrows : rowMentions s.fields (' ' :: s.rowsText sp) = _ :=
    rowMentions_separated sp s.fields s.rows isBlank_space
  rw [hfields, afterValues?_keyword, Option.map_some, Option.getD_some, hrows] at hmentions
  exact hmentions

/-- An `INSERT` touches its columns in order, and records the values of each row for the columns at
their places, row by row. -/
theorem footprint_insert :
    SchemaLint.footprint .mysql (s.text sp) = {
      target := some s.table.toString
      fields := s.fields
      values := s.rows.flatMap (rowPairs s.fields) } := by
  have hread := read?_insert s.verb s.into s.table
    (r := s.columnsText sp ++ ' ' :: (s.values.text ++ ' ' :: s.rowsText sp))
    (by rintro c ⟨⟩; decide)
  have hdistinct : s.fields.Nodup := s.distinct
  have hne : ∀ c ∈ s.fields, c ≠ "" :=
    List.forall_mem_map.mpr fun n _ => by simpa [WrittenName.toString] using n.name.ne_nil
  have hvalues : ∀ p ∈ s.rows.flatMap (rowPairs s.fields), p.1 ∈ s.fields := by
    intro p hp
    obtain ⟨row, -, hp⟩ := List.mem_flatMap.mp hp
    exact (List.of_mem_zip hp).1
  change footprint (s.text sp) = _
  rw [footprint, statementOf_phrase (s.phrase sp), text, hread, Option.map_some, Option.getD_some,
    Statement.footprint, s.table.isSegment.targetName_eq, s.insertMentions_text,
    Footprint.ofMentions_columns hdistinct hne hvalues]
  rfl

/-- A text with a doubled quote, a doubled backslash and the word `VALUES` is one value. -/
theorem footprint_insert_notes : SchemaLint.footprint .mysql
    "INSERT INTO `users` (id,`note`) VALUES (-1.5,'a'', VALUES (\\\\'),(NULL,NOW())".toList = {
      target := some "users"
      fields := ["id", "note"]
      values := [("id", "-1.5"), ("note", "'a'', VALUES (\\\\'"), ("id", "NULL"),
        ("note", "NOW()")] } := by
  have hread := footprint_insert .tight {
    verb := ⟨"INSERT".toList, rfl⟩
    into := ⟨"INTO".toList, rfl⟩
    table := ⟨⟨"users".toList, ⟨'u', rfl, rfl⟩, List.all_eq_true.mp rfl⟩, true⟩
    columns := [⟨⟨"id".toList, ⟨'i', rfl, rfl⟩, List.all_eq_true.mp rfl⟩, false⟩,
      ⟨⟨"note".toList, ⟨'n', rfl, rfl⟩, List.all_eq_true.mp rfl⟩, true⟩]
    distinct := by decide
    values := ⟨"VALUES".toList, rfl⟩
    first := [.decimal .minus ['1'] ['5'] (by decide) (List.all_eq_true.mp rfl),
      .literal (.string "a', VALUES (\\".toList)]
    others := [[.null ⟨"NULL".toList, rfl⟩,
      .call ⟨"NOW".toList, ⟨'N', rfl, rfl⟩, List.all_eq_true.mp rfl⟩]] }
  refine (congrArg (SchemaLint.footprint .mysql) ?_).trans (hread.trans ?_) <;> decide +kernel

end Insertion

end SchemaLint.Sql
