import SchemaLint.Proofs.Sql.Column
import SchemaLint.Proofs.Sql.Head
import SchemaLint.Proofs.Sql.Insertion
import SchemaLint.Proofs.Sql.Tail

/-!
# Rows with a tail

An `INSERT` of rows (`RowInsert`) may be followed by `ON DUPLICATE KEY UPDATE` and a list of settings
(`Duplicate`). The rows are split at commas, and an item is a row when it begins with an opening and
ends with a closing parenthesis. So the last row is an item with the tail up to its first comma: it is
dropped, or its last value goes on with the tail (`RowInsert.footprint_duplicate`).
-/

namespace SchemaLint.Sql

open Form Nesting Text
open Shell (IsItem Spacing separated enclose)

/-! ## Statements and tails -/

/-- An expression between commas. -/
abbrev Element :=
  { s : List Char // IsItem s }

/-- A word between commas. -/
def Element.ofWord (s : List Char) (hne : s ≠ []) (h : s.all Shell.isWordChar = true) : Element :=
  ⟨s, Shell.isItem_of_word (List.all_eq_true.mp h) hne⟩

/-- A call with one argument. -/
def Element.call (function argument : Element) : Element :=
  ⟨function.val ++ '(' :: (argument.val ++ [')']),
    function.property.append (Shell.isItem_bracketed rfl rfl argument.property.balanced)⟩

/-- Expressions as they are written. -/
def texts (xs : List Element) : List (List Char) :=
  xs.map Subtype.val

theorem isItem_texts (xs : List Element) : ∀ x ∈ texts xs, IsItem x :=
  List.forall_mem_map.mpr fun x _ => x.property

/-- A row of values with its parentheses. -/
def enclosed (sp : Spacing) (row : List Element) : List Char :=
  enclose sp '(' ')' (texts row)

/-- An `INSERT` of rows, whatever its values are. -/
structure RowInsert (sp : Spacing) where
  /-- What stands in front of the columns. -/
  head : List Char
  table : List Char
  gap : List Char
  columns : List Element
  values : Cased "VALUES"
  /-- All rows but the last. -/
  rows : List (List Element)
  /-- All values of the last row but the last. -/
  init : List Element
  last : Element
  isBlank_gap : ∀ c ∈ gap, isBlank c = true
  read?_eq : Statement.read? (head ++ enclosed sp columns) =
    some (.insert table (gap ++ enclosed sp columns))
  whole : Whole (head ++ enclosed sp columns ++ ' ' :: (values.text ++ ' ' ::
    separated sp ((rows ++ [init ++ [last]]).map (enclosed sp))))

/-- The words `ON DUPLICATE KEY UPDATE`. -/
structure OnDuplicate where
  on : Cased "ON"
  duplicate : Cased "DUPLICATE"
  key : Cased "KEY"
  update : Cased "UPDATE"

def OnDuplicate.text (w : OnDuplicate) : List Char :=
  w.on.text ++ ' ' :: (w.duplicate.text ++ ' ' :: (w.key.text ++ ' ' :: (w.update.text ++ [' '])))

/-- A column with an expression that is written to it. -/
def settingText (sp : Spacing) (p : Reference × Element) : List Char :=
  p.1.set sp p.2.val

/-- A tail with what is written to columns when there is a row with the same key. -/
structure Duplicate (sp : Spacing) where
  words : OnDuplicate
  first : Reference × Element
  others : List (Reference × Element)
  whole : Whole (words.text ++ separated sp ((first :: others).map (settingText sp)))

/-! ## Tails up to their first comma -/

namespace Duplicate

variable {sp : Spacing} (d : Duplicate sp)

def text : List Char :=
  d.words.text ++ separated sp ((d.first :: d.others).map (settingText sp))

/-- The words with the first setting. -/
def opening : List Char :=
  d.words.text ++ settingText sp d.first

theorem whole_text : Whole d.text :=
  d.whole

theorem isItem_setting (p : Reference × Element) : IsItem (settingText sp p) :=
  p.1.isItem_set sp p.2.property

theorem isItem_others : ∀ x ∈ d.others.map (settingText sp), IsItem x :=
  List.forall_mem_map.mpr fun p _ => isItem_setting p

theorem closed_words : Balanced d.words.text ∧ Hides (· == ',') d.words.text := by
  refine SchemaLint.closed_words fun c hc => ?_
  simp only [OnDuplicate.text, List.mem_append, List.mem_cons, List.not_mem_nil, or_false] at hc
  rcases hc with hc | rfl | hc | rfl | hc | rfl | hc | rfl
  · exact .inl (d.words.on.isIdentChar_of_mem (by decide) c hc)
  · exact .inr rfl
  · exact .inl (d.words.duplicate.isIdentChar_of_mem (by decide) c hc)
  · exact .inr rfl
  · exact .inl (d.words.key.isIdentChar_of_mem (by decide) c hc)
  · exact .inr rfl
  · exact .inl (d.words.update.isIdentChar_of_mem (by decide) c hc)
  · exact .inr rfl

theorem isItem_opening : IsItem d.opening := by
  obtain ⟨hbalanced, hhides⟩ := d.closed_words
  have hsetting : IsItem (settingText sp d.first) := isItem_setting d.first
  have hne : d.words.on.text ≠ [] := d.words.on.text_ne_nil (by decide)
  refine ⟨hbalanced.append hsetting.balanced, hhides.append hbalanced hsetting.hides_comma,
    ⟨?_, ?_⟩, by simp [opening, hsetting.ne_nil]⟩
  · rw [opening, OnDuplicate.text, List.append_assoc, List.head?_append_of_ne_nil _ hne]
    exact fun c hc => (isPlain_of_isStop (isStop_of_isIdentChar
      (d.words.on.isIdentChar_of_mem (by decide) c (List.mem_of_head? hc)))).2
  · rw [opening, List.getLast?_append_of_ne_nil _ hsetting.ne_nil]
    exact hsetting.trimmed.last

/-- The tail ends with a parenthesis before its first comma when its first expression does. -/
theorem getLast?_opening : d.opening.getLast? = d.first.2.val.getLast? := by
  have hitem := d.first.2.property
  rw [opening, settingText, Reference.set, ← List.cons_append, ← List.append_assoc,
    ← List.append_assoc, List.getLast?_append_of_ne_nil _ hitem.ne_nil]

theorem upToComma_text : ∃ gap, (∀ c ∈ gap, isBlank c = true) ∧
    upToComma d.text = d.opening ++ gap := by
  obtain ⟨hbalanced, hhides⟩ := d.closed_words
  obtain ⟨⟨gap, hgap, hup⟩, -⟩ := first_separated sp (isItem_setting d.first) d.isItem_others
  refine ⟨gap, hgap, ?_⟩
  rw [text, upToComma_append (hbalanced.after_eq 0) hhides, List.map_cons, hup, opening,
    List.append_assoc]

theorem splitTop_behindComma : splitTop ',' (behindComma d.text) =
    d.others.map (settingText sp) := by
  obtain ⟨hbalanced, hhides⟩ := d.closed_words
  obtain ⟨-, hbehind⟩ := first_separated sp (isItem_setting d.first) d.isItem_others
  rw [text, behindComma_append (hbalanced.after_eq 0) hhides, List.map_cons, hbehind]

end Duplicate

/-! ## Rows with a tail -/

section Items

variable {columns : List String} {item : List Char}

/-- An item that does not begin like a row is none. -/
theorem rowItemMentions_of_head? (h : item.head? ≠ some '(') : rowItemMentions columns item = [] := by
  have hnone : inParentheses? item = none := by
    unfold inParentheses?
    split
    · exact absurd rfl h
    · rfl
  rw [rowItemMentions, hnone, Option.map_none, Option.getD_none]

/-- An item that does not end like a row is none. -/
theorem rowItemMentions_of_getLast? (h : item.getLast? ≠ some ')') :
    rowItemMentions columns item = [] := by
  have hnone : inParentheses? item = none := by
    unfold inParentheses?
    split
    · next s =>
      rw [if_neg]
      intro hs
      have hs : s.getLast? = some ')' := beq_iff_eq.mp hs
      rw [List.getLast?_cons, hs] at h
      exact h rfl
    · rfl
  rw [rowItemMentions, hnone, Option.map_none, Option.getD_none]

theorem rowItemMentions_setting (sp : Spacing) (p : Reference × Element) :
    rowItemMentions columns (settingText sp p) = [] := by
  refine rowItemMentions_of_head? fun hhead => ?_
  rw [settingText, Reference.set, List.append_assoc, List.head?_append_of_ne_nil _ p.1.text_ne_nil]
    at hhead
  rcases p.1.mem_text (List.mem_of_head? hhead) with h | h | h <;> exact absurd h (by decide)

/-- In a row that goes on behind its closing parenthesis up to another one, the last value goes on. -/
theorem rowItemMentions_append (sp : Spacing) (init : List Element) (last : Element) {x : List Char}
    (hx : Hides (· == ',') x) :
    rowItemMentions columns (enclosed sp (init ++ [last]) ++ ' ' :: (x ++ [')'])) =
      valueMentions columns
        (texts init ++ [trim (last.val ++ (sp.edge ++ ')' :: ' ' :: x))]) := by
  have hinside : enclosed sp (init ++ [last]) ++ ' ' :: (x ++ [')']) = '(' :: (sp.edge ++
      (separated sp (texts init ++ [last.val]) ++ (sp.edge ++ ')' :: ' ' :: x)) ++ [')']) := by
    simp [enclosed, enclose, texts]
  have hlast : Hides (· == ',') (last.val ++ (sp.edge ++ ')' :: ' ' :: x)) := by
    have hvalue : Balanced (last.val ++ sp.edge) :=
      last.property.balanced.append (.of_blank sp.isBlank_edge)
    have hhides : Hides (· == ',') (last.val ++ sp.edge) :=
      last.property.hides_comma.append last.property.balanced (.of_blank sp.isBlank_edge (by decide))
    -- The closing parenthesis closes nothing here, and leaves its reader outside of all brackets.
    have hclose : start.after (last.val ++ sp.edge ++ [')', ' ']) = start := by
      rw [after_append, start_eq, hvalue.after_eq]
      rfl
    have hparen : Hides (· == ',') (last.val ++ sp.edge ++ [')', ' ']) :=
      hhides.append hvalue (.of_forall (by simp))
    have := Hides.append_of_after hclose hparen hx
    simpa using this
  have hne : trim (last.val ++ (sp.edge ++ ')' :: ' ' :: x)) ≠ [] := by
    obtain ⟨c, hc⟩ := Option.isSome_iff_exists.mp (List.isSome_head?.mpr last.property.ne_nil)
    obtain ⟨-, -, -, hne⟩ := exists_append_trim_of_head
      (s := last.val ++ (sp.edge ++ ')' :: ' ' :: x)) ⟨c, by
        rw [List.head?_append_of_ne_nil _ last.property.ne_nil]
        exact hc, last.property.trimmed.head c hc⟩
    exact hne
  rw [hinside, rowItemMentions, inParentheses?_append, Option.map_some, Option.getD_some,
    Shell.splitTop_blank_append sp.isBlank_edge,
    Shell.splitTop_separated_append sp (isItem_texts init), splitTop_of_hides hlast hne]

end Items

section Rows

variable (sp : Spacing) (columns : List String) (rows : List (List Element))

theorem isItem_enclosed (row : List Element) : IsItem (enclosed sp row) :=
  Shell.isItem_enclose sp rfl rfl (isItem_texts row)

theorem flatMap_enclosed : (rows.map (enclosed sp)).flatMap (rowItemMentions columns) =
    rows.flatMap fun row => valueMentions columns (texts row) := by
  rw [List.flatMap_map]
  exact List.flatMap_congr fun row _ => rowItemMentions_enclose sp columns (isItem_texts row)

theorem rowMentions_enclosed : rowMentions columns (' ' :: separated sp (rows.map (enclosed sp))) =
    rows.flatMap fun row => valueMentions columns (texts row) := by
  have hitems : ∀ x ∈ rows.map (enclosed sp), IsItem x :=
    List.forall_mem_map.mpr fun row _ => isItem_enclosed sp row
  have hsplit := Shell.splitTop_separated sp hitems isBlank_space isBlank_nil
  rw [List.append_nil, List.singleton_append] at hsplit
  rw [rowMentions_eq, hsplit, flatMap_enclosed]

variable {sp} (d : Duplicate sp) (row : List Element)

/-- With a tail behind it the last row is one item with the words of the tail and the first setting. -/
theorem splitTop_rows : splitTop ',' (' ' :: (separated sp ((rows ++ [row]).map (enclosed sp)) ++
      ' ' :: d.text)) =
    rows.map (enclosed sp) ++
      (enclosed sp row ++ ' ' :: d.opening) :: d.others.map (settingText sp) := by
  have hrow := isItem_enclosed sp row
  have hitems : ∀ x ∈ rows.map (enclosed sp), IsItem x :=
    List.forall_mem_map.mpr fun row _ => isItem_enclosed sp row
  have hafter : start.after (enclosed sp row ++ [' ']) = start :=
    (hrow.balanced.append (.of_blank isBlank_space)).after_eq 0
  have hhides : Hides (· == ',') (enclosed sp row ++ [' ']) :=
    hrow.hides_comma.append hrow.balanced (.of_blank isBlank_space (by decide))
  obtain ⟨gap, hgap, hup⟩ := d.upToComma_text
  have hopening := d.isItem_opening
  have htrim : trim (enclosed sp row ++ [' '] ++ (d.opening ++ gap)) =
      enclosed sp row ++ ' ' :: d.opening := by
    rw [← List.append_assoc, trim_append_blank hgap, List.append_assoc, List.singleton_append]
    exact (hrow.trimmed.spaced hopening.trimmed hrow.ne_nil hopening.ne_nil).trim_eq
  have hfirst : trim (upToComma (enclosed sp row ++ [' '] ++ d.text)) =
      enclosed sp row ++ ' ' :: d.opening := by
    rw [upToComma_append hafter hhides, hup, htrim]
  rw [List.map_append, List.map_singleton, ← List.singleton_append,
    Shell.splitTop_blank_append isBlank_space, Shell.splitTop_separated_append sp hitems,
    List.append_cons (enclosed sp row), splitTop_eq (by rw [hfirst]; simp), hfirst,
    behindComma_append hafter hhides, d.splitTop_behindComma]

/-- A tail costs a statement the values of the last row, unless the first expression of the tail ends
with a parenthesis; then the last value goes on up to it. -/
theorem rowMentions_duplicate (init : List Element) (last : Element) :
    rowMentions columns (' ' :: (separated sp ((rows ++ [init ++ [last]]).map (enclosed sp)) ++
        ' ' :: d.text)) =
      (rows.flatMap fun row => valueMentions columns (texts row)) ++
        if d.first.2.val.getLast? = some ')' then valueMentions columns (texts init ++
          [trim (last.val ++ (sp.edge ++ ')' :: ' ' :: d.opening.dropLast))])
        else [] := by
  have hsettings : (d.others.map (settingText sp)).flatMap (rowItemMentions columns) = [] := by
    rw [List.flatMap_map, List.flatMap_eq_nil_iff]
    exact fun p _ => rowItemMentions_setting sp p
  have hlast := d.getLast?_opening
  rw [rowMentions_eq, splitTop_rows, List.flatMap_append, List.flatMap_cons, hsettings,
    List.append_nil, flatMap_enclosed]
  congr 1
  split
  · next hparen =>
    rw [hparen] at hlast
    obtain ⟨x, hx⟩ := List.getLast?_eq_some_iff.mp hlast
    have hopening := d.isItem_opening.hides_comma
    rw [hx] at hopening ⊢
    rw [List.dropLast_concat, rowItemMentions_append sp init last hopening.of_append]
  · next hparen =>
    refine rowItemMentions_of_getLast? ?_
    rw [List.append_cons, List.getLast?_append_of_ne_nil _ d.isItem_opening.ne_nil, hlast]
    exact hparen

end Rows

/-! ## Footprints -/

namespace RowInsert

variable {sp : Spacing} (s : RowInsert sp)

/-- The rows of a statement as they are written. -/
def list : List Char :=
  separated sp ((s.rows ++ [s.init ++ [s.last]]).map (enclosed sp))

def text : List Char :=
  s.head ++ enclosed sp s.columns ++ ' ' :: (s.values.text ++ ' ' :: s.list)

def fields : List String :=
  (texts s.columns).map fieldName

/-- What is put behind the rows is read with them. -/
theorem footprint_append {r : List Char} (hr : Whole (s.text ++ r)) :
    SchemaLint.footprint .mysql (s.text ++ r) = .ofMentions (targetName s.table)
      (s.fields.map .touch ++ rowMentions s.fields (' ' :: (s.list ++ r))) := by
  have hparen : '(' ∈ s.head ++ enclosed sp s.columns :=
    List.mem_append_right _ List.mem_cons_self
  have hread := Statement.read?_append (.inl hparen)
    (' ' :: (s.values.text ++ ' ' :: (s.list ++ r)))
  have hshape : s.text ++ r = s.head ++ enclosed sp s.columns ++
      ' ' :: (s.values.text ++ ' ' :: (s.list ++ r)) := by
    simp [text]
  have hmentions := insertMentions_columns sp (isItem_texts s.columns) s.isBlank_gap
    (' ' :: (s.values.text ++ ' ' :: (s.list ++ r)))
  rw [afterValues?_keyword, Option.map_some, Option.getD_some, ← enclosed, ← List.append_assoc]
    at hmentions
  change footprint _ = _
  rw [footprint, hr.statementOf_eq, hshape, hread, s.read?_eq, Option.map_some, Option.map_some,
    Option.getD_some, Statement.append, Statement.footprint, hmentions]
  rfl

/-- An `INSERT` of rows touches its columns and records the values of each row for the columns at their
places. With a tail behind it all rows but the last are recorded as before; the values of the last
row are dropped, or the last one goes on with the tail. -/
theorem footprint_duplicate (d : Duplicate sp) :
    SchemaLint.footprint .mysql s.text = .ofMentions (targetName s.table) (s.fields.map .touch ++
      (s.rows ++ [s.init ++ [s.last]]).flatMap fun row => valueMentions s.fields (texts row)) ∧
    SchemaLint.footprint .mysql (s.text ++ ' ' :: d.text) = .ofMentions (targetName s.table)
      (s.fields.map .touch ++ ((s.rows.flatMap fun row => valueMentions s.fields (texts row)) ++
        if d.first.2.val.getLast? = some ')' then valueMentions s.fields (texts s.init ++
          [trim (s.last.val ++ (sp.edge ++ ')' :: ' ' :: d.opening.dropLast))])
        else [])) := by
  constructor
  · have hplain := s.footprint_append (r := []) (by rw [List.append_nil]; exact s.whole)
    rw [List.append_nil, List.append_nil, list, rowMentions_enclosed] at hplain
    exact hplain
  · rw [s.footprint_append (s.whole.spaced d.whole_text), list, rowMentions_duplicate]

/-- One tail goes on in the last value, the other one costs the last row. -/
theorem footprint_duplicate_rows :
    SchemaLint.footprint .mysql
        "INSERT INTO t (a,b) VALUES (1,2),(3,4) ON DUPLICATE KEY UPDATE a=VALUES(a)".toList = {
      target := some "t"
      fields := ["a", "b"]
      values := [("a", "1"), ("b", "2"), ("a", "3"),
        ("b", "4) ON DUPLICATE KEY UPDATE a=VALUES(a")] } ∧
    SchemaLint.footprint .mysql
        "INSERT INTO t (a,b) VALUES (1,2),(3,4) ON DUPLICATE KEY UPDATE a=a+1".toList = {
      target := some "t"
      fields := ["a", "b"]
      values := [("a", "1"), ("b", "2")] } := by
  let rows : RowInsert .tight := {
    head := "INSERT INTO t ".toList
    table := ['t']
    gap := [' ']
    columns := [.ofWord ['a'] (by decide) rfl, .ofWord ['b'] (by decide) rfl]
    values := ⟨"VALUES".toList, rfl⟩
    rows := [[.ofWord ['1'] (by decide) rfl, .ofWord ['2'] (by decide) rfl]]
    init := [.ofWord ['3'] (by decide) rfl]
    last := .ofWord ['4'] (by decide) rfl
    isBlank_gap := isBlank_space
    read?_eq := by decide +kernel
    whole := by decide +kernel }
  have htail := fun (x : Element) (h : Whole ("ON DUPLICATE KEY UPDATE a=".toList ++ x.val)) =>
    (rows.footprint_duplicate {
      words := ⟨⟨"ON".toList, rfl⟩, ⟨"DUPLICATE".toList, rfl⟩, ⟨"KEY".toList, rfl⟩,
        ⟨"UPDATE".toList, rfl⟩⟩
      first := (⟨⟨['a'], false, by decide, List.all_eq_true.mp (by decide +kernel)⟩, []⟩, x)
      others := []
      whole := h }).2
  have hcall := htail (.call (.ofWord "VALUES".toList (by decide) rfl) (.ofWord ['a'] (by decide) rfl))
    (by decide +kernel)
  have hsum := htail (.ofWord "a+1".toList (by decide) rfl) (by decide +kernel)
  constructor
  · refine (congrArg (SchemaLint.footprint .mysql) ?_).trans (hcall.trans ?_) <;> decide +kernel
  · refine (congrArg (SchemaLint.footprint .mysql) ?_).trans (hsum.trans ?_) <;> decide +kernel

end RowInsert

end SchemaLint.Sql
