import SchemaLint.Proofs.Sql.Change
import SchemaLint.Proofs.Sql.Column
import SchemaLint.Proofs.Sql.Head
import SchemaLint.Proofs.Sql.Tail

/-!
# Tails of updates

An `UPDATE` (`Update`) writes literals to columns and may have a `WHERE` clause. The words that end a
clause, such as `ORDER` and `LIMIT`, are only looked for behind the `WHERE`. So a tail that begins with
one of them (`Tail`) changes nothing behind a clause; without a clause it belongs to the list of
settings, and its beginning is recorded with the last literal (`Update.footprint_tail`).
-/

namespace SchemaLint.Sql

open Form Nesting Text
open Shell (IsItem Spacing separated)

/-- A word behind a blank is no text that a name goes on with. -/
theorem leavesName_spaced {p : List Char} (h : ∃ c ∈ p.head?, isIdentChar c = true) :
    LeavesName (' ' :: p) := by
  obtain ⟨c, hc, hident⟩ := h
  refine ⟨by rintro d ⟨⟩; decide, [' '], p, rfl, isBlank_space, fun d hd => ?_⟩
  obtain rfl := Option.some.inj (hc.symm.trans hd)
  refine ⟨(isPlain_of_isStop (isStop_of_isIdentChar hident)).2, fun hmem => ?_⟩
  simp only [List.mem_cons, List.not_mem_nil, or_false] at hmem
  rcases hmem with rfl | rfl | rfl | rfl | rfl | rfl <;> exact absurd hident (by decide)

/-! ## Settings -/

/-- A literal of any kind. -/
inductive Constant where
  /-- A number or a text in quotes, which begins like no name. -/
  | symbol (text : List Char) (isItem : IsItem text)
      (head : ∀ c ∈ text.head?, isNameStart c = false ∧ (c == '\x60') = false)
  /-- A word such as `NULL`. -/
  | word (name : PlainName)

namespace Constant

def text : Constant → List Char
  | symbol text _ _ => text
  | word name => name.text

theorem isItem (v : Constant) : IsItem v.text := by
  cases v with
  | symbol text isItem head => exact isItem
  | word name => exact name.isItem

/-- A literal is recorded with what stands behind it. -/
theorem mention_append (v : Constant) {tail : List Char} (htail : LeavesName tail) (field : String)
    {value : List Char} (h : trim value = v.text ++ tail) :
    valueMention field value = .assign field (String.ofList (v.text ++ tail)) := by
  cases v with
  | symbol text isItem head =>
    refine valueMention_of_head (fun c hc => head c ?_) field h
    rwa [Constant.text, List.head?_append_of_ne_nil _ isItem.ne_nil] at hc
  | word name => exact name.valueMention_eq htail field h

end Constant

/-- What an item of a list of settings mentions. -/
def itemMention? (item : List Char) : Option Mention :=
  (cutAtTop? '=' item).map fun p => valueMention (fieldName p.1) p.2

theorem setMentions_eq (list : List Char) :
    setMentions list = (splitTop ',' list).filterMap itemMention? :=
  rfl

/-- A literal that is written to a column. -/
structure Setting where
  column : Reference
  value : Constant

namespace Setting

variable (sp : Spacing) (a : Setting)

def text : List Char :=
  a.column.set sp a.value.text

def field : String :=
  String.ofList a.column.last.chars

def mention : Mention :=
  .assign a.field (String.ofList a.value.text)

theorem isItem : IsItem (a.text sp) :=
  a.column.isItem_set sp a.value.isItem

/-- A setting is cut at its sign, and all that stands behind the sign is the value. -/
theorem itemMention?_append {tail : List Char} (htail : LeavesName tail)
    (hlast : ∀ c ∈ tail.getLast?, isBlank c = false) :
    itemMention? (a.text sp ++ tail) =
      some (.assign a.field (String.ofList (a.value.text ++ tail))) := by
  have hbefore := Balanced.of_blank sp.isBlank_before
  have hcut : cutAtTop? '=' (a.text sp ++ tail) =
      some (a.column.text ++ sp.before, sp.after ++ (a.value.text ++ tail)) := by
    have hhides : Hides (· == '=') (a.column.text ++ sp.before) :=
      (a.column.hides (by decide) (by decide)).append a.column.balanced
        (.of_blank sp.isBlank_before (by decide))
    have hcut := cutAtTop?_append (by decide) (a.column.balanced.append hbefore) hhides
      (sp.after ++ (a.value.text ++ tail))
    simpa [text, Reference.set] using hcut
  have hvalue : trim (sp.after ++ (a.value.text ++ tail)) = a.value.text ++ tail := by
    rw [trim_blank_append sp.isBlank_after]
    exact (a.value.isItem.trimmed.append a.value.isItem.ne_nil hlast).trim_eq
  rw [itemMention?, hcut, Option.map_some, fieldName_append_blank sp.isBlank_before,
    a.column.fieldName_text, a.value.mention_append htail _ hvalue, field]

end Setting

/-- A list of settings as it is written. -/
def settingsText (sp : Spacing) (xs : List Setting) : List Char :=
  separated sp (xs.map (Setting.text sp))

section Settings

variable (sp : Spacing) (init : List Setting) (last : Setting)

theorem isItem_settings (xs : List Setting) : ∀ x ∈ xs.map (Setting.text sp), IsItem x :=
  List.forall_mem_map.mpr fun a _ => a.isItem sp

theorem after_settingsText (xs : List Setting) : start.after (settingsText sp xs) = start :=
  (Shell.balanced_separated sp (isItem_settings sp xs)).after_eq 0

/-- What stands behind a list of settings goes into its last value, up to the first comma. -/
theorem setMentions_append {t tail : List Char} (htail : LeavesName tail)
    (hlast : ∀ c ∈ tail.getLast?, isBlank c = false)
    (hfirst : trim (last.text sp ++ upToComma t) = last.text sp ++ tail) :
    setMentions (settingsText sp (init ++ [last]) ++ t) = init.map Setting.mention ++
      .assign last.field (String.ofList (last.value.text ++ tail)) :: setMentions (behindComma t) := by
  have hitem := last.isItem sp
  have hafter : start.after (last.text sp) = start := hitem.balanced.after_eq 0
  have hinit : (init.map (Setting.text sp)).filterMap itemMention? = init.map Setting.mention := by
    rw [List.filterMap_map, ← List.filterMap_eq_map']
    refine List.filterMap_congr fun a _ => ?_
    have hcut := a.itemMention?_append sp leavesName_nil (by simp)
    rwa [List.append_nil, List.append_nil] at hcut
  have hsplit : splitTop ',' (last.text sp ++ t) =
      (last.text sp ++ tail) :: splitTop ',' (behindComma t) := by
    have hne : trim (upToComma (last.text sp ++ t)) ≠ [] := by
      rw [upToComma_append hafter hitem.hides_comma, hfirst]
      simp [hitem.ne_nil]
    rw [splitTop_eq hne, upToComma_append hafter hitem.hides_comma, hfirst,
      behindComma_append hafter hitem.hides_comma]
  rw [setMentions_eq, settingsText, List.map_append, List.map_singleton,
    Shell.splitTop_separated_append sp (isItem_settings sp init), hsplit, List.filterMap_append, hinit,
    List.filterMap_cons_some (last.itemMention?_append sp htail hlast), ← setMentions_eq]

/-- Blanks behind a list of settings change nothing. -/
theorem setMentions_settingsText {gap : List Char} (hgap : ∀ c ∈ gap, isBlank c = true) :
    setMentions (settingsText sp (init ++ [last]) ++ gap) =
      (init ++ [last]).map Setting.mention := by
  have hhides : Hides (· == ',') gap := .of_blank hgap (by decide)
  have hafter : start.after gap = start := (Balanced.of_blank hgap).after_eq 0
  have hup := upToComma_append hafter hhides []
  have hbehind := behindComma_append hafter hhides []
  rw [List.append_nil] at hup hbehind
  have hnil : upToComma [] = [] ∧ behindComma [] = [] := ⟨rfl, rfl⟩
  rw [hnil.1, List.append_nil] at hup
  rw [hnil.2] at hbehind
  rw [setMentions_append sp init last leavesName_nil (by simp) (by
    rw [hup, trim_append_blank hgap, (last.isItem sp).trimmed.trim_eq, List.append_nil]),
    hbehind, List.append_nil, List.map_append]
  rfl

end Settings

/-! ## Statements -/

/-- An `UPDATE` without a clause. -/
structure Update (sp : Spacing) where
  /-- What stands in front of the settings. -/
  head : List Char
  table : List Char
  /-- All settings but the last. -/
  init : List Setting
  last : Setting
  read?_eq : Statement.read? (head ++ settingsText sp (init ++ [last])) =
    some (.update table (settingsText sp (init ++ [last])))
  whole : Whole (head ++ settingsText sp (init ++ [last]))
  where_free : hasKeyword "WHERE" (settingsText sp (init ++ [last])) = false

/-- A `WHERE` clause without a word that ends it. -/
structure WhereClause where
  word : Cased "WHERE"
  text : List Char
  whole : Whole text
  endless : clauseEndsAt.Skips text

/-- A text that begins with a word that ends a clause. -/
structure Tail where
  word : String
  mem : word ∈ clauseEnds
  keyword : Cased word
  rest : List Char
  whole : Whole (keyword.text ++ ' ' :: rest)
  where_free : hasKeyword "WHERE" (keyword.text ++ ' ' :: rest) = false

namespace Tail

variable (t : Tail)

def text : List Char :=
  t.keyword.text ++ ' ' :: t.rest

theorem isKeyword : IsKeyword t.word :=
  (show ∀ w ∈ clauseEnds, IsKeyword w by decide) t.word t.mem

theorem whole_text : Whole t.text :=
  t.whole

theorem skips_where : (isKeywordAt "WHERE").Skips t.text :=
  PlaceTest.skips_of_hasKeyword t.whole.skipped.closed t.where_free

theorem head?_upToComma : ∃ c ∈ (upToComma t.text).head?, isIdentChar c = true := by
  have hne := t.keyword.text_ne_nil t.isKeyword
  obtain ⟨c, hc⟩ := Option.isSome_iff_exists.mp (List.isSome_head?.mpr hne)
  refine ⟨c, ?_, t.keyword.isIdentChar_of_mem t.isKeyword c (List.mem_of_head? hc)⟩
  rw [text, upToComma_keyword t.isKeyword, List.head?_append_of_ne_nil _ hne]
  exact hc

end Tail

namespace Update

variable {sp : Spacing} (s : Update sp)

/-- The settings of a statement as they are written. -/
def list : List Char :=
  settingsText sp (s.init ++ [s.last])

/-- The statement, with a clause behind it or without one. -/
def text : Option WhereClause → List Char
  | none => s.head ++ s.list
  | some w => s.head ++ s.list ++ ' ' :: (w.word.text ++ ' ' :: w.text)

/-- What is put behind the settings is read behind them. -/
theorem footprint_append {r : List Char} (hr : Whole (s.head ++ s.list ++ r)) :
    SchemaLint.footprint .mysql (s.head ++ s.list ++ r) = .ofMentions (targetName s.table)
      (setMentions (cutAtWhere (s.list ++ r)).1 ++ whereMentions (s.list ++ r)) := by
  have hsign : '=' ∈ s.head ++ s.list := by
    rw [list, settingsText, List.map_append, List.map_singleton]
    exact List.mem_append_right _ (Shell.mem_separated_last sp _ (by simp [Setting.text, Reference.set]))
  have hread := Statement.read?_append (.inr hsign) r
  rw [list, s.read?_eq] at hread
  change footprint _ = _
  rw [footprint, hr.statementOf_eq, list, hread]
  rfl

/-- Without a `WHERE` all that stands behind the settings is read with them. -/
theorem footprint_of_hasKeyword {r : List Char} (hr : Whole (s.head ++ s.list ++ r))
    (hfree : hasKeyword "WHERE" (s.list ++ r) = false) :
    SchemaLint.footprint .mysql (s.head ++ s.list ++ r) =
      .ofMentions (targetName s.table) (setMentions (s.list ++ r)) := by
  rw [s.footprint_append hr, whereMentions, cutAtWhere_of_hasKeyword hfree]
  exact congrArg _ (List.append_nil _)

theorem skips_where : (isKeywordAt "WHERE").Skips s.list :=
  PlaceTest.skips_of_hasKeyword (after_settingsText sp _) s.where_free

/-- Behind a `WHERE` stands a clause. -/
theorem footprint_where (k : Cased "WHERE") {r : List Char}
    (hr : Whole (s.head ++ s.list ++ ' ' :: (k.text ++ ' ' :: r))) :
    SchemaLint.footprint .mysql (s.head ++ s.list ++ ' ' :: (k.text ++ ' ' :: r)) =
      .ofMentions (targetName s.table) ((s.init ++ [s.last]).map Setting.mention ++
        clauseMentions (upToClauseEnd (' ' :: r))) := by
  rw [s.footprint_append hr, whereMentions, cutAtWhere_spaced s.skips_where,
    list, setMentions_settingsText sp s.init s.last isBlank_space]
  rfl

theorem setMentions_tail (t : Tail) :
    setMentions (s.list ++ ' ' :: t.text) = s.init.map Setting.mention ++
      .assign s.last.field (String.ofList (s.last.value.text ++ ' ' :: trim (upToComma t.text))) ::
        setMentions (behindComma t.text) := by
  obtain ⟨c, hc, hident⟩ := t.head?_upToComma
  have hblank : isBlank c = false := (isPlain_of_isStop (isStop_of_isIdentChar hident)).2
  have hhead : ∃ c ∈ (trim (upToComma t.text)).head?, isIdentChar c = true :=
    ⟨c, by rw [head?_trim ⟨c, hc, hblank⟩]; exact hc, hident⟩
  have hspace : start.after [' '] = start ∧ Hides (· == ',') [' '] :=
    ⟨rfl, .of_blank isBlank_space (by decide)⟩
  have hup : upToComma (' ' :: t.text) = ' ' :: upToComma t.text :=
    upToComma_append hspace.1 hspace.2 t.text
  have hbehind : behindComma (' ' :: t.text) = behindComma t.text :=
    behindComma_append hspace.1 hspace.2 t.text
  have hitem := s.last.isItem sp
  have hfirst : trim (s.last.text sp ++ upToComma (' ' :: t.text)) =
      s.last.text sp ++ ' ' :: trim (upToComma t.text) := by
    rw [hup, hitem.trimmed.trim_spaced hitem.ne_nil ⟨c, hc, hblank⟩]
  have hlast : ∀ d ∈ (' ' :: trim (upToComma t.text)).getLast?, isBlank d = false := by
    obtain ⟨d, hd, -⟩ := hhead
    have hne : trim (upToComma t.text) ≠ [] := by
      rintro hnil
      rw [hnil] at hd
      cases hd
    rw [← List.singleton_append, List.getLast?_append_of_ne_nil _ hne]
    exact (trimmed_trim _).last
  rw [list, setMentions_append sp s.init s.last (leavesName_spaced hhead) hlast hfirst, hbehind]

/-- A tail behind a clause leaves what the statement touches as it is. Without a clause the last
literal is recorded with the tail up to its first comma, and what stands behind the comma is read
as settings. -/
theorem footprint_tail (w : Option WhereClause) (t : Tail) :
    SchemaLint.footprint .mysql (s.text w) = .ofMentions (targetName s.table)
      ((s.init ++ [s.last]).map Setting.mention ++
        (w.map fun w => clauseMentions w.text).getD []) ∧
    SchemaLint.footprint .mysql (s.text w ++ ' ' :: t.text) =
      match w with
      | some w => SchemaLint.footprint .mysql (s.text (some w))
      | none => .ofMentions (targetName s.table) (s.init.map Setting.mention ++
          .assign s.last.field (String.ofList
            (s.last.value.text ++ ' ' :: trim (upToComma t.text))) ::
          setMentions (behindComma t.text)) := by
  cases w with
  | none =>
    have hplain := s.footprint_of_hasKeyword (r := []) (by rw [List.append_nil]; exact s.whole)
      (by rw [List.append_nil]; exact s.where_free)
    have hfree : (isKeywordAt "WHERE").Skips (s.list ++ ' ' :: t.text) :=
      s.skips_where.spaced (within_isKeywordAt (by decide)) (endsAtBlank_isKeywordAt (by decide))
        (b := ' ') (by decide) t.skips_where
    have htail := s.footprint_of_hasKeyword (s.whole.spaced t.whole_text)
      (by rw [hasKeyword, hfree.firstCut?_eq]; rfl)
    constructor
    · rw [list, setMentions_settingsText sp s.init s.last (by simp), List.append_nil] at hplain
      rw [text, Option.map_none, Option.getD_none, List.append_nil]
      exact hplain
    · rw [text, htail, s.setMentions_tail]
  | some w =>
    have hword : Phrase [] w.word.text := w.word.phrase (by decide) (by simp)
    have hwhole := s.whole.spaced (hword.whole.spaced w.whole)
    have hshape : s.text (some w) ++ ' ' :: t.text =
        s.head ++ s.list ++ ' ' :: (w.word.text ++ ' ' :: (w.text ++ ' ' :: t.text)) := by
      simp [text]
    have htail : Whole (s.text (some w) ++ ' ' :: t.text) := hwhole.spaced t.whole_text
    have hplain := s.footprint_where w.word hwhole
    rw [upToClauseEnd_eq w.endless w.whole.trimmed] at hplain
    refine ⟨hplain, ?_⟩
    rw [hshape] at htail ⊢
    change _ = SchemaLint.footprint .mysql (s.text (some w))
    rw [s.footprint_where w.word htail, Tail.text,
      upToClauseEnd_spaced w.endless w.whole.trimmed t.mem, text, ← hplain]

/-- The first sort key is recorded with the last literal; behind a clause the tail is left out. -/
theorem footprint_tail_sorted :
    SchemaLint.footprint .mysql "UPDATE t SET a=1,b='x, y' ORDER BY c, d LIMIT 5".toList = {
      target := some "t"
      fields := ["a", "b"]
      values := [("a", "1"), ("b", "'x, y' ORDER BY c")] } ∧
    SchemaLint.footprint .mysql "UPDATE t SET a=1,b='x, y' WHERE c = 2 ORDER BY c, d LIMIT 5".toList = {
      target := some "t"
      fields := ["a", "b", "c"]
      values := [("a", "1"), ("b", "'x, y'"), ("c", "2")] } := by
  let column (c : Char) (h : isNameChar c = true) : Reference := ⟨⟨[c], false, by simp, by simpa using h⟩, []⟩
  let settings : Update .tight := {
    head := "UPDATE t SET ".toList
    table := ['t']
    init := [⟨column 'a' (by decide +kernel),
      .symbol ['1'] (Shell.isItem_of_word (List.all_eq_true.mp rfl) (by decide)) (by rintro c ⟨⟩; decide)⟩]
    last := ⟨column 'b' (by decide +kernel), .symbol "'x, y'".toList
      (Shell.isItem_of_staysQuoted rfl (staysQuoted_doubled "x, y".toList)) (by rintro c ⟨⟩; decide)⟩
    read?_eq := by decide +kernel
    whole := by decide +kernel
    where_free := by decide +kernel }
  have htail := fun w => settings.footprint_tail w {
    word := "ORDER"
    mem := by decide
    keyword := ⟨"ORDER".toList, rfl⟩
    rest := "BY c, d LIMIT 5".toList
    whole := by decide +kernel
    where_free := by decide +kernel }
  obtain ⟨hplain, hclause⟩ := htail <| some {
    word := ⟨"WHERE".toList, rfl⟩
    text := "c = 2".toList
    whole := by decide +kernel
    endless := by decide +kernel }
  constructor
  · refine (congrArg (SchemaLint.footprint .mysql) ?_).trans ((htail none).2.trans ?_) <;> decide +kernel
  · refine (congrArg (SchemaLint.footprint .mysql) ?_).trans (hclause.trans (hplain.trans ?_)) <;>
      decide +kernel

end Update

end SchemaLint.Sql
