import SchemaLint.Proofs.Skip
import SchemaLint.Proofs.Sql.Backquoted
import SchemaLint.Proofs.Sql.Change.Tail
import SchemaLint.Proofs.Sql.Insertion

/-!
# Lines with a column in backquotes

What stands around a column between backquotes is cut as if there were a plain name: in the list of an
`INSERT` (`ColumnOfInsert`) and on the left side of a setting (`SettingOfUpdate`, `SettingOfInsert`),
whatever stands in front of it and behind it. So such a line touches the column under the name that it is
reported by, between the fields in front of it and those behind it (`backquoted_column_reported`).
-/

namespace SchemaLint.Sql

open Form Nesting Text

/-! ## Statements -/

/-- What stands on a line in front of a mark: quotes and brackets are closed there, and the statement
has not ended. -/
structure Front (mark : Char) where
  text : List Char
  head : ∀ c ∈ text.head?, isBlank c = false
  closed : start.after text = start
  unended : firstCut? statementEndsAt (text ++ [mark]) = none

/-- The statement goes on behind a text that begins with the mark and hides what a statement may end at. -/
theorem Front.statementOf_append {mark : Char} (f : Front mark) (hmark : mark ≠ '-' ∧ isBlank mark = false)
    {y : List Char} (hhead : y.head? = some mark) (hlast : ∀ c ∈ y.getLast?, isBlank c = false)
    (hy : start.after y = start) (hhides : Hides isStop y) (tail : List Char) :
    statementOf (f.text ++ (y ++ tail)) = f.text ++ (y ++ trimEnd (beforeEnd tail)) := by
  obtain ⟨r, rfl⟩ : ∃ r, y = mark :: r := by
    cases y with
    | nil => cases hhead
    | cons c r => exact ⟨r, by rw [Option.some.inj hhead]⟩
  have hclear : start.Clear none statementEndsAt f.text (mark :: r ++ tail) :=
    (endsAt_statementEndsAt hmark.1).clear f.unended (r ++ tail)
  have hcut := firstCut?_behind f.closed hclear within_statementEndsAt.needs hy hhides fun _ _ => rfl
  have hbefore : beforeEnd (f.text ++ (mark :: r ++ tail)) = f.text ++ (mark :: r) ++ beforeEnd tail := by
    unfold beforeEnd
    rw [hcut]
    cases firstCut? statementEndsAt tail <;> simp
  have hfirst : ∀ c ∈ (f.text ++ (mark :: r) ++ beforeEnd tail).head?, isBlank c = false := by
    cases htext : f.text with
    | nil =>
      rintro c ⟨⟩
      exact hmark.2
    | cons d x =>
      rintro c ⟨⟩
      exact f.head d (by rw [htext]; rfl)
  have hend : ∀ c ∈ (f.text ++ mark :: r).getLast?, isBlank c = false := by
    rw [List.getLast?_append_of_ne_nil _ (List.cons_ne_nil mark r)]
    exact hlast
  rw [statementOf_eq, hbefore, trim, trimStart_of_head hfirst, Shell.trimEnd_append_of_last hend,
    List.append_assoc]

/-- A blank behind words and names leads up to a mark that the statement does not end at. -/
def Front.spaced {s : List Char} (h : Phrase [] s) (mark : Char)
    (hmark : firstCut? statementEndsAt [mark] = none) : Front mark where
  text := s ++ [' ']
  head := by
    rw [List.head?_append_of_ne_nil _ h.ne_nil]
    exact h.trimmed.head
  closed := (h.lacks.balanced.append (.of_blank isBlank_space)).after_eq 0
  unended := by
    have hskips : statementEndsAt.Skips s := within_statementEndsAt.skips_of_lacks h.lacks
    rw [List.append_assoc, List.singleton_append,
      hskips.firstCut?_spaced within_statementEndsAt endsAtBlank_statementEndsAt (by decide), hmark,
      Option.map_none]

namespace Backquoted

/-! ## Settings -/

section Setting

variable (b : Backquoted) {gap : List Char} (hgap : ∀ c ∈ gap, isBlank c = true)

/-- The column with the sign behind it. -/
def signed (gap : List Char) : List Char :=
  b.text ++ (gap ++ ['='])

theorem signed_append (gap t : List Char) : b.signed gap ++ t = b.text ++ (gap ++ '=' :: t) := by
  simp [signed]

theorem head?_signed (gap : List Char) : (b.signed gap).head? = some '\x60' := by
  obtain ⟨s, hs⟩ := b.exists_cons
  rw [signed, hs]
  rfl

theorem getLast?_signed (gap : List Char) : (b.signed gap).getLast? = some '=' := by
  rw [signed, ← List.append_assoc, List.getLast?_concat]

include hgap

theorem balanced_signed : Balanced (b.signed gap) :=
  b.balanced.append ((Balanced.of_blank hgap).append (.of_plain (List.all_eq_true.mp (by decide))))

theorem hides_signed {p : Char → Bool} (hdot : p '.' = false) (hsign : p '=' = false)
    (hblank : ∀ c, isBlank c = true → p c = false) : Hides p (b.signed gap) := by
  refine (b.hides hdot).append b.balanced (.of_forall fun c hc => ?_)
  rcases List.mem_append.mp hc with hc | hc
  · exact hblank c (hgap c hc)
  · rw [List.mem_singleton.mp hc, hsign]

theorem hides_stop : Hides isStop (b.signed gap) :=
  b.hides_signed hgap (by decide) (by decide) fun _ hc => isStop_of_isBlank hc

/-- The statement goes on behind a column and its sign. -/
theorem statementOf_front (f : Front '\x60') (tail : List Char) :
    statementOf (f.text ++ (b.signed gap ++ tail)) =
      f.text ++ (b.signed gap ++ trimEnd (beforeEnd tail)) := by
  refine f.statementOf_append (by decide) (b.head?_signed gap) ?_
    ((b.balanced_signed hgap).after_eq 0) (b.hides_stop hgap) tail
  rw [b.getLast?_signed]
  rintro c ⟨⟩
  decide

/-- A comma in the value ends the item, and none in the column does. -/
theorem splitTop_signed (w : List Char) :
    splitTop ',' (b.signed gap ++ w) =
      (b.signed gap ++ trimEnd (upToComma w)) :: splitTop ',' (behindComma w) := by
  have hafter : start.after (b.signed gap) = start := (b.balanced_signed hgap).after_eq 0
  have hhides : Hides (· == ',') (b.signed gap) :=
    b.hides_signed hgap (by decide) (by decide) fun c hc => by
      rw [beq_eq_false_iff_ne]
      rintro rfl
      exact absurd hc (by decide)
  have hfirst : ∀ c ∈ (b.signed gap ++ upToComma w).head?, isBlank c = false := by
    intro c hc
    rw [List.head?_append, b.head?_signed] at hc
    obtain rfl := Option.some.inj hc
    decide
  have hlast : ∀ c ∈ (b.signed gap).getLast?, isBlank c = false := by
    rw [b.getLast?_signed]
    rintro c ⟨⟩
    decide
  have htrim : trim (upToComma (b.signed gap ++ w)) = b.signed gap ++ trimEnd (upToComma w) := by
    rw [upToComma_append hafter hhides, trim, trimStart_of_head hfirst,
      Shell.trimEnd_append_of_last hlast]
  have hne : trim (upToComma (b.signed gap ++ w)) ≠ [] := by
    rw [htrim]
    simp [signed]
  rw [splitTop_eq hne, htrim, behindComma_append hafter hhides]

theorem itemMention?_signed (v : List Char) :
    itemMention? (b.signed gap ++ v) = some (valueMention (String.ofList b.reported) v) := by
  have hhides : Hides (· == '=') (b.text ++ gap) :=
    (b.hides (by decide)).append b.balanced (.of_blank hgap (by decide))
  have hcut := cutAtTop?_append (by decide) (b.balanced.append (.of_blank hgap)) hhides v
  have hshape : b.signed gap ++ v = b.text ++ gap ++ '=' :: v := by simp [signed]
  rw [itemMention?, hshape, hcut, Option.map_some, b.fieldName_append hgap]

/-- The items of a list around a setting mention what they mention without it. -/
theorem fields_setMentions {before : List Char} (hbefore : LeadsItem before) (w : List Char) :
    (setMentions (before ++ (b.signed gap ++ w))).map Mention.field =
      (setMentions before).map Mention.field ++
        String.ofList b.reported :: (setMentions (behindComma w)).map Mention.field := by
  rw [setMentions_eq, hbefore.splitTop_append, b.splitTop_signed hgap, List.filterMap_append,
    List.filterMap_cons_some (b.itemMention?_signed hgap _), ← setMentions_eq, ← setMentions_eq,
    List.map_append, List.map_cons, field_valueMention]

end Setting

end Backquoted

/-! ## Lines -/

/-- Lines that differ in a column only touch the same table, and the same fields in front of the column
and behind it. -/
def ReportsColumn (line : List Char → List Char) (target : String) (first later : List String) : Prop :=
  ∀ b : Backquoted, (footprint (line b.text)).target = some target ∧
    (footprint (line b.text)).fields =
      ((first ++ String.ofList b.reported :: later).filter (· != "")).eraseDups

theorem fields_ofMentions (target : String) (ms : List Mention) :
    (Footprint.ofMentions target ms).fields = ((ms.map Mention.field).filter (· != "")).eraseDups := by
  rw [Footprint.ofMentions, Footprint.foldl_addField, List.filter_map]
  rfl

/-- What stands around a column on the left side of a setting. -/
structure SettingPlace where
  /-- The verb, the table and the settings in front of the column. -/
  front : Front '\x60'
  /-- The end of the front, from the first setting on. -/
  before : List Char
  gap : List Char
  /-- The value, and all that stands behind it. -/
  tail : List Char
  leads : LeadsItem before
  isBlank_gap : ∀ c ∈ gap, isBlank c = true

namespace SettingPlace

variable (s : SettingPlace) (b : Backquoted)

def line (column : List Char) : List Char :=
  s.front.text ++ (column ++ (s.gap ++ '=' :: s.tail))

/-- The statement from the value on. -/
def value : List Char :=
  trimEnd (beforeEnd s.tail)

/-- The settings from the first one on. -/
def settings : List Char :=
  s.before ++ (b.signed s.gap ++ s.value)

/-- The fields of the settings in front of the column. -/
def first : List String :=
  (setMentions s.before).map Mention.field

theorem read?_line (make : List Char → Statement)
    (hreads : ∀ r, Statement.read? (s.front.text ++ '\x60' :: r) = some (make (s.before ++ '\x60' :: r))) :
    Statement.read? (statementOf (s.line b.text)) = some (make (s.settings b)) := by
  obtain ⟨r, hr⟩ := b.exists_cons
  have hcolumn : b.signed s.gap ++ s.value = '\x60' :: (r ++ (s.gap ++ '=' :: s.value)) := by
    rw [b.signed_append, hr, List.cons_append]
  have hstatement : statementOf (s.line b.text) = s.front.text ++ (b.signed s.gap ++ s.value) := by
    rw [line, ← b.signed_append]
    exact b.statementOf_front s.isBlank_gap s.front s.tail
  rw [hstatement, settings, hcolumn]
  exact hreads _

end SettingPlace

/-- A column on the left side of a setting of an `UPDATE`. -/
structure SettingOfUpdate extends SettingPlace where
  table : List Char
  reads : ∀ r, Statement.read? (front.text ++ '\x60' :: r) = some (.update table (before ++ '\x60' :: r))
  where_free : hasKeyword "WHERE" (before ++ ['\x60']) = false

namespace SettingOfUpdate

variable (s : SettingOfUpdate) (b : Backquoted)

/-- The `WHERE` is looked for behind the column. -/
theorem cutAtWhere_settings :
    cutAtWhere (s.settings b) =
      (s.before ++ (b.signed s.gap ++ (cutAtWhere s.value).1), (cutAtWhere s.value).2) := by
  obtain ⟨r, hr⟩ := b.exists_cons
  have hnone : firstCut? (isKeywordAt "WHERE") (s.before ++ ['\x60']) = none :=
    Option.isNone_iff_eq_none.mp (Option.isSome_eq_false_iff.mp s.where_free)
  have hclear : start.Clear none (isKeywordAt "WHERE") s.before (b.signed s.gap ++ s.value) := by
    rw [b.signed_append, hr]
    exact (endsAt_isKeywordAt (by decide) (by decide)).clear hnone _
  have hcut := firstCut?_behind s.leads.after_eq hclear (within_isKeywordAt (by decide)).needs
    ((b.balanced_signed s.isBlank_gap).after_eq 0) (b.hides_stop s.isBlank_gap)
    fun before r => by rw [b.getLast?_signed]; rfl
  unfold cutAtWhere cutAtKeyword? SettingPlace.settings
  rw [hcut]
  cases firstCut? (isKeywordAt "WHERE") s.value <;> rfl

/-- The fields of the settings behind the column and of the clause. -/
def later : List String :=
  (setMentions (behindComma (cutAtWhere s.value).1)).map Mention.field ++
    (whereMentions s.value).map Mention.field

theorem reportsColumn : ReportsColumn s.line (targetName s.table) s.first s.later := by
  intro b
  have hread : footprint (s.line b.text) = .ofMentions (targetName s.table)
      (setMentions (s.before ++ (b.signed s.gap ++ (cutAtWhere s.value).1)) ++
        whereMentions s.value) := by
    rw [footprint, s.read?_line b (.update s.table) s.reads, Option.map_some, Option.getD_some, Statement.footprint,
      whereMentions, s.cutAtWhere_settings b]
    rfl
  rw [hread, fields_ofMentions, List.map_append, b.fields_setMentions s.isBlank_gap s.leads,
    List.append_assoc, List.cons_append]
  exact ⟨rfl, rfl⟩

end SettingOfUpdate

/-- A column on the left side of a setting of an `INSERT`. -/
structure SettingOfInsert extends SettingPlace where
  table : List Char
  /-- What stands between the table and the `SET`. -/
  lead : List Char
  set : Cased "SET"
  reads : ∀ r, Statement.read? (front.text ++ '\x60' :: r) =
    some (.insert table (lead ++ (set.text ++ (before ++ '\x60' :: r))))
  isBlank_lead : ∀ c ∈ lead, isBlank c = true
  set_ends : ∀ c ∈ (before ++ ['\x60']).head?, isIdentChar c = false

/-- A keyword at the beginning of a text is what the text is cut at. -/
theorem cutAtKeyword?_head {w : String} (hw : IsKeyword w) (k : Cased w) {r : List Char}
    (hr : ∀ c ∈ r.head?, isIdentChar c = false) : cutAtKeyword? w (k.text ++ r) = some ([], r) := by
  obtain ⟨p, ps, hp⟩ := List.exists_cons_of_ne_nil (parts_ne_nil (isKeywordAt w) r)
  have hflat : (p :: ps).flatten = r := by
    rw [← hp]
    exact flatten_parts _ _
  rw [cutAtKeyword?, firstCut?, SchemaLint.parts, parts_text_append hw k (by simp) hr, hp, foldr_consHead]
  simp only [Option.map_some, List.flatten_cons] at hflat ⊢
  rw [List.append_assoc, hflat, ← k.length_text, List.drop_left]

namespace SettingOfInsert

variable (s : SettingOfInsert) (b : Backquoted)

theorem insertMentions_settings :
    insertMentions (s.lead ++ (s.set.text ++ s.settings b)) = setMentions (s.settings b) := by
  have hset : ∀ c ∈ (s.set.text ++ s.settings b).head?, isIdentChar c = true := by
    rw [List.head?_append_of_ne_nil _ (s.set.text_ne_nil (by decide))]
    exact fun c hc => s.set.isIdentChar_of_mem (by decide) c (List.mem_of_mem_head? hc)
  have hends : ∀ c ∈ (s.settings b).head?, isIdentChar c = false := by
    obtain ⟨r, hr⟩ := b.exists_cons
    rw [SettingPlace.settings, b.signed_append, hr]
    intro c hc
    refine s.set_ends c ?_
    cases hbefore : s.before <;> rw [hbefore] at hc <;> exact hc
  have hstart : trimStart (s.lead ++ (s.set.text ++ s.settings b)) = s.set.text ++ s.settings b := by
    rw [trimStart_blank_append s.isBlank_lead, trimStart_of_head]
    exact fun c hc => (isPlain_of_isStop (isStop_of_isIdentChar (hset c hc))).2
  have hhead : ((s.set.text ++ s.settings b).head? == some '(') = false := by
    rw [beq_eq_false_iff_ne]
    intro h
    exact absurd (hset '(' h) (by decide)
  rw [insertMentions, hstart, hhead, cutAtKeyword?_head (by decide) s.set hends]
  rfl

/-- The fields of the settings behind the column. -/
def later : List String :=
  (setMentions (behindComma s.value)).map Mention.field

theorem reportsColumn : ReportsColumn s.line (targetName s.table) s.first s.later := by
  intro b
  have hread : footprint (s.line b.text) =
      .ofMentions (targetName s.table) (setMentions (s.settings b)) := by
    rw [footprint, s.read?_line b (fun x => .insert s.table (s.lead ++ (s.set.text ++ x))) s.reads,
      Option.map_some, Option.getD_some, Statement.footprint, s.insertMentions_settings b]
  rw [hread, fields_ofMentions, SettingPlace.settings, b.fields_setMentions s.isBlank_gap s.leads]
  exact ⟨rfl, rfl⟩

end SettingOfInsert

/-- A column in the list of an `INSERT`. -/
structure ColumnOfInsert where
  /-- What stands in front of the list. -/
  front : Front '('
  table : List Char
  /-- What stands between the table and the list. -/
  lead : List Char
  /-- The list in front of the column. -/
  before : List Char
  /-- The list behind the column. -/
  behind : List Char
  tail : List Char
  reads : Statement.read? (front.text ++ ['(']) = some (.insert table (lead ++ ['(']))
  isBlank_lead : ∀ c ∈ lead, isBlank c = true
  leads : LeadsItem before
  follows : ∀ c ∈ upToComma behind, isBlank c = true
  balanced_before : Balanced before
  balanced_behind : Balanced behind

/-- Values for columns that are named touch no more fields. -/
theorem fields_ofMentions_columns (target : String) (columns : List String) {ms : List Mention}
    (h : ∀ m ∈ ms, m.field ∈ columns) :
    (Footprint.ofMentions target (columns.map .touch ++ ms)).fields =
      (columns.filter (· != "")).eraseDups := by
  have hcolumns : (columns.map Mention.touch).map Mention.field = columns := by
    rw [List.map_map]
    exact List.map_id columns
  have hvalues : ((ms.map Mention.field).filter (· != "")).removeAll (columns.filter (· != "")) = [] := by
    rw [List.removeAll, List.filter_eq_nil_iff]
    intro f hf
    obtain ⟨hf, hne⟩ := List.mem_filter.mp hf
    obtain ⟨m, hm, rfl⟩ := List.mem_map.mp hf
    simpa using ⟨h m hm, by simpa using hne⟩
  rw [fields_ofMentions, List.map_append, hcolumns, List.filter_append, List.eraseDups_append, hvalues,
    List.eraseDups_nil, List.append_nil]

namespace ColumnOfInsert

variable (s : ColumnOfInsert) (b : Backquoted)

def line (column : List Char) : List Char :=
  s.front.text ++ ('(' :: (s.before ++ (column ++ s.behind) ++ [')']) ++ s.tail)

/-- The statement behind the list. -/
def rest : List Char :=
  trimEnd (beforeEnd s.tail)

theorem balanced_list : Balanced (s.before ++ (b.text ++ s.behind)) :=
  s.balanced_before.append (b.balanced.append s.balanced_behind)

/-- No comma of the column ends its item. -/
theorem splitTop_list : splitTop ',' (s.before ++ (b.text ++ s.behind)) =
    splitTop ',' s.before ++ b.text :: splitTop ',' (behindComma s.behind) := by
  have hafter : start.after b.text = start := b.balanced.after_eq 0
  have hhides : Hides (· == ',') b.text := b.hides (by decide)
  have htrim : trim (upToComma (b.text ++ s.behind)) = b.text := by
    rw [upToComma_append hafter hhides, trim_append_blank s.follows, b.trimmed.trim_eq]
  have hne : trim (upToComma (b.text ++ s.behind)) ≠ [] := by
    obtain ⟨r, hr⟩ := b.exists_cons
    rw [htrim, hr]
    exact List.cons_ne_nil _ r
  rw [s.leads.splitTop_append, splitTop_eq hne, htrim, behindComma_append hafter hhides]

theorem read?_line : Statement.read? (statementOf (s.line b.text)) =
    some (.insert s.table (s.lead ++ '(' :: (s.before ++ (b.text ++ s.behind) ++ ')' :: s.rest))) := by
  have hlist := s.balanced_list b
  have hbalanced := Balanced.bracketed (o := '(') (c := ')') rfl rfl hlist
  have hhides : Hides isStop ('(' :: (s.before ++ (b.text ++ s.behind) ++ [')'])) :=
    .bracketed rfl rfl hlist (by decide) (by decide)
  have hlast : ∀ c ∈ ('(' :: (s.before ++ (b.text ++ s.behind) ++ [')'])).getLast?,
      isBlank c = false := by
    rw [← List.cons_append, List.getLast?_concat]
    rintro c ⟨⟩
    decide
  have hparenthesis : '(' ∈ s.front.text ++ ['('] := by simp
  have happend := Statement.read?_append (.inl hparenthesis)
    (s.before ++ (b.text ++ s.behind) ++ ')' :: s.rest)
  rw [line, s.front.statementOf_append (by decide) rfl hlast (hbalanced.after_eq 0) hhides]
  rw [s.reads, Option.map_some] at happend
  simpa [rest, Statement.append] using happend

def first : List String :=
  (splitTop ',' s.before).map fieldName

def later : List String :=
  (splitTop ',' (behindComma s.behind)).map fieldName

theorem reportsColumn : ReportsColumn s.line (targetName s.table) s.first s.later := by
  intro b
  have hstart : trimStart (s.lead ++ '(' :: (s.before ++ (b.text ++ s.behind) ++ ')' :: s.rest)) =
      '(' :: (s.before ++ (b.text ++ s.behind) ++ ')' :: s.rest) := by
    rw [trimStart_blank_append s.isBlank_lead, trimStart_of_head]
    rintro c ⟨⟩
    decide
  have hcut := cutAtPartner?_bracketed (o := '(') (c := ')') rfl rfl (s.balanced_list b) s.rest
  have hname : fieldName b.text = String.ofList b.reported := by
    rw [← List.append_nil b.text, b.fieldName_append isBlank_nil]
  have hcolumns : (splitTop ',' (s.before ++ (b.text ++ s.behind))).map fieldName =
      (splitTop ',' s.before).map fieldName ++
        String.ofList b.reported :: (splitTop ',' (behindComma s.behind)).map fieldName := by
    rw [s.splitTop_list b, List.map_append, List.map_cons, hname]
  have hread : footprint (s.line b.text) = .ofMentions (targetName s.table)
      (((splitTop ',' (s.before ++ (b.text ++ s.behind))).map fieldName).map .touch ++
        ((afterValues? s.rest).map (rowMentions ((splitTop ',' (s.before ++ (b.text ++ s.behind))).map
          fieldName))).getD []) := by
    rw [footprint, s.read?_line b, Option.map_some, Option.getD_some, Statement.footprint,
      insertMentions, hstart]
    simp only [List.head?_cons, beq_self_eq_true, if_true, hcut]
    rfl
  rw [hread, fields_ofMentions_columns, hcolumns]
  · exact ⟨rfl, rfl⟩
  · intro m hm
    cases hrows : afterValues? s.rest with
    | none =>
      rw [hrows] at hm
      cases hm
    | some rows =>
      rw [hrows] at hm
      exact mem_rowMentions hm

end ColumnOfInsert

/-! ## Places -/

/-- A place of a line for a column between backquotes. -/
inductive ColumnPlace where
  | column (s : ColumnOfInsert)
  | settingOfUpdate (s : SettingOfUpdate)
  | settingOfInsert (s : SettingOfInsert)

namespace ColumnPlace

/-- The line with a column at the place. -/
def line : ColumnPlace → List Char → List Char
  | column s => s.line
  | settingOfUpdate s => s.line
  | settingOfInsert s => s.line

def target : ColumnPlace → String
  | column s => targetName s.table
  | settingOfUpdate s => targetName s.table
  | settingOfInsert s => targetName s.table

/-- The fields that are mentioned in front of the column. -/
def first : ColumnPlace → List String
  | column s => s.first
  | settingOfUpdate s => s.first
  | settingOfInsert s => s.first

/-- The fields that are mentioned behind the column. -/
def later : ColumnPlace → List String
  | column s => s.later
  | settingOfUpdate s => s.later
  | settingOfInsert s => s.later

theorem reportsColumn (p : ColumnPlace) : ReportsColumn p.line p.target p.first p.later := by
  cases p with
  | column s => exact s.reportsColumn
  | settingOfUpdate s => exact s.reportsColumn
  | settingOfInsert s => exact s.reportsColumn

end ColumnPlace

/-- A column between backquotes in the list of an `INSERT` or on the left side of a setting is one field,
which has the name of the column if this is without blanks and dots, and another name otherwise. -/
theorem backquoted_column_reported (p : ColumnPlace) (b : Backquoted) :
    (SchemaLint.footprint .mysql (p.line b.text)).target = some p.target ∧
      (SchemaLint.footprint .mysql (p.line b.text)).fields =
        ((p.first ++ String.ofList b.reported :: p.later).filter (· != "")).eraseDups ∧
      (String.ofList b.name ∈ (SchemaLint.footprint .mysql (p.line b.text)).fields ↔
        b.IsPlain ∨ String.ofList b.name ∈ p.first ++ p.later) := by
  obtain ⟨htarget, hfields⟩ := p.reportsColumn b
  refine ⟨htarget, hfields, ?_⟩
  have hne : String.ofList b.name ≠ "" := by simpa using b.name_ne_nil
  have hname : String.ofList b.name = String.ofList b.reported ↔ b.IsPlain := by
    rw [String.ofList_inj, eq_comm, b.reported_eq_iff]
  calc String.ofList b.name ∈ (footprint (p.line b.text)).fields
      ↔ String.ofList b.name ∈ p.first ++ String.ofList b.reported :: p.later := by
        rw [hfields, List.mem_eraseDups, List.mem_filter]
        simp [hne]
    _ ↔ b.IsPlain ∨ String.ofList b.name ∈ p.first ++ p.later := by
        rw [← hname, List.mem_append, List.mem_cons, List.mem_append, or_left_comm]

namespace ColumnPlace

section Alone

variable (verb : Cased "INSERT") (into : Cased "INTO") (name : WrittenName) (set : Cased "SET")
  (gap tail : List Char) (hgap : ∀ c ∈ gap, isBlank c = true)

theorem phrase_insert : Phrase [] (verb.text ++ ' ' :: (into.text ++ ' ' :: name.text)) :=
  (verb.phrase (by decide) (by simp)).spaced ((into.phrase (by decide) (by simp)).spaced name.phrase)

/-- The place of the only column in the list of an `INSERT`. -/
def ofInsert : ColumnPlace :=
  column {
    front := .spaced (phrase_insert verb into name) '(' rfl
    table := name.text
    lead := [' ']
    before := []
    behind := []
    tail
    reads := by
      have hread := read?_insert verb into name (r := ['(']) (by rintro c ⟨⟩; decide)
      simpa [Front.spaced] using hread
    isBlank_lead := isBlank_space
    leads := .blank isBlank_nil
    follows := isBlank_nil
    balanced_before := .nil
    balanced_behind := .nil }

/-- The place of the column of the first setting of an `UPDATE`. -/
def ofUpdate (verb : Cased "UPDATE") (name : Name) : ColumnPlace :=
  settingOfUpdate {
    front := .spaced (((verb.phrase (by decide) (by simp)).spaced
      ((name.phrase (List.nil_subset _)).spaced (set.phrase (by decide) (by simp))))) '\x60' rfl
    before := []
    gap
    tail
    leads := .blank isBlank_nil
    isBlank_gap := hgap
    table := name.text
    reads := fun r => by
      have hset : (word "SET" ++ blanks1) ('\x60' :: r) = [] :=
        append_eq_nil _ (folded_eq_nil_of_head (isKeyword_keywords "SET" (by decide)).2 (by decide)
          (by rintro c ⟨⟩; decide))
      have hread := read?_update verb name set (r := '\x60' :: r) (by rintro c ⟨⟩; decide) hset
      simpa [Front.spaced] using hread
    where_free := by decide }

/-- The place of the column of the first setting of an `INSERT`. -/
def ofInsertSet : ColumnPlace :=
  settingOfInsert {
    front := .spaced ((phrase_insert verb into name).spaced (set.phrase (by decide) (by simp))) '\x60' rfl
    before := [' ']
    gap
    tail
    leads := .blank isBlank_space
    isBlank_gap := hgap
    table := name.text
    lead := [' ']
    set
    reads := fun r => by
      have hread := read?_insert verb into name (r := set.text ++ ' ' :: '\x60' :: r)
        (head?_keyword set (by decide) _)
      simpa [Front.spaced] using hread
    isBlank_lead := isBlank_space
    set_ends := by rintro c ⟨⟩; decide }

end Alone

end ColumnPlace

/-- A name of one letter. -/
def tableName : Name where
  text := ['t']
  head := ⟨'t', rfl, by decide⟩
  chars := by simp
  not_keyword := by decide

/-- A blank is lost and a dot cuts the name, but quotes, commas and brackets are kept. -/
theorem names_reported_from_backquotes :
    (SchemaLint.footprint .mysql "INSERT INTO t (`a b`) VALUES (1)".toList).fields = ["ab"] ∧
      (SchemaLint.footprint .mysql "UPDATE t SET `t`.`a.b` = 1".toList).fields = ["b`"] ∧
      (SchemaLint.footprint .mysql "INSERT INTO t SET `a'b,c)` = 1".toList).fields = ["a'b,c)"] := by
  let insert : Cased "INSERT" := ⟨"INSERT".toList, rfl⟩
  let into : Cased "INTO" := ⟨"INTO".toList, rfl⟩
  let set : Cased "SET" := ⟨"SET".toList, rfl⟩
  let table : WrittenName := ⟨tableName.plain, false⟩
  have hcolumn := backquoted_column_reported (.ofInsert insert into table " VALUES (1)".toList)
    ⟨none, "a b".toList, by simp, by simp, by simp⟩
  have hupdate := backquoted_column_reported
    (.ofUpdate set " ".toList " 1".toList isBlank_space ⟨"UPDATE".toList, rfl⟩ tableName)
    ⟨some ['t'], "a.b".toList, by simp, by simp, by simp⟩
  have hinsert := backquoted_column_reported
    (.ofInsertSet insert into table set " ".toList " 1".toList isBlank_space)
    ⟨none, "a'b,c)".toList, by simp, by simp, by simp⟩
  exact ⟨hcolumn.2.1.trans (by decide +kernel), hupdate.2.1.trans (by decide +kernel),
    hinsert.2.1.trans (by decide +kernel)⟩

end SchemaLint.Sql
