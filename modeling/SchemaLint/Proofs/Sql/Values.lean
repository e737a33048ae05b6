import SchemaLint.Proofs.Form
import SchemaLint.Proofs.Scattered
import SchemaLint.Proofs.Sql.Statement
import SchemaLint.Sql.Footprint

/-!
# Values of SQL statements

The values that a part of a statement mentions are scattered in the text of that part, whatever the
text is: those of a condition (`scattered_condition`), of a clause (`scattered_clauseMentions`), of a
`SET` list, of rows, and so of a whole statement (`scattered_statement`).
-/

namespace SchemaLint.Sql

open Form

variable {s text : List Char}

theorem scattered_valueMention (field : String) (value : List Char) :
    Scattered (writtenValues [valueMention field value]) value := by
  unfold valueMention
  split
  · exact .none value
  · have htext : (String.ofList (Text.trim value)).toList <:+: value := by
      rw [String.toList_ofList]
      exact Text.trim_isInfix value
    exact .of_isInfix htext

/-! ## Lists of values -/

/-- The items of a list, each a value of one field. -/
theorem scattered_items (field : String) (list : List Char) :
    Scattered (writtenValues ((splitTop ',' list).map (valueMention field))) list := by
  rw [writtenValues_map]
  exact (scattered_splitTop ',' list).bind (scattered_valueMention field)

theorem scattered_setMentions (list : List Char) : Scattered (writtenValues (setMentions list)) list := by
  rw [setMentions, writtenValues_filterMap]
  refine (scattered_splitTop ',' list).bind fun item => ?_
  cases hcut : cutAtTop? '=' item with
  | none => exact .none item
  | some cut =>
    obtain ⟨column, value⟩ := cut
    obtain ⟨g, rfl⟩ := exists_of_cutAtTop? hcut
    exact ((scattered_valueMention (fieldName column) value).prepend [g]).prepend column

theorem map_snd_zip_sublist {α β : Type} (as : List α) (bs : List β) :
    ((as.zip bs).map Prod.snd).Sublist bs := by
  rw [List.zip_eq_zip_take_min, List.map_snd_zip (by simp)]
  exact List.take_sublist _ bs

theorem isInfix_of_inParentheses? {values : List Char} (h : inParentheses? s = some values) :
    values <:+: s := by
  unfold inParentheses? at h
  split at h
  · next s =>
    split at h
    · obtain rfl := Option.some.inj h
      exact (List.dropLast_prefix s).isInfix.trans (List.suffix_cons _ s).isInfix
    · cases h
  · cases h

/-- A row may have more values than there are columns, or fewer. -/
theorem scattered_row (columns : List String) (values : List Char) :
    Scattered (writtenValues ((columns.zip (splitTop ',' values)).map fun (c, v) => valueMention c v))
      values := by
  rw [writtenValues_map]
  have hvalues : Scattered ((columns.zip (splitTop ',' values)).map Prod.snd) values :=
    (scattered_splitTop ',' values).sublist (map_snd_zip_sublist _ _)
  exact hvalues.flatMap fun (c, v) _ => scattered_valueMention c v

theorem scattered_rowMentions (columns : List String) (rows : List Char) :
    Scattered (writtenValues (rowMentions columns rows)) rows := by
  rw [rowMentions, writtenValues_flatMap]
  refine (scattered_splitTop ',' rows).bind fun row => ?_
  cases hvalues : inParentheses? row with
  | none => exact .none row
  | some values => exact (scattered_row columns values).mono (isInfix_of_inParentheses? hvalues)

/-! ## Conditions -/

theorem keeps_optNot : Condition.optNot.Keeps :=
  ((keeps_word "NOT").append keeps_blanks1).opt

/-- What begins with blanks leaves less than there was. -/
theorem exists_of_mem_spaced {f : Form (List Char)} (hf : f.Keeps) {x r : List Char}
    (h : (x, r) ∈ (blanks1 ++ f) s) : ∃ g t, s = g :: (t ++ r) := by
  obtain ⟨gap, y, t, hgap, hy, rfl⟩ := mem_append.mp h
  obtain ⟨rfl, hne, -⟩ := mem_run1 hgap
  obtain ⟨g, gap, rfl⟩ := List.exists_cons_of_ne_nil hne
  rw [hf t y r hy]
  exact ⟨g, gap ++ y, by rw [List.cons_append, List.append_assoc]⟩

theorem eq_of_mem_rest1 {x r : List Char} (h : (x, r) ∈ rest1 s) : x = s := by
  unfold rest1 at h
  split at h
  · cases h
  · exact (Prod.mk.inj (List.mem_singleton.mp h)).1

section Forms

variable {c : Condition} {r : List Char} (ofClause : List Char → List Mention)

theorem scattered_isNull (h : (c, r) ∈ Condition.isNullForm s) :
    Scattered (writtenValues (c.mentions ofClause)) s := by
  obtain ⟨column, t, -, h⟩ := mem_bind.mp h
  obtain ⟨-, t, -, h⟩ := mem_bind.mp h
  obtain ⟨-, t, -, h⟩ := mem_bind.mp h
  obtain ⟨rfl, -⟩ := mem_pure.mp h
  exact .none s

theorem scattered_between (h : (c, r) ∈ Condition.betweenForm s) :
    Scattered (writtenValues (c.mentions ofClause)) s := by
  have hword := ((keeps_blanks1.append keeps_optNot).append (keeps_word "BETWEEN")).append
    keeps_blanks1
  obtain ⟨column, t, rfl, -, h⟩ := keeps_name.mem_bind h
  obtain ⟨between, t, rfl, -, h⟩ := hword.mem_bind h
  obtain ⟨low, t, rfl, -, h⟩ := ((keeps_char _).append (keeps_fewest _)).mem_bind h
  obtain ⟨and, u, hand, h⟩ := mem_bind.mp h
  obtain ⟨high, u', hhigh, h⟩ := mem_bind.mp h
  obtain ⟨rfl, -⟩ := mem_pure.mp h
  obtain rfl := eq_of_mem_rest1 hhigh
  rw [Form.append_assoc] at hand
  obtain ⟨g, gap, rfl⟩ := exists_of_mem_spaced ((keeps_word "AND").append keeps_blanks1) hand
  have hlow := scattered_valueMention (fieldName column) low
  have hhigh := scattered_valueMention (fieldName column) high
  have hboth := hlow.append g (hhigh.prepend gap)
  rw [← writtenValues_append] at hboth
  exact (hboth.prepend between).prepend column

/-- A subquery in the place of a list is not looked into. -/
theorem scattered_members (column list : List Char) :
    Scattered (writtenValues ((Condition.isIn column list).mentions ofClause)) list := by
  rw [Condition.mentions]
  split
  · exact .none list
  · exact scattered_items (fieldName column) list

theorem scattered_isIn (h : (c, r) ∈ Condition.isInForm s) :
    Scattered (writtenValues (c.mentions ofClause)) s := by
  have hword := (((keeps_blanks1.append keeps_optNot).append (keeps_word "IN")).append
    keeps_blanks).append (keeps_exact ['('])
  obtain ⟨column, t, rfl, -, h⟩ := keeps_name.mem_bind h
  obtain ⟨opener, t, rfl, -, h⟩ := hword.mem_bind h
  obtain ⟨list, u, hlist, h⟩ := mem_bind.mp h
  obtain ⟨rfl, -⟩ := mem_pure.mp h
  have hprefix : list <+: t := by
    unfold Condition.upToLastParenthesis at hlist
    split at hlist
    · rw [(Prod.mk.inj (List.mem_singleton.mp hlist)).1]
      exact List.dropLast_prefix t
    · cases hlist
  have hlist := (scattered_members ofClause column list).mono hprefix.isInfix
  exact (hlist.prepend opener).prepend column

/-- A column, an operator or a word, and a value. -/
theorem scattered_compare_of {f : Form (List Char)} (hf : f.Keeps)
    (h : (c, r) ∈ (do
      let column ← name
      let _ ← f
      return .compare column (← rest1) : Form Condition) s) :
    Scattered (writtenValues (c.mentions ofClause)) s := by
  obtain ⟨column, t, rfl, -, h⟩ := keeps_name.mem_bind h
  obtain ⟨operator, t, rfl, -, h⟩ := hf.mem_bind h
  obtain ⟨value, u, hvalue, h⟩ := mem_bind.mp h
  obtain ⟨rfl, -⟩ := mem_pure.mp h
  obtain rfl := eq_of_mem_rest1 hvalue
  exact ((scattered_valueMention (fieldName column) value).prepend operator).prepend column

theorem scattered_like (h : (c, r) ∈ Condition.likeForm s) :
    Scattered (writtenValues (c.mentions ofClause)) s :=
  scattered_compare_of ofClause
    (((keeps_blanks1.append keeps_optNot).append (keeps_word "LIKE")).append keeps_blanks1) h

theorem scattered_compare (h : (c, r) ∈ Condition.compareForm s) :
    Scattered (writtenValues (c.mentions ofClause)) s := by
  have hoperator : (oneOf (Condition.operators.map exact)).Keeps := by
    apply keeps_oneOf
    intro f hf
    obtain ⟨operator, -, rfl⟩ := List.mem_map.mp hf
    exact keeps_exact operator
  exact scattered_compare_of ofClause ((keeps_blanks.append hoperator).append keeps_blanks) h

end Forms

theorem dropNots_suffix (n : Nat) (s : List Char) : Condition.dropNots n s <:+ s := by
  induction n generalizing s with
  | zero => exact List.suffix_refl s
  | succ n ih =>
    rw [Condition.dropNots]
    split
    · exact ((ih _).trans (List.dropWhile_suffix _)).trans (List.drop_suffix 4 s)
    · exact List.suffix_refl s

/-- The clause of a group stands between two brackets. -/
theorem exists_of_group? {clause : List Char} (h : Condition.group? s = some clause) :
    ∃ o c, s = o :: (clause ++ [c]) := by
  unfold Condition.group? at h
  split at h
  · next c _ hcut =>
    obtain ⟨o, rfl⟩ := exists_of_cutAtPartner? hcut
    obtain rfl := Option.some.inj h
    exact ⟨o, c, rfl⟩
  · cases h

theorem isInfix_of_group? {clause : List Char} (h : Condition.group? s = some clause) :
    clause <:+: s := by
  obtain ⟨o, c, rfl⟩ := exists_of_group? h
  exact ⟨[o], [c], rfl⟩

/-- The values of a condition are scattered in its text if those of clauses are in theirs. -/
theorem scattered_condition {ofClause : List Char → List Mention}
    (hclause : ∀ clause, Scattered (writtenValues (ofClause clause)) clause) {c : Condition}
    (h : Condition.read? text = some c) : Scattered (writtenValues (c.mentions ofClause)) text := by
  have hdropped : Condition.dropNots text.length (Text.trim text) <:+: text :=
    (dropNots_suffix _ _).isInfix.trans (Text.trim_isInfix text)
  refine Scattered.mono ?_ hdropped
  unfold Condition.read? at h
  dsimp only at h
  split at h
  · next clause hgroup =>
    obtain rfl := Option.some.inj h
    exact (hclause clause).mono (isInfix_of_group? hgroup)
  · obtain ⟨⟨c', r⟩, hhead, rfl⟩ := Option.map_eq_some_iff.mp h
    obtain ⟨f, hf, hmem⟩ := mem_oneOf.mp (List.mem_of_mem_head? hhead)
    simp only [List.mem_cons, List.not_mem_nil, or_false] at hf
    rcases hf with rfl | rfl | rfl | rfl | rfl
    · exact scattered_isNull ofClause hmem
    · exact scattered_between ofClause hmem
    · exact scattered_isIn ofClause hmem
    · exact scattered_like ofClause hmem
    · exact scattered_compare ofClause hmem

/-! ## Clauses -/

/-- Joining parts drops the connectives, each of which stands between two conditions. -/
theorem scattered_joinConditions (condition : List Char) (bounded : Bool) {ps : List (List Char)}
    (hps : ∀ q ∈ ps, q ≠ []) :
    Scattered (joinConditions condition bounded ps) (condition ++ ps.flatten) := by
  induction ps generalizing condition bounded with
  | nil => exact .of_isInfix (by simp)
  | cons p ps ih =>
    obtain ⟨g, p, rfl⟩ := List.exists_cons_of_ne_nil (hps p List.mem_cons_self)
    have hlater : ∀ q ∈ ps, q ≠ [] := fun q hq => hps q (List.mem_cons_of_mem _ hq)
    have hdrop : ∀ n, Scattered (joinConditions ((g :: p).drop (n + 1)) false ps) (p ++ ps.flatten) := by
      intro n
      have hrest := (ih (p.drop n) false hlater).prepend (p.take n)
      rwa [← List.append_assoc, List.take_append_drop] at hrest
    unfold joinConditions
    dsimp only
    split
    · have hjoined := ih (condition ++ g :: p) true hlater
      rwa [List.append_assoc] at hjoined
    · refine .more [] condition g ?_
      cases Text.startsIgnoringCase ['a', 'n', 'd'] (g :: p) with
      | true => exact hdrop 2
      | false => exact hdrop 1

theorem scattered_conditions (clause : List Char) : Scattered (conditions clause) clause := by
  unfold conditions
  split
  · exact .none clause
  · next p ps hparts =>
    have hjoined := scattered_joinConditions p false (ne_nil_of_parts hparts)
    have hflatten := flatten_parts (fun before rest => isKeywordAt "AND" before rest ||
      isKeywordAt "OR" before rest) clause
    rw [hparts, List.flatten_cons] at hflatten
    rw [hflatten] at hjoined
    exact (hjoined.map Text.trim_isInfix).sublist List.filter_sublist

theorem scattered_clauseMentionsTo (depth : Nat) (clause : List Char) :
    Scattered (writtenValues (clauseMentionsTo depth clause)) clause := by
  induction depth generalizing clause with
  | zero => exact .none clause
  | succ depth ih =>
    rw [clauseMentionsTo, writtenValues_flatMap]
    refine (scattered_conditions clause).bind fun text => ?_
    cases hread : Condition.read? text with
    | none => exact .none text
    | some c => exact scattered_condition ih hread

/-! ## Statements -/

/-- A text without a `WHERE` is left as it is; any other is cut before that word, and its clause
stands behind the word. -/
theorem cutAtWhere_cases (body : List Char) :
    cutAtWhere body = (body, none) ∨ ∃ before clause g t,
      cutAtWhere body = (before, some clause) ∧ body = before ++ g :: t ∧ clause <:+: t := by
  unfold cutAtWhere
  cases hcut : cutAtKeyword? "WHERE" body with
  | none => exact .inl rfl
  | some cut =>
    obtain ⟨before, rest⟩ := cut
    obtain ⟨g, t, hbody, hrest⟩ := exists_of_cutAtKeyword? (by decide) hcut
    refine .inr ⟨before, _, g, t, rfl, hbody, ((Text.trim_isInfix _).trans ?_).trans hrest.isInfix⟩
    cases hends : firstCut? (fun before rest => clauseEnds.any fun w => isKeywordAt w before rest) rest with
    | none => exact List.infix_rfl
    | some ends =>
      obtain ⟨x, y⟩ := ends
      obtain ⟨g, t, rfl, -⟩ := exists_of_firstCut? hends
      exact (List.prefix_append x _).isInfix

/-- The values set by an `UPDATE` stand before those of its condition. -/
theorem scattered_update (body : List Char) :
    Scattered (writtenValues (setMentions (cutAtWhere body).1 ++ whereMentions body)) body := by
  rw [writtenValues_append, whereMentions]
  rcases cutAtWhere_cases body with hcut | ⟨before, clause, g, t, hcut, rfl, hclause⟩
  · rw [hcut]
    dsimp only [Option.map_none, Option.getD_none]
    rw [writtenValues_nil, List.append_nil]
    exact scattered_setMentions body
  · rw [hcut]
    have hmentions := scattered_clauseMentionsTo (clause.length + 1) clause
    exact (scattered_setMentions before).append g (hmentions.mono hclause)

theorem scattered_whereMentions (body : List Char) :
    Scattered (writtenValues (whereMentions body)) body := by
  have hboth := scattered_update body
  rw [writtenValues_append] at hboth
  exact hboth.sublist (List.sublist_append_right _ _)

theorem suffix_of_afterValues? {rows : List Char} (h : afterValues? s = some rows) : rows <:+ s := by
  have hkeyword : ∀ w x, 0 < w.length → cutAtKeyword? w s = some (x, rows) → rows <:+ s := by
    intro w x hw hcut
    obtain ⟨g, t, rfl, ht⟩ := exists_of_cutAtKeyword? hw hcut
    exact (ht.trans (List.suffix_cons g t)).trans (List.suffix_append x _)
  unfold afterValues? at h
  obtain ⟨⟨x, y⟩, hcut, rfl⟩ := Option.map_eq_some_iff.mp h
  rcases Option.or_eq_some_iff.mp hcut with hcut | ⟨-, hcut⟩
  · exact hkeyword "VALUES" x (by decide) hcut
  · exact hkeyword "VALUE" x (by decide) hcut

theorem scattered_insert (body : List Char) : Scattered (writtenValues (insertMentions body)) body := by
  refine Scattered.mono (s := Text.trimStart body) ?_ (List.dropWhile_suffix _).isInfix
  unfold insertMentions
  generalize Text.trimStart body = s
  dsimp only
  split
  · cases hcut : cutAtPartner? s with
    | none => exact .none s
    | some cut =>
      obtain ⟨columns, rest⟩ := cut
      obtain ⟨o, rfl⟩ := exists_of_cutAtPartner? hcut
      have htouched : writtenValues (((splitTop ',' columns).map fieldName).map .touch) = [] := by
        apply writtenValues_eq_nil
        intro m hm
        obtain ⟨f, -, rfl⟩ := List.mem_map.mp hm
        rfl
      dsimp only
      rw [writtenValues_append, htouched, List.nil_append]
      cases hrows : afterValues? (rest.drop 1) with
      | none => exact .none _
      | some rows =>
        have hsuffix := (suffix_of_afterValues? hrows).trans (List.drop_suffix 1 rest)
        exact (((scattered_rowMentions _ rows).mono hsuffix.isInfix).prepend columns).prepend [o]
  · cases hcut : cutAtKeyword? "SET" s with
    | none => exact .none s
    | some cut =>
      obtain ⟨x, list⟩ := cut
      obtain ⟨g, t, rfl, ht⟩ := exists_of_cutAtKeyword? (by decide) hcut
      exact (((scattered_setMentions list).mono ht.isInfix).prepend [g]).prepend x

/-- A projection only names columns. -/
theorem writtenValues_projectionMentions (projection : List Char) :
    writtenValues (projectionMentions projection) = [] := by
  apply writtenValues_eq_nil
  intro m hm
  obtain ⟨item, -, hm⟩ := List.mem_filterMap.mp hm
  obtain ⟨column, -, rfl⟩ := Option.map_eq_some_iff.mp hm
  rfl

theorem scattered_select (body : List Char) : Scattered (selectFootprint body).writtenValues body := by
  unfold selectFootprint
  cases hcut : cutAtKeyword? "FROM" body with
  | none => exact .none body
  | some cut =>
    obtain ⟨projection, source⟩ := cut
    obtain ⟨g, t, rfl, ht⟩ := exists_of_cutAtKeyword? (by decide) hcut
    dsimp only
    cases hread : tableForm.read? source with
    | none => exact .none _
    | some read =>
      obtain ⟨table, rest⟩ := read
      obtain ⟨gap, rfl, -⟩ := exists_of_tableForm hread
      have hrest : rest <:+ gap ++ (table ++ rest) :=
        (List.suffix_append table rest).trans (List.suffix_append gap _)
      have hmentions : Scattered (writtenValues (projectionMentions projection ++ whereMentions rest))
          rest := by
        rw [writtenValues_append, writtenValues_projectionMentions]
        exact scattered_whereMentions rest
      have hvalues := (hmentions.ofMentions (targetName table)).mono (hrest.trans ht).isInfix
      exact (hvalues.prepend [g]).prepend projection

/-- The values of a statement are scattered in its body. -/
theorem scattered_body (statement : Statement) :
    Scattered statement.footprint.writtenValues statement.body := by
  cases statement with
  | update table body => exact (scattered_update body).ofMentions (targetName table)
  | insert table body => exact (scattered_insert body).ofMentions (targetName table)
  | delete table body => exact (scattered_whereMentions body).ofMentions (targetName table)
  | select body => exact scattered_select body

/-- The values of a statement are scattered in its text. -/
theorem scattered_statement {statement : Statement} (h : Statement.read? text = some statement) :
    Scattered statement.footprint.writtenValues text :=
  (scattered_body statement).mono (Statement.body_suffix h).isInfix

end SchemaLint.Sql
