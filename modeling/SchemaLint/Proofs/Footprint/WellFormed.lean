import SchemaLint.Proofs.Footprint
import SchemaLint.Proofs.Sql.Column
import SchemaLint.Proofs.Sql.Statement
import SchemaLint.Script

/-!
# Footprints are well-formed

Whatever is written on a line, its footprint names each field once and none without a name, it has no
value of a field that it does not name, its values are trimmed, and a line that is no statement
touches nothing (`footprint_wellFormed`). Those who judge a footprint rely on this.

A footprint is made of mentions at one place, `Footprint.ofMentions`, and there all of it is decided
but two things: that values are trimmed, which is up to the readers of statements, and that the target
has a name. A reader makes a mention with a value in one way only, and trims the value there, so what
is said of each reader is that it has its mentions from its parts. The names of targets come from the
forms of statements, which ask for a character at least.
-/

namespace SchemaLint

open Text

/-- The value of a mention, if it has one, is trimmed. -/
def Mention.IsTrimmed (m : Mention) : Prop :=
  ∀ v ∈ m.value?, Trimmed v.2.toList

theorem Mention.isTrimmed_touch (field : String) : (touch field).IsTrimmed := by
  simp [IsTrimmed, value?]

theorem Mention.isTrimmed_assign (field : String) (value : List Char) :
    (assign field (String.ofList (trim value))).IsTrimmed := by
  simp [IsTrimmed, value?, trimmed_trim]

theorem Mention.field_of_value? {m : Mention} {v : String × String} (h : m.value? = some v) :
    m.field = v.1 := by
  cases m with
  | touch f => cases h
  | assign f w =>
    obtain rfl := Option.some.inj h
    rfl

namespace Footprint

/-- What holds of the footprint of every line. -/
structure WellFormed (p : Footprint) : Prop where
  nodup : p.fields.Nodup
  named : "" ∉ p.fields
  declared : ∀ v ∈ p.values, v.1 ∈ p.fields
  trimmed : ∀ v ∈ p.values, Trimmed v.2.toList
  unrecognized : p.target = none → p.fields = [] ∧ p.values = []
  target_ne : p.target ≠ some ""

theorem wellFormed_unrecognized : Footprint.unrecognized.WellFormed := by
  constructor <;> simp [Footprint.unrecognized]

theorem nodup_foldl_addField {fs acc : List String} (h : acc.Nodup) :
    (fs.foldl addField acc).Nodup := by
  induction fs generalizing acc with
  | nil => exact h
  | cons f fs ih =>
    apply ih
    unfold addField
    split
    · exact h
    · next hf =>
      rw [List.contains_iff_mem] at hf
      simp [List.nodup_append, h]
      grind

variable {target : String} {ms : List Mention}

theorem wellFormed_ofMentions (htarget : target ≠ "") (h : ∀ m ∈ ms, m.IsTrimmed) :
    (ofMentions target ms).WellFormed := by
  have hvalue : ∀ v ∈ (ofMentions target ms).values,
      ∃ m ∈ ms, m.field ≠ "" ∧ m.value? = some v := by
    intro v hv
    obtain ⟨m, hm, hmv⟩ := List.mem_filterMap.mp hv
    rw [List.mem_filter, bne_iff_ne] at hm
    exact ⟨m, hm.1, hm.2, hmv⟩
  refine ⟨nodup_foldl_addField List.nodup_nil, ?_, ?_, ?_, by simp [ofMentions], by
    simpa [ofMentions] using htarget⟩
  · rw [mem_fields_ofMentions]
    simp
  · intro v hv
    obtain ⟨m, hm, hne, hmv⟩ := hvalue v hv
    have hfield := Mention.field_of_value? hmv
    rw [mem_fields_ofMentions, ← hfield]
    exact ⟨hne, m, hm, rfl⟩
  · intro v hv
    obtain ⟨m, hm, -, hmv⟩ := hvalue v hv
    exact h m hm v hmv

end Footprint

/-! ## Statements -/

namespace Sql

open Form Mention Nesting

theorem isTrimmed_valueMention (field : String) (value : List Char) :
    (valueMention field value).IsTrimmed := by
  unfold valueMention
  split
  · exact isTrimmed_touch field
  · exact isTrimmed_assign field value

theorem Condition.isTrimmed_mentions {ofClause : List Char → List Mention}
    (h : ∀ clause, ∀ m ∈ ofClause clause, m.IsTrimmed) (c : Condition) :
    ∀ m ∈ c.mentions ofClause, m.IsTrimmed := by
  cases c with
  | group clause => exact h clause
  | isNull column => simp [Condition.mentions, isTrimmed_touch]
  | between column low high => simp [Condition.mentions, isTrimmed_valueMention]
  | isIn column list =>
    rw [Condition.mentions, List.forall_mem_cons]
    refine ⟨isTrimmed_touch _, ?_⟩
    split
    · simp
    · exact List.forall_mem_map.mpr fun value _ => isTrimmed_valueMention _ value
  | compare column value => simp [Condition.mentions, isTrimmed_valueMention]

theorem isTrimmed_clauseMentionsTo (depth : Nat) (clause : List Char) :
    ∀ m ∈ clauseMentionsTo depth clause, m.IsTrimmed := by
  induction depth generalizing clause with
  | zero => simp [clauseMentionsTo]
  | succ depth ih =>
    intro m hm
    obtain ⟨text, -, hm⟩ := List.mem_flatMap.mp hm
    cases hread : Condition.read? text with
    | none => simp [hread] at hm
    | some c =>
      rw [hread] at hm
      exact c.isTrimmed_mentions ih m hm

theorem isTrimmed_whereMentions (body : List Char) : ∀ m ∈ whereMentions body, m.IsTrimmed := by
  unfold whereMentions
  cases (cutAtWhere body).2 with
  | none => simp
  | some clause => exact isTrimmed_clauseMentionsTo _ clause

theorem isTrimmed_setMentions (list : List Char) : ∀ m ∈ setMentions list, m.IsTrimmed := by
  intro m hm
  obtain ⟨item, -, hm⟩ := List.mem_filterMap.mp hm
  obtain ⟨cut, -, rfl⟩ := Option.map_eq_some_iff.mp hm
  exact isTrimmed_valueMention _ _

theorem isTrimmed_rowMentions (columns : List String) (rows : List Char) :
    ∀ m ∈ rowMentions columns rows, m.IsTrimmed := by
  intro m hm
  obtain ⟨row, -, hm⟩ := List.mem_flatMap.mp hm
  split at hm
  · obtain ⟨cell, -, rfl⟩ := List.mem_map.mp hm
    exact isTrimmed_valueMention _ _
  · cases hm

theorem isTrimmed_insertMentions (body : List Char) : ∀ m ∈ insertMentions body, m.IsTrimmed := by
  unfold insertMentions
  dsimp only
  split
  · split
    · simp
    · next columns rest _ =>
      rw [List.forall_mem_append]
      constructor
      · exact List.forall_mem_map.mpr fun c _ => isTrimmed_touch c
      · cases afterValues? (rest.drop 1) with
        | none => simp
        | some rows => exact isTrimmed_rowMentions _ rows
  · cases cutAtKeyword? "SET" (trimStart body) with
    | none => simp
    | some cut => exact isTrimmed_setMentions cut.2

theorem isTrimmed_projectionMentions (projection : List Char) :
    ∀ m ∈ projectionMentions projection, m.IsTrimmed := by
  intro m hm
  obtain ⟨item, -, hm⟩ := List.mem_filterMap.mp hm
  obtain ⟨column, -, rfl⟩ := Option.map_eq_some_iff.mp hm
  exact isTrimmed_touch _

/-! ## Names of tables -/

/-- A text that is read as a name in some text. -/
def IsName (table : List Char) : Prop :=
  ∃ s r, (table, r) ∈ name s

theorem IsName.exists_char {table : List Char} (h : IsName table) :
    ∃ c ∈ table, isNameChar c = true := by
  obtain ⟨s, r, h⟩ := h
  obtain ⟨first, later, t, hfirst, -, rfl⟩ := mem_append.mp h
  obtain ⟨front, closing, u, hfront, -, rfl⟩ := mem_append.mp hfirst
  obtain ⟨opening, chars, v, -, hchars, rfl⟩ := mem_append.mp hfront
  obtain ⟨head, more, w, hhead, -, rfl⟩ := mem_append.mp hchars
  obtain ⟨c, hc, rfl, -⟩ := mem_char.mp hhead
  exact ⟨c, by simp, hc⟩

/-- Only quotes and blanks are taken off a name. -/
theorem mem_unquote {c : Char} {s : List Char} (h : c ∈ s) (hblank : isBlank c = false)
    (hquote : isQuote c = false) : c ∈ Identifier.unquote s := by
  have htrim : c ∈ trim s := by
    obtain ⟨gap, gap', hgap, hgap', hs⟩ := exists_append_trim s
    rw [hs, List.mem_append, List.mem_append] at h
    grind
  unfold Identifier.unquote
  split
  · next hnil => simp [hnil] at htrim
  · next q r hq =>
    rw [hq] at htrim
    split
    · next hpair =>
      rw [Bool.and_eq_true, beq_iff_eq] at hpair
      obtain ⟨u, rfl⟩ := List.getLast?_eq_some_iff.mp hpair.2
      rw [List.dropLast_concat]
      grind
    · exact htrim

theorem mem_normalize {c : Char} {s : List Char} (h : c ∈ s) (hname : isNameChar c = true) :
    c ∈ Identifier.normalize s := by
  have hdot : (c == '.') = false := by
    rw [beq_eq_false_iff_ne]
    rintro rfl
    exact absurd hname (by decide)
  have hblank : isBlank c = false := by
    by_contra hblank
    rw [Bool.not_eq_false] at hblank
    simp [isNameChar_of_isBlank hblank] at hname
  have hplain := isPlain_of_isNameChar hname
  simp only [isPlain, Bool.and_eq_true, Bool.not_eq_true'] at hplain
  have hsegments : c ∈ (Identifier.segments s).flatten := by
    rw [Identifier.segments, flatten_pieces, List.mem_filter]
    exact ⟨h, by simp [hdot]⟩
  obtain ⟨p, hp, hc⟩ := List.mem_flatten.mp hsegments
  have hunquoted := mem_unquote hc hblank hplain.1.1
  unfold Identifier.normalize
  cases hall : Identifier.segments s with
  | nil => simp [hall] at hp
  | cons q qs =>
    rw [List.map_cons, intercalate_dotted, List.mem_append, List.mem_flatMap]
    rw [hall] at hp
    rcases List.mem_cons.mp hp with rfl | hp
    · exact .inl hunquoted
    · exact .inr ⟨_, List.mem_map_of_mem hp, List.mem_cons_of_mem _ hunquoted⟩

theorem targetName_ne_empty {table : List Char} (h : IsName table) : targetName table ≠ "" := by
  obtain ⟨c, hc, hname⟩ := h.exists_char
  have hmem := mem_normalize hc hname
  rw [targetName, ← String.ofList_nil, Ne, String.ofList_inj]
  exact List.ne_nil_of_mem hmem

/-- The table that the form of a statement reads. -/
def Statement.table? : Statement → Option (List Char)
  | update table _ | insert table _ | delete table _ => some table
  | select _ => none

section Tables

variable {statement : Statement} {text r : List Char}

theorem isName_of_updateForm (h : (statement, r) ∈ updateForm text) :
    ∀ table ∈ statement.table?, IsName table := by
  obtain ⟨verb, t, -, h⟩ := mem_bind.mp h
  obtain ⟨table, u, hname, h⟩ := mem_bind.mp h
  obtain ⟨set, v, -, h⟩ := mem_bind.mp h
  obtain ⟨body, w, -, h⟩ := mem_bind.mp h
  obtain ⟨rfl, -⟩ := mem_pure.mp h
  simpa [Statement.table?] using ⟨t, u, hname⟩

/-- A verb with its modifiers, a table, and all that is left. -/
theorem isName_of_verb {verb : Form (List Char)} {make : List Char → List Char → Statement}
    (hmake : ∀ table body, (make table body).table? = some table)
    (h : (statement, r) ∈ (do
      let _ ← verb
      let table ← name
      return make table (← rest) : Form Statement) text) :
    ∀ table ∈ statement.table?, IsName table := by
  obtain ⟨verb, t, -, h⟩ := mem_bind.mp h
  obtain ⟨table, u, hname, h⟩ := mem_bind.mp h
  obtain ⟨body, v, -, h⟩ := mem_bind.mp h
  obtain ⟨rfl, -⟩ := mem_pure.mp h
  simpa [hmake] using ⟨t, u, hname⟩

theorem isName_of_read? (h : Statement.read? text = some statement) :
    ∀ table ∈ statement.table?, IsName table := by
  obtain ⟨r, h | h | h | h⟩ := mem_of_read? h
  · exact isName_of_updateForm h
  · exact isName_of_verb (fun _ _ => rfl) h
  · exact isName_of_verb (fun _ _ => rfl) h
  · obtain ⟨body, rfl⟩ := mem_selectForm h
    simp [Statement.table?]

theorem isName_of_tableForm {source table rest : List Char}
    (h : tableForm.read? source = some (table, rest)) : IsName table := by
  obtain ⟨-, -, hname⟩ := exists_of_tableForm h
  exact ⟨_, _, hname⟩

end Tables

open Footprint

theorem wellFormed_selectFootprint (body : List Char) : (selectFootprint body).WellFormed := by
  unfold selectFootprint
  split
  · exact wellFormed_unrecognized
  · next projection source _ =>
    split
    · exact wellFormed_unrecognized
    · next table rest hread =>
      exact wellFormed_ofMentions (targetName_ne_empty (isName_of_tableForm hread))
        (List.forall_mem_append.mpr ⟨isTrimmed_projectionMentions projection, isTrimmed_whereMentions rest⟩)

theorem wellFormed_footprint (line : List Char) : (footprint line).WellFormed := by
  unfold footprint
  cases hread : Statement.read? (statementOf line) with
  | none => exact wellFormed_unrecognized
  | some statement =>
    have hname := isName_of_read? hread
    cases statement with
    | update table body =>
      exact wellFormed_ofMentions (targetName_ne_empty (hname table rfl))
        (List.forall_mem_append.mpr ⟨isTrimmed_setMentions _, isTrimmed_whereMentions body⟩)
    | insert table body =>
      exact wellFormed_ofMentions (targetName_ne_empty (hname table rfl)) (isTrimmed_insertMentions body)
    | delete table body =>
      exact wellFormed_ofMentions (targetName_ne_empty (hname table rfl)) (isTrimmed_whereMentions body)
    | select body => exact wellFormed_selectFootprint body

end Sql

/-! ## Calls -/

namespace Shell

open Mention

theorem isTrimmed_touched (field : List Char) : (touched field).IsTrimmed :=
  isTrimmed_touch _

theorem isTrimmed_assigned (field value : List Char) : (assigned field value).IsTrimmed :=
  isTrimmed_assign _ value

theorem isTrimmed_memberMention? (field item : List Char) :
    ∀ m ∈ memberMention? field item, m.IsTrimmed := by
  unfold memberMention?
  split
  · rintro m ⟨rfl⟩
    exact isTrimmed_assigned field _
  · simp

theorem isTrimmed_operatorMentions (field operator operand : List Char) :
    ∀ m ∈ operatorMentions field operator operand, m.IsTrimmed := by
  intro m hm
  unfold operatorMentions at hm
  split at hm
  · exact isTrimmed_memberMention? field operand m (Option.mem_toList.mp hm)
  · split at hm
    · obtain ⟨item, -, hm⟩ := List.mem_filterMap.mp hm
      exact isTrimmed_memberMention? field item m hm
    · cases hm

theorem isTrimmed_conditionMentions (field body : List Char) :
    ∀ m ∈ conditionMentions field body, m.IsTrimmed := by
  intro m hm
  rcases List.mem_cons.mp hm with rfl | hm
  · exact isTrimmed_touched field
  · split at hm
    · obtain ⟨entry, -, hm⟩ := List.mem_flatMap.mp hm
      exact isTrimmed_operatorMentions field _ _ m hm
    · cases hm

theorem isTrimmed_fieldMentions (field value : List Char) :
    ∀ m ∈ fieldMentions field value, m.IsTrimmed := by
  unfold fieldMentions
  split
  · split
    · simpa using isTrimmed_touched field
    · simpa using isTrimmed_assigned field _
  · simpa using isTrimmed_touched field
  · exact isTrimmed_conditionMentions field _

theorem isTrimmed_queryMentionsTo (depth : Nat) (query : List Char) :
    ∀ m ∈ queryMentionsTo depth query, m.IsTrimmed := by
  induction depth generalizing query with
  | zero => simp [queryMentionsTo]
  | succ depth ih =>
    intro m hm
    obtain ⟨⟨key, value⟩, -, hm⟩ := List.mem_flatMap.mp hm
    dsimp only at hm
    split at hm
    · obtain ⟨item, -, hm⟩ := List.mem_flatMap.mp hm
      exact ih item m hm
    · split at hm
      · cases hm
      · exact isTrimmed_fieldMentions key value m hm

theorem isTrimmed_writtenMention (field value : List Char) : (writtenMention field value).IsTrimmed := by
  unfold writtenMention
  split
  · exact isTrimmed_assigned field _
  · exact isTrimmed_touched field

theorem isTrimmed_documentMentions (document : List Char) :
    ∀ m ∈ documentMentions document, m.IsTrimmed := by
  intro m hm
  obtain ⟨⟨field, value⟩, -, hm⟩ := List.mem_filterMap.mp hm
  dsimp only at hm
  split at hm
  · cases hm
  · obtain rfl := Option.some.inj hm
    exact isTrimmed_writtenMention field value

theorem isTrimmed_updateMentions (update : List Char) : ∀ m ∈ updateMentions update, m.IsTrimmed := by
  unfold updateMentions
  dsimp only
  split
  · intro m hm
    obtain ⟨⟨operator, body⟩, -, hm⟩ := List.mem_flatMap.mp hm
    obtain ⟨⟨field, value⟩, -, rfl⟩ := List.mem_map.mp hm
    dsimp only
    split
    · exact isTrimmed_writtenMention field value
    · exact isTrimmed_touched field
  · exact isTrimmed_documentMentions update

theorem isTrimmed_projectionMentions (projection : List Char) :
    ∀ m ∈ projectionMentions projection, m.IsTrimmed := by
  intro m hm
  obtain ⟨⟨field, value⟩, -, hm⟩ := List.mem_filterMap.mp hm
  dsimp only at hm
  split at hm
  · cases hm
  · obtain rfl := Option.some.inj hm
    exact isTrimmed_touched field

theorem Call.isTrimmed_mentions (c : Call) : ∀ m ∈ c.mentions, m.IsTrimmed := by
  have hquery := isTrimmed_queryMentionsTo ((c.arg 0).length + 1) (c.arg 0)
  unfold Call.mentions
  split
  · exact List.forall_mem_append.mpr ⟨hquery, isTrimmed_projectionMentions _⟩
  · exact hquery
  · exact hquery
  · exact List.forall_mem_append.mpr ⟨hquery, isTrimmed_updateMentions _⟩
  · exact List.forall_mem_append.mpr ⟨hquery, isTrimmed_documentMentions _⟩
  · exact isTrimmed_documentMentions _
  · intro m hm
    obtain ⟨item, -, hm⟩ := List.mem_flatMap.mp hm
    exact isTrimmed_documentMentions item m hm

/-! ## Names of collections -/

open Form

theorem ne_nil_of_quotedName {quote : Char} {x r s : List Char} (h : (x, r) ∈ quotedName quote s) :
    x ≠ [] := by
  obtain ⟨opening, t, -, h⟩ := mem_bind.mp h
  obtain ⟨name, u, hname, h⟩ := mem_bind.mp h
  obtain ⟨closing, v, -, h⟩ := mem_bind.mp h
  obtain ⟨rfl, -⟩ := mem_pure.mp h
  exact (mem_run1 hname).2.1

theorem ne_nil_of_getCollectionForm {x r s : List Char} (h : (x, r) ∈ getCollectionForm s) : x ≠ [] := by
  obtain ⟨opening, t, -, h⟩ := mem_bind.mp h
  obtain ⟨name, u, hname, h⟩ := mem_bind.mp h
  obtain ⟨closing, v, -, h⟩ := mem_bind.mp h
  obtain ⟨rfl, -⟩ := mem_pure.mp h
  obtain ⟨f, hf, hname⟩ := mem_oneOf.mp hname
  simp only [List.mem_cons, List.not_mem_nil, or_false] at hf
  rcases hf with rfl | rfl <;> exact ne_nil_of_quotedName hname

theorem collection_ne_nil {p : List Char × List Char} {r s : List Char} (h : (p, r) ∈ callForm s) :
    p.1 ≠ [] := by
  obtain ⟨db, t, -, h⟩ := mem_bind.mp h
  obtain ⟨collection, u, hcollection, h⟩ := mem_bind.mp h
  obtain ⟨dot, v, -, h⟩ := mem_bind.mp h
  obtain ⟨verb, w, -, h⟩ := mem_bind.mp h
  obtain ⟨opening, y, -, h⟩ := mem_bind.mp h
  obtain ⟨rfl, -⟩ := mem_pure.mp h
  obtain ⟨f, hf, hname⟩ := mem_oneOf.mp hcollection
  simp only [List.mem_cons, List.not_mem_nil, or_false] at hf
  rcases hf with rfl | rfl
  · exact ne_nil_of_getCollectionForm hname
  · exact (mem_run1 hname).2.1

theorem collection_ne_empty {statement : List Char} {c : Call} (h : Call.read? statement = some c) :
    c.collection ≠ "" := by
  unfold Call.read? at h
  obtain ⟨⟨⟨collection, verb⟩, rest⟩, hform, h⟩ := Option.bind_eq_some_iff.mp h
  obtain ⟨layout, -, h⟩ := Option.bind_eq_some_iff.mp h
  obtain ⟨cut, -, h⟩ := Option.bind_eq_some_iff.mp h
  obtain rfl := Option.some.inj h
  rw [← String.ofList_nil, Ne, String.ofList_inj]
  exact collection_ne_nil (List.mem_of_head? hform)

theorem wellFormed_footprint (line : List Char) : (footprint line).WellFormed := by
  unfold footprint
  cases hread : Call.read? (statementOf line) with
  | none => exact Footprint.wellFormed_unrecognized
  | some c => exact Footprint.wellFormed_ofMentions (collection_ne_empty hread) c.isTrimmed_mentions

end Shell

/-- In either dialect the footprint of a line names each field once, and none without a name; a value
is one of a field that is named, and is trimmed; a line without a target touches nothing, and a target
has a name. -/
theorem footprint_wellFormed (d : Dialect) (line : List Char) : (footprint d line).WellFormed := by
  cases d with
  | mysql => exact Sql.wellFormed_footprint line
  | mongodb => exact Shell.wellFormed_footprint line

end SchemaLint
