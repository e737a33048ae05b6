import SchemaLint.Proofs.Form.Sequence
import SchemaLint.Proofs.Text
import SchemaLint.Proofs.Sql.Named
import SchemaLint.Proofs.Validator.Path

/-!
# Numbers in the place of columns

A name may begin with a digit, so a number is read as a column wherever a column may stand, and its
line touches a field of that name. Without backquotes a line touches a number exactly when it reads a
column whose last segment is the number, or writes to one whose last segment is the number, with or
without quotes around it (`numeral_mem_fields_iff`).
-/

namespace SchemaLint.Sql

open Form Nesting Text

/-- The characters of a name with its qualifiers. -/
def isColumnChar (c : Char) : Bool :=
  c == '\x60' || c == '.' || isBlank c || isNameChar c

theorem over_name : Over isColumnChar name := by
  have hname : ∀ c, isNameChar c = true → isColumnChar c = true := fun c hc => by
    simp [isColumnChar, hc]
  have htick : Over isColumnChar (opt tick) :=
    (over_char fun c hc => by simp [isColumnChar, beq_iff_eq.mp hc]).opt
  have hblank : Over isColumnChar blanks := over_run fun c hc => by simp [isColumnChar, hc]
  have hdot : Over isColumnChar (exact ['.']) := over_exact (by decide)
  have hsegment : Over isColumnChar segment :=
    (htick.append ((over_char hname).append (over_span hname))).append htick
  exact hsegment.append (((hblank.append hdot).append hblank).append hsegment).star

/-! ## Last segments -/

theorem mem_lastSegment {column : List Char} {c : Char} (h : c ∈ lastSegment column) :
    c ∈ column ∧ isBlank c = false ∧ c ≠ '.' := by
  unfold lastSegment Identifier.unqualified at h
  cases hlast : (Identifier.segments (words column).flatten).getLast? with
  | none =>
    rw [hlast] at h
    cases h
  | some p =>
    rw [hlast] at h
    have hp := List.mem_of_getLast? hlast
    have hdot := not_mem_pieces p hp c h
    have hflat : c ∈ (Identifier.segments (words column).flatten).flatten := List.mem_flatten_of_mem hp h
    rw [Identifier.segments, flatten_pieces, flatten_words, List.mem_filter, List.mem_filter] at hflat
    exact ⟨hflat.1.1, by simpa using hflat.1.2, by simpa using hdot⟩

theorem trimmed_lastSegment (column : List Char) : Trimmed (lastSegment column) :=
  ⟨fun _ hc => (mem_lastSegment (List.mem_of_mem_head? hc)).2.1,
    fun _ hc => (mem_lastSegment (List.mem_of_getLast? hc)).2.1⟩

theorem isQuote_of_isNameChar {c : Char} (h : isNameChar c = true) : isQuote c = false := by
  have hplain := isPlain_of_isNameChar h
  simp only [isPlain, Bool.and_eq_true, Bool.not_eq_true'] at hplain
  exact hplain.1.1

/-- A name without backquotes is called by its last segment as it is. -/
theorem fieldName_of_hasName {s column : List Char} (h : HasName s column) (htick : '\x60' ∉ s) :
    fieldName column = String.ofList (lastSegment column) := by
  have hquote : ∀ c ∈ (lastSegment column).head?, isQuote c = false := by
    intro c hc
    obtain ⟨hmem, hblank, hdot⟩ := mem_lastSegment (List.mem_of_mem_head? hc)
    have hne : c ≠ '\x60' := by
      rintro rfl
      exact htick (h.isInfix.subset hmem)
    obtain ⟨t, r, -, hname⟩ := h
    have hchar := over_name t column r hname c hmem
    simp only [isColumnChar, hblank, Bool.or_eq_true, beq_iff_eq, hne, hdot, false_or,
      Bool.false_eq_true] at hchar
    exact isQuote_of_isNameChar hchar
  rw [fieldName_eq, Identifier.unquote_of_head (trimmed_lastSegment column) hquote]

/-! ## Numbers -/

theorem toLower_of_isDigit {c : Char} (h : c.isDigit = true) : c.toLower = c ∧ c.toNat < 128 := by
  simp only [Char.isDigit, Bool.and_eq_true, decide_eq_true_eq, ge_iff_le,
    UInt32.le_iff_toNat_le] at h
  have hval : c.toNat = c.val.toNat := rfl
  have hzero : '0'.val.toNat = 48 := rfl
  have hnine : '9'.val.toNat = 57 := rfl
  refine ⟨Char.toLower_eq_of_not_isUpper ?_, by omega⟩
  simp only [Char.isUpper, decide_eq_true_eq, ge_iff_le, UInt32.le_iff_toNat_le]
  have hupper : 'A'.val.toNat = 65 := rfl
  omega

/-- A number as it is written. -/
structure Numeral where
  text : List Char
  ne_nil : text ≠ []
  isDigit : ∀ c ∈ text, c.isDigit = true

namespace Numeral

variable (n : Numeral) {s : List Char}

/-- The name of the field that the number is taken for. -/
def name : String :=
  String.ofList n.text

/-- The last segments that are called by the number: the number itself, or in a pair of quotes. -/
def spellings : List (List Char) :=
  [n.text, '\x27' :: (n.text ++ ['\x27']), '\x22' :: (n.text ++ ['\x22'])]

theorem name_ne_empty : n.name ≠ "" := by
  intro h
  exact n.ne_nil (by simpa [name] using congrArg String.toList h)

theorem isNameChar_of_mem : ∀ c ∈ n.text, isNameChar c = true := by
  intro c hc
  have hdigit : (c.isAlphanum || c == '_') = true := by simp [Char.isAlphanum, n.isDigit c hc]
  exact (ascii_nameChar hdigit).2.1

theorem isQuote_of_mem_head? : ∀ c ∈ n.text.head?, isQuote c = false :=
  fun c hc => isQuote_of_isNameChar (n.isNameChar_of_mem c (List.mem_of_mem_head? hc))

theorem not_blank_of_mem : ∀ c ∈ n.text, isBlank c = false := by
  intro c hc
  rw [← Bool.not_eq_true]
  intro hblank
  have hname := isNameChar_of_isBlank hblank
  rw [n.isNameChar_of_mem c hc] at hname
  cases hname

theorem ne_dot_of_mem : ∀ c ∈ n.text, c ≠ '.' := by
  rintro c hc rfl
  exact absurd (n.isDigit _ hc) (by decide)

theorem lastSegment_text : lastSegment n.text = n.text := by
  have hwords : (words n.text).flatten = n.text := by
    rw [words_of_forall n.ne_nil n.not_blank_of_mem, List.flatten_singleton]
  rw [lastSegment, hwords, Identifier.unqualified, segments_of_ne_dot n.ne_dot_of_mem]
  rfl

/-- A trimmed text without quotes is the number if it is the number, or has it in a pair of quotes. -/
theorem unquote_eq_iff (hs : Trimmed s) :
    Identifier.unquote s = n.text ↔
      s = n.text ∨ ∃ q, isQuote q = true ∧ s = q :: (n.text ++ [q]) := by
  constructor
  · intro h
    unfold Identifier.unquote at h
    rw [hs.trim_eq] at h
    cases s with
    | nil => exact absurd h.symm n.ne_nil
    | cons q r =>
      dsimp only at h
      split at h
      · next hquoted =>
        rw [Bool.and_eq_true, beq_iff_eq] at hquoted
        refine .inr ⟨q, hquoted.1, ?_⟩
        rw [← h, List.dropLast_append_getLast? q hquoted.2]
      · exact .inl h
  · rintro (rfl | ⟨q, hq, rfl⟩)
    · exact Identifier.unquote_of_head hs n.isQuote_of_mem_head?
    · exact Shell.unquote_quoted hq n.text

theorem exists_digit : ∃ d s, n.text = d :: s ∧ d.isDigit = true := by
  obtain ⟨d, s, hcons⟩ := List.exists_cons_of_ne_nil n.ne_nil
  exact ⟨d, s, hcons, n.isDigit d (by rw [hcons]; exact List.mem_cons_self)⟩

/-- No letter folds together with the first digit. -/
theorem letter_eq_nil {l : Char} (hl : isIdentChar l = true) (hdigit : l.toLower.isDigit = false)
    (r : List Char) : char (Unicode.sameFold l) (n.text ++ r) = [] := by
  obtain ⟨d, s, hcons, hd⟩ := n.exists_digit
  obtain ⟨hlower, hascii⟩ := toLower_of_isDigit hd
  rw [hcons, List.cons_append]
  refine Form.letter_eq_nil hl hascii ?_
  rw [hlower]
  rintro rfl
  rw [hd] at hdigit
  cases hdigit

/-- A number that neither a backquote nor a dot follows is read as a whole name. -/
theorem only_name {r : List Char} (hr : EndsName r) (hdot : dot r = []) :
    Only Sql.name (n.text ++ r) n.text r :=
  only_name_of_chars n.ne_nil n.isNameChar_of_mem hr hdot

/-- A number is a plain item of a projection. -/
theorem read?_columnForm : columnForm.read? n.text = some n.text := by
  have hdistinct : (word "DISTINCT" ++ blanks1) (n.text ++ []) = [] :=
    append_eq_nil _ (append_eq_nil _ (n.letter_eq_nil (by decide) (by decide) []))
  have hname : Only Sql.name (n.text ++ []) n.text [] := n.only_name (by rintro c ⟨⟩) (by decide)
  have hread : columnForm (n.text ++ []) = [(n.text, [])] := by
    rw [columnForm, (Only.opt_nil hdistinct).bind_eq, hname.bind_eq]
    rfl
  rw [← List.append_nil n.text, Form.read?, hread]
  simp

theorem not_negation (r : List Char) :
    startsIgnoringCase ['n', 'o', 't', ' '] (n.text ++ r) = false := by
  obtain ⟨d, s, hcons, hd⟩ := n.exists_digit
  have hne : ('n'.toLower == d.toLower) = false := by
    rw [(toLower_of_isDigit hd).1, beq_eq_false_iff_ne]
    rintro rfl
    exact absurd hd (by decide)
  rw [hcons, List.cons_append, startsIgnoringCase, hne, Bool.false_and]

theorem head?_ne_parenthesis (r : List Char) : (n.text ++ r).head? ≠ some '(' := by
  obtain ⟨d, s, hcons, hd⟩ := n.exists_digit
  rw [hcons]
  intro h
  rw [Option.some.inj h] at hd
  exact absurd hd (by decide)

end Numeral

/-! ## Comparisons with a number on the left -/

theorem Comparison.head?_append (operator : Comparison) (r : List Char) :
    ∀ c ∈ (operator.text ++ r).head?, isBlank c = false ∧ c ≠ '.' ∧ isNameChar c = false ∧
      c ≠ '\x60' := by
  cases operator <;> rintro c ⟨⟩ <;> decide

/-- A name ends in front of an operator. -/
theorem Comparison.endsName {gap : List Char} (hgap : ∀ c ∈ gap, isBlank c = true)
    (operator : Comparison) (r : List Char) : EndsName (gap ++ (operator.text ++ r)) := by
  intro c hc
  cases gap with
  | nil => exact (operator.head?_append r c hc).2.2
  | cons b gap =>
    obtain rfl : b = c := Option.some.inj hc
    have hblank := hgap b List.mem_cons_self
    refine ⟨isNameChar_of_isBlank hblank, ?_⟩
    rintro rfl
    exact absurd hblank (by decide)

/-- Behind a name, an operator and what is compared are read, in one way or another. -/
theorem mem_compareForm {x gap r : List Char} (hgap : ∀ c ∈ gap, isBlank c = true)
    (operator : Comparison) (hr : r ≠ [])
    (hname : Only name (x ++ (gap ++ (operator.text ++ r))) x (gap ++ (operator.text ++ r))) :
    (Condition.compare x r, []) ∈ Condition.compareForm (x ++ (gap ++ (operator.text ++ r))) := by
  have hblanks : (gap, operator.text ++ r) ∈ blanks (gap ++ (operator.text ++ r)) :=
    List.mem_of_mem_head? (Prefers.run hgap fun c hc => (operator.head?_append r c hc).1)
  have hexact : (operator.text, r) ∈ oneOf (Condition.operators.map exact) (operator.text ++ r) := by
    refine mem_oneOf.mpr ⟨_, List.mem_map_of_mem ?_, mem_exact.mpr ⟨rfl, rfl⟩⟩
    cases operator <;> decide
  have hoperator : (gap ++ operator.text ++ [], r) ∈
      (blanks ++ oneOf (Condition.operators.map exact) ++ blanks) (gap ++ (operator.text ++ r)) :=
    mem_append.mpr ⟨_, [], r, mem_append.mpr ⟨gap, _, _, hblanks, hexact, rfl⟩, mem_run_nil r, rfl⟩
  have hrest : (r, []) ∈ rest1 r := List.mem_of_mem_head? (Prefers.rest1 hr)
  rw [Condition.compareForm, hname.bind_eq]
  exact mem_bind.mpr ⟨_, r, hoperator, mem_bind.mpr ⟨r, [], hrest, mem_pure.mpr ⟨rfl, rfl⟩⟩⟩

/-- Where a text has one name only at its start, each condition that is read there compares it. -/
theorem column?_of_only {s x r : List Char} (hname : Only name s x r) {c : Condition} {t : List Char}
    (h : (c, t) ∈ oneOf forms s) : c.column? = some x := by
  obtain ⟨f, hf, hmem⟩ := mem_oneOf.mp h
  obtain ⟨column, u, hcolumn, hread⟩ := mem_name_of_mem_forms hf hmem
  rw [show name s = [(x, r)] from hname, List.mem_singleton] at hread
  rw [hcolumn, (Prod.mk.inj hread).1]

/-- A condition that begins with a number and an operator compares the number. -/
theorem Numeral.read?_condition (n : Numeral) {gap r : List Char}
    (hgap : ∀ c ∈ gap, isBlank c = true) (operator : Comparison) (hr : r ≠ [])
    (htrim : Trimmed (n.text ++ (gap ++ (operator.text ++ r)))) :
    ∃ c, Condition.read? (n.text ++ (gap ++ (operator.text ++ r))) = some c ∧
      c.column? = some n.text := by
  have hdot : dot (gap ++ (operator.text ++ r)) = [] :=
    dot_gap_eq_nil hgap fun c hc =>
      ⟨(operator.head?_append r c hc).1, (operator.head?_append r c hc).2.1⟩
  have hname := n.only_name (operator.endsName hgap r) hdot
  have hcompare := mem_oneOf.mpr ⟨_, (by simp [forms] : Condition.compareForm ∈ forms),
    mem_compareForm hgap operator hr hname⟩
  obtain ⟨⟨c, t⟩, ways, hways⟩ := List.exists_cons_of_ne_nil (List.ne_nil_of_mem hcompare)
  refine ⟨c, ?_, column?_of_only hname (by rw [hways]; exact List.mem_cons_self)⟩
  rw [read?_eq htrim (n.not_negation _) (n.head?_ne_parenthesis _), Form.read?, hways]
  rfl

theorem trimmed_of_mem_conditions {clause text : List Char} (h : text ∈ conditions clause) :
    Trimmed text := by
  unfold conditions at h
  split at h
  · cases h
  · obtain ⟨p, -, rfl⟩ := List.mem_map.mp (List.mem_filter.mp h).1
    exact trimmed_trim p

/-! ## Numbers that are touched -/

section Touched

variable (n : Numeral)

/-- A column that is written to is called by a number if its last segment spells the number. -/
theorem fieldName_eq_name_iff {column : List Char} (htick : '\x60' ∉ column) :
    fieldName column = n.name ↔ lastSegment column ∈ n.spellings := by
  rw [fieldName_eq, Numeral.name, String.ofList_inj, n.unquote_eq_iff (trimmed_lastSegment column)]
  simp only [Numeral.spellings, List.mem_cons, List.not_mem_nil, or_false]
  refine or_congr_right ⟨?_, ?_⟩
  · rintro ⟨q, hq, hquoted⟩
    have hne : q ≠ '\x60' := by
      rintro rfl
      refine htick (mem_lastSegment ?_).1
      rw [hquoted]
      exact List.mem_cons_self
    simp only [isQuote, Bool.or_eq_true, beq_iff_eq, hne, or_false] at hq
    rcases hq with rfl | rfl
    · exact .inl hquoted
    · exact .inr hquoted
  · rintro (hquoted | hquoted)
    · exact ⟨'\x27', rfl, hquoted⟩
    · exact ⟨'\x22', rfl, hquoted⟩

/-- A line without backquotes touches a number exactly when it reads a column whose last segment is
the number, or writes to a column whose last segment is the number, with or without quotes around it.
So it touches each number that is an item of a projection or stands on the left of a comparison, and
these are listed like any other field that the table does not have. -/
theorem numeral_mem_fields_iff (line : List Char) (htick : '\x60' ∉ line) (n : Numeral) :
    (n.name ∈ (footprint line).fields ↔
      ∃ s column, Statement.read? (statementOf line) = some s ∧
        ((s.Reads column ∧ lastSegment column = n.text) ∨
          (s.Writes column ∧ lastSegment column ∈ n.spellings))) ∧
    (∀ body projection rest, Statement.read? (statementOf line) = some (.select body) →
      selectParts? body = some (projection, rest) → n.text ∈ splitTop ',' projection →
      n.name ∈ (footprint line).fields) ∧
    (∀ s clause gap (operator : Comparison) right, Statement.read? (statementOf line) = some s →
      s.clause? = some clause → (∀ c ∈ gap, isBlank c = true) → right ≠ [] →
      n.text ++ (gap ++ (operator.text ++ right)) ∈ conditions clause →
      n.name ∈ (footprint line).fields) ∧
    ∀ (v : Validator) (t : Table) (k : Nat), v.dialect = .mysql →
      (footprint line).target.bind v.schema.target? = some t →
      ∃ names, Validator.Lists (v.judge k line) names ∧
        (n.name ∈ names ↔ n.name ∈ (footprint line).fields ∧ t.has n.name = false) := by
  have hreads : ∀ {s column}, Statement.read? (statementOf line) = some s → s.Reads column →
      fieldName column = String.ofList (lastSegment column) := fun hs h =>
    fieldName_of_hasName h.hasName fun hmem => htick ((Statement.body_isInfix hs).subset hmem)
  have hfields : ∀ {s}, Statement.read? (statementOf line) = some s → s.Reads n.text →
      n.name ∈ (footprint line).fields := fun hs h =>
    mem_fields_iff.mpr ⟨n.name_ne_empty, _, _, hs, .inl h, by
      rw [hreads hs h, n.lastSegment_text, Numeral.name]⟩
  refine ⟨?_, ?_, ?_, ?_⟩
  · rw [mem_fields_iff, and_iff_right n.name_ne_empty]
    refine exists_congr fun s => exists_congr fun column => and_congr_right fun hs => ?_
    constructor
    · rintro ⟨h | h, hname⟩
      · rw [hreads hs h, Numeral.name, String.ofList_inj] at hname
        exact .inl ⟨h, hname⟩
      · exact .inr ⟨h, (fieldName_eq_name_iff n fun hmem =>
          htick ((Statement.body_isInfix hs).subset (h.isInfix.subset hmem))).mp hname⟩
    · rintro (⟨h, hlast⟩ | ⟨h, hlast⟩)
      · exact ⟨.inl h, by rw [hreads hs h, hlast, Numeral.name]⟩
      · exact ⟨.inr h, (fieldName_eq_name_iff n fun hmem =>
          htick ((Statement.body_isInfix hs).subset (h.isInfix.subset hmem))).mpr hlast⟩
  · intro body projection rest hs hparts hitem
    exact hfields hs (.projected hparts hitem n.read?_columnForm)
  · intro s clause gap operator right hs hclause hgap hright htext
    obtain ⟨c, hread, hcolumn⟩ :=
      n.read?_condition hgap operator hright (trimmed_of_mem_conditions htext)
    exact hfields hs (.compared hclause (.here htext hread hcolumn))
  · intro v t k hv htarget
    refine ⟨_, Validator.lists_judge k (by rw [hv]; exact htarget), ?_⟩
    rw [hv]
    simp [Validator.unknownFields, Validator.schemaName?, SchemaLint.footprint]

/-- A number in the projection and one on the left of `<=` are touched, and the first is listed. -/
theorem numbers_read_as_columns :
    let line := "SELECT 1, name FROM t WHERE 2 <= 3 AND name = '4'".toList
    let t : Table := .ofFields .mysql [⟨"name", "TEXT"⟩]
    let v := Validator.ofTable .mysql (Schema.empty.insert "t" t) .builtin true
    '\x60' ∉ line ∧ "1" ∈ (footprint line).fields ∧ "2" ∈ (footprint line).fields ∧
      ∃ names, Validator.Lists (v.judge 1 line) names ∧ "1" ∈ names := by
  intro line t v
  let one : Numeral := ⟨['1'], by decide, by simp⟩
  let two : Numeral := ⟨['2'], by decide, by simp⟩
  have htick : '\x60' ∉ line := by decide
  have hread : Statement.read? (statementOf line) =
      some (.select "1, name FROM t WHERE 2 <= 3 AND name = '4'".toList) := by decide +kernel
  have hone : one.name ∈ (footprint line).fields :=
    (numeral_mem_fields_iff line htick one).2.1 _ "1, name ".toList " WHERE 2 <= 3 AND name = '4'".toList
      hread (by decide +kernel) (by decide +kernel)
  have htwo : two.name ∈ (footprint line).fields :=
    (numeral_mem_fields_iff line htick two).2.2.1 _ "2 <= 3 AND name = '4'".toList [' '] .atMost [' ', '3']
      hread (by decide +kernel) isBlank_space (by decide) (by decide +kernel)
  obtain ⟨names, hlists, hnames⟩ :=
    (numeral_mem_fields_iff line htick one).2.2.2 v t 1 rfl (by decide +kernel)
  exact ⟨htick, hone, htwo, names, hlists, hnames.mpr ⟨hone, by decide +kernel⟩⟩

end Touched

end SchemaLint.Sql
