import SchemaLint.Proofs.Sql.Literal

/-!
# Conditions as they are written

A leaf of a clause (`Leaf`) compares a column with literals. Its text is a phrase that lacks every
word that a clause is cut at (`Leaf.phrase`) and is read as one condition (`Leaf.read?_text`), which
mentions the column with its literals (`Leaf.mentions_condition`).

Five forms are tried one after the other. Each begins with a name and a blank, and then asks for a
word of its own, `NOT` in front of it or not, or for an operator; so the word after the column
decides which of them fits.
-/

namespace SchemaLint.Sql

open Form Nesting Text
open Shell (IsItem Spacing separated enclose)

/-! ## Leaves and their texts -/

/-- The operators that compare a column with a value. -/
inductive Comparison where
  | same | atMost | atLeast | unlike | notEqual | equal | less | greater
  deriving DecidableEq

def Comparison.text : Comparison → List Char
  | same => ['<', '=', '>']
  | atMost => ['<', '=']
  | atLeast => ['>', '=']
  | unlike => ['<', '>']
  | notEqual => ['!', '=']
  | equal => ['=']
  | less => ['<']
  | greater => ['>']

/-- A text with the word `NOT` in front of it or without. -/
def negated (not : Option (Cased "NOT")) (s : List Char) : List Char :=
  match not with
  | none => s
  | some k => k.text ++ ' ' :: s

/-- A condition on one column. -/
inductive Leaf where
  /-- `column operator value`. -/
  | compare (column : Name) (operator : Comparison) (value : Literal)
  /-- `column [NOT] IN (value, ...)`. -/
  | isIn (column : Name) (not : Option (Cased "NOT")) (word : Cased "IN") (first : Literal)
      (others : List Literal)
  /-- `column [NOT] LIKE value`. -/
  | like (column : Name) (not : Option (Cased "NOT")) (word : Cased "LIKE") (value : Literal)
  /-- `column IS [NOT] NULL`. -/
  | isNull (column : Name) (word : Cased "IS") (not : Option (Cased "NOT")) (null : Cased "NULL")

namespace Leaf

def column : Leaf → Name
  | compare column _ _ => column
  | isIn column _ _ _ _ => column
  | like column _ _ _ => column
  | isNull column _ _ _ => column

/-- The literals that the column is compared with. -/
def values : Leaf → List Literal
  | compare _ _ v => [v]
  | isIn _ _ _ v vs => v :: vs
  | like _ _ _ v => [v]
  | isNull _ _ _ _ => []

/-- The column with each of the literals that it is compared with. -/
def pairs (l : Leaf) : List (String × String) :=
  l.values.map fun v => (l.column.toString, String.ofList v.text)

/-- What stands after the column and a blank. -/
def predicate (sp : Spacing) : Leaf → List Char
  | compare _ operator v => operator.text ++ ' ' :: v.text
  | isIn _ not word v vs =>
    negated not (word.text ++ ' ' :: enclose sp '(' ')' ((v :: vs).map Literal.text))
  | like _ not word v => negated not (word.text ++ ' ' :: v.text)
  | isNull _ word not null => word.text ++ ' ' :: negated not null.text

def text (sp : Spacing) (l : Leaf) : List Char :=
  l.column.text ++ ' ' :: l.predicate sp

/-- The condition that a leaf is read as. -/
def condition (sp : Spacing) : Leaf → Condition
  | compare column _ v => .compare column.text v.text
  | isIn column _ _ v vs =>
    .isIn column.text (sp.edge ++ separated sp ((v :: vs).map Literal.text) ++ sp.edge)
  | like column _ _ v => .compare column.text v.text
  | isNull column _ _ _ => .isNull column.text

/-- What a leaf mentions: its column by itself or with each of the literals, in order. -/
def mentions : Leaf → List Mention
  | compare column _ v => [.assign column.toString (String.ofList v.text)]
  | isIn column _ _ v vs =>
    .touch column.toString ::
      (v :: vs).map fun v => .assign column.toString (String.ofList v.text)
  | like column _ _ v => [.assign column.toString (String.ofList v.text)]
  | isNull column _ _ _ => [.touch column.toString]

end Leaf

/-! ## Phrases -/

theorem breaks_subset : breaks ⊆ keywords :=
  List.subset_append_left _ _

theorem Comparison.phrase (operator : Comparison) (ws : List String) : Phrase ws operator.text := by
  have hall : operator.text.all (fun c => isPlain c && !isStop c && !isBlank c) = true := by
    cases operator <;> decide
  have hchar : ∀ c ∈ operator.text, isPlain c = true ∧ isStop c = false ∧ isBlank c = false :=
    fun c hc => by simpa [and_assoc] using List.all_eq_true.mp hall c hc
  refine ⟨?_, ⟨fun c hc => (hchar c (List.mem_of_head? hc)).2.2,
    fun c hc => (hchar c (List.mem_of_getLast? hc)).2.2⟩, by cases operator <;> simp [text]⟩
  have hlacks : Lacks ws (operator.text ++ []) :=
    .symbols (fun c hc => ⟨(hchar c hc).1, (hchar c hc).2.1⟩) .nil
  rwa [List.append_nil] at hlacks

theorem phrase_negated {ws : List String} {s : List Char} (not : Option (Cased "NOT"))
    (hws : ∀ w ∈ ws, lower "NOT".toList ≠ lower w.toList) (hs : Phrase ws s) :
    Phrase ws (negated not s) := by
  cases not with
  | none => exact hs
  | some k => exact (k.phrase (by decide) hws).spaced hs

theorem isItem_literals {vs : List Literal} : ∀ x ∈ vs.map Literal.text, IsItem x := by
  intro x hx
  obtain ⟨v, -, rfl⟩ := List.mem_map.mp hx
  exact v.isItem

theorem Leaf.phrase_predicate (sp : Spacing) (l : Leaf) : Phrase breaks (l.predicate sp) := by
  have hnot : ∀ w ∈ breaks, lower "NOT".toList ≠ lower w.toList := by decide
  have hvalue : ∀ v : Literal, Phrase breaks v.text := fun v => v.phrase (by decide)
  cases l with
  | compare column operator v => exact (operator.phrase _).spaced (hvalue v)
  | isIn column not word v vs =>
    have hlist : Phrase breaks (enclose sp '(' ')' ((v :: vs).map Literal.text)) :=
      .of_bracketed (Shell.balanced_inside sp isItem_literals)
    exact phrase_negated not hnot ((word.phrase (by decide) (by decide)).spaced hlist)
  | like column not word v =>
    exact phrase_negated not hnot ((word.phrase (by decide) (by decide)).spaced (hvalue v))
  | isNull column word not null =>
    exact (word.phrase (by decide) (by decide)).spaced
      (phrase_negated not hnot (null.phrase (by decide) (by decide)))

/-- A leaf is a phrase that lacks the words that clauses are cut at. -/
theorem Leaf.phrase (sp : Spacing) (l : Leaf) : Phrase breaks (l.text sp) :=
  (l.column.phrase breaks_subset).spaced (l.phrase_predicate sp)

/-! ## Reading the word after a column -/

theorem head?_keyword {w : String} (k : Cased w) (hw : IsKeyword w) (s : List Char) :
    ∀ c ∈ (k.text ++ s).head?, isBlank c = false ∧ c ≠ '.' := by
  intro c hc
  rw [List.head?_append_of_ne_nil _ (k.text_ne_nil hw)] at hc
  have hident := k.isIdentChar_of_mem hw c (List.mem_of_head? hc)
  refine ⟨(isPlain_of_isStop (isStop_of_isIdentChar hident)).2, ?_⟩
  rintro rfl
  exact absurd hident (by decide)

section Negated

variable (not : Option (Cased "NOT")) {s : List Char} {v : String}
  (hhead : ∀ c ∈ s.head?, isBlank c = false ∧ c ≠ '.') (hnot : (word "NOT" ++ blanks1) s = [])

include hhead in
theorem head?_negated : ∀ c ∈ (negated not s).head?, isBlank c = false ∧ c ≠ '.' := by
  cases not with
  | none => exact hhead
  | some k => exact head?_keyword k (by decide) _

theorem word_negated_eq_nil (hv : Apart v "NOT") (hs : word v s = []) :
    word v (negated not s) = [] := by
  cases not with
  | none => exact hs
  | some k => exact k.word_eq_nil hv

include hhead hnot

theorem prefers_optNot : ∃ x, Prefers Condition.optNot (negated not s) x s := by
  cases not with
  | none => exact ⟨[], (Only.opt_nil hnot).prefers⟩
  | some k =>
    have hk : Only (word "NOT" ++ blanks1) (k.text ++ ' ' :: s) _ s :=
      (k.only_word (by decide)).append (.blanks1 fun c hc => (hhead c hc).1)
    exact ⟨_, hk.prefers.opt⟩

/-- A form that begins with an optional `NOT` and a word does not fit where another word stands. -/
theorem optNot_word_eq_nil (hv : Apart v "NOT") (hword : word v s = []) :
    (Condition.optNot ++ word v) (negated not s) = [] := by
  rw [Condition.optNot, opt_append, word_negated_eq_nil not hv hword, List.append_nil]
  cases not with
  | none => exact append_eq_nil _ hnot
  | some k =>
    have hk : Only (word "NOT" ++ blanks1) (k.text ++ ' ' :: s) _ s :=
      (k.only_word (by decide)).append (.blanks1 fun c hc => (hhead c hc).1)
    exact hk.append_eq_nil hword

end Negated

section OwnWord

variable {w v : String} (k : Cased w) (hw : Apart "NOT" w) (not : Option (Cased "NOT"))
  (s : List Char)

include hw

/-- No other word is read where a word stands after an optional `NOT`. -/
theorem optNot_otherWord_eq_nil (hnot : Apart v "NOT") (hv : Apart v w) :
    (Condition.optNot ++ word v) (negated not (k.text ++ ' ' :: s)) = [] :=
  optNot_word_eq_nil not (head?_keyword k hw.right _) (append_eq_nil _ (k.word_eq_nil hw)) hnot
    (k.word_eq_nil hv)

theorem prefers_ownWord : ∃ x, Prefers (blanks1 ++ Condition.optNot ++ word w)
    (' ' :: negated not (k.text ++ ' ' :: s)) x (' ' :: s) := by
  have hhead := head?_keyword k hw.right (' ' :: s)
  obtain ⟨x, hx⟩ := prefers_optNot not hhead (append_eq_nil _ (k.word_eq_nil hw))
  have hblank : Only blanks1 (' ' :: negated not (k.text ++ ' ' :: s)) [' '] _ :=
    .blanks1 fun c hc => (head?_negated not hhead c hc).1
  exact ⟨_, (hblank.prefers.append hx).append (k.only_word hw.right).prefers⟩

end OwnWord

/-! ## Reading leaves -/

section Forms

variable (n : Name) {r : List Char} {w : String} (hr : ∀ c ∈ r.head?, isBlank c = false ∧ c ≠ '.')

include hr

theorem blanks1_optNot_eq_nil (h : (Condition.optNot ++ word w) r = []) :
    (blanks1 ++ Condition.optNot ++ word w) (' ' :: r) = [] := by
  have hblank : Only blanks1 (' ' :: r) [' '] r := .blanks1 fun c hc => (hr c hc).1
  rw [append_assoc]
  exact hblank.append_eq_nil h

theorem isNullForm_eq_nil (h : word "IS" r = []) :
    Condition.isNullForm (n.text ++ ' ' :: r) = [] := by
  have hblank : Only blanks1 (' ' :: r) [' '] r := .blanks1 fun c hc => (hr c hc).1
  exact (n.only_name hr).bind_eq_nil (bind_eq_nil _ (append_eq_nil _ (append_eq_nil _
    (append_eq_nil _ (hblank.append_eq_nil h)))))

theorem betweenForm_eq_nil (h : (Condition.optNot ++ word "BETWEEN") r = []) :
    Condition.betweenForm (n.text ++ ' ' :: r) = [] :=
  (n.only_name hr).bind_eq_nil (bind_eq_nil _ (append_eq_nil _ (blanks1_optNot_eq_nil hr h)))

theorem isInForm_eq_nil (h : (Condition.optNot ++ word "IN") r = []) :
    Condition.isInForm (n.text ++ ' ' :: r) = [] :=
  (n.only_name hr).bind_eq_nil (bind_eq_nil _ (append_eq_nil _ (append_eq_nil _
    (blanks1_optNot_eq_nil hr h))))

theorem likeForm_eq_nil (h : (Condition.optNot ++ word "LIKE") r = []) :
    Condition.likeForm (n.text ++ ' ' :: r) = [] :=
  (n.only_name hr).bind_eq_nil (bind_eq_nil _ (append_eq_nil _ (blanks1_optNot_eq_nil hr h)))

end Forms

/-- The forms of conditions that are no groups, in the order in which they are tried. -/
def forms : List (Form Condition) :=
  [Condition.isNullForm, Condition.betweenForm, Condition.isInForm, Condition.likeForm,
    Condition.compareForm]

theorem Comparison.prefers_text (operator : Comparison) (r : List Char) :
    Prefers (oneOf (Condition.operators.map exact)) (operator.text ++ ' ' :: r) operator.text
      (' ' :: r) := by
  cases operator <;> rfl

theorem prefers_compare (column : Name) (operator : Comparison) (v : Literal) :
    Prefers (oneOf forms) (column.text ++ ' ' :: (operator.text ++ ' ' :: v.text))
      (.compare column.text v.text) [] := by
  have hhead : ∀ c ∈ (operator.text ++ ' ' :: v.text).head?,
      c.toNat < 128 ∧ isIdentChar c = false ∧ isBlank c = false ∧ c ≠ '.' := by
    cases operator <;> (rintro c ⟨⟩; decide)
  have hr : ∀ c ∈ (operator.text ++ ' ' :: v.text).head?, isBlank c = false ∧ c ≠ '.' :=
    fun c hc => (hhead c hc).2.2
  -- An operator is no word at all, so none of the forms that ask for one fits.
  have hword : ∀ w, IsKeyword w → word w (operator.text ++ ' ' :: v.text) = [] := fun w hw =>
    folded_eq_nil_of_head hw.2 hw.1 fun c hc => ⟨(hhead c hc).1, (hhead c hc).2.1⟩
  have hopt : ∀ w, IsKeyword w →
      (Condition.optNot ++ word w) (operator.text ++ ' ' :: v.text) = [] := by
    intro w hw
    rw [Condition.optNot, opt_append, append_eq_nil _ (append_eq_nil _ (hword "NOT" (by decide))),
      hword w hw, List.append_nil]
  refine .oneOf_cons_of_nil (isNullForm_eq_nil column hr (hword _ (by decide))) ?_
  refine .oneOf_cons_of_nil (betweenForm_eq_nil column hr (hopt _ (by decide))) ?_
  refine .oneOf_cons_of_nil (isInForm_eq_nil column hr (hopt _ (by decide))) ?_
  refine .oneOf_cons_of_nil (likeForm_eq_nil column hr (hopt _ (by decide))) (.oneOf_cons ?_)
  have hbefore : Prefers blanks (' ' :: (operator.text ++ ' ' :: v.text)) [' '] _ :=
    .run (x := [' ']) isBlank_space fun c hc => (hr c hc).1
  have hafter : Prefers blanks (' ' :: v.text) [' '] v.text :=
    .run (x := [' ']) isBlank_space v.isItem.trimmed.head
  exact (column.only_name hr).prefers.bind (((hbefore.append (operator.prefers_text _)).append
    hafter).bind ((Prefers.rest1 v.isItem.ne_nil).bind rfl))

theorem prefers_isIn (sp : Spacing) (column : Name) (not : Option (Cased "NOT")) (k : Cased "IN")
    (xs : List (List Char)) :
    Prefers (oneOf forms)
      (column.text ++ ' ' :: negated not (k.text ++ ' ' :: enclose sp '(' ')' xs))
      (.isIn column.text (sp.edge ++ separated sp xs ++ sp.edge)) [] := by
  have hr := head?_negated not (head?_keyword k (by decide) (' ' :: enclose sp '(' ')' xs))
  have hapart : Apart "NOT" "IN" := by decide
  have hnull := word_negated_eq_nil not (v := "IS") (by decide)
    (k.word_eq_nil (r := ' ' :: enclose sp '(' ')' xs) (by decide))
  have hbetween := optNot_otherWord_eq_nil (v := "BETWEEN") k hapart not (enclose sp '(' ')' xs)
    (by decide) (by decide)
  refine .oneOf_cons_of_nil (isNullForm_eq_nil column hr hnull) ?_
  refine .oneOf_cons_of_nil (betweenForm_eq_nil column hr hbetween) (.oneOf_cons ?_)
  obtain ⟨x, hx⟩ := prefers_ownWord k hapart not (enclose sp '(' ')' xs)
  have hafter : Prefers blanks (' ' :: enclose sp '(' ')' xs) [' '] (enclose sp '(' ')' xs) :=
    .run (x := [' ']) isBlank_space (by rintro c ⟨⟩; decide)
  have hlist : Prefers Condition.upToLastParenthesis (sp.edge ++ separated sp xs ++ sp.edge ++ [')'])
      (sp.edge ++ separated sp xs ++ sp.edge) [] := by
    rw [Prefers, Condition.upToLastParenthesis, List.getLast?_concat, if_pos (by decide),
      List.dropLast_concat, List.head?_cons]
  exact (column.only_name hr).prefers.bind (((hx.append hafter).append (.exact ['('] _)).bind
    (hlist.bind rfl))

theorem prefers_like (column : Name) (not : Option (Cased "NOT")) (k : Cased "LIKE") (v : Literal) :
    Prefers (oneOf forms) (column.text ++ ' ' :: negated not (k.text ++ ' ' :: v.text))
      (.compare column.text v.text) [] := by
  have hr := head?_negated not (head?_keyword k (by decide) (' ' :: v.text))
  have hapart : Apart "NOT" "LIKE" := by decide
  have hnull := word_negated_eq_nil not (v := "IS") (by decide)
    (k.word_eq_nil (r := ' ' :: v.text) (by decide))
  have hbetween := optNot_otherWord_eq_nil (v := "BETWEEN") k hapart not v.text
    (by decide) (by decide)
  have hisIn := optNot_otherWord_eq_nil (v := "IN") k hapart not v.text (by decide) (by decide)
  refine .oneOf_cons_of_nil (isNullForm_eq_nil column hr hnull) ?_
  refine .oneOf_cons_of_nil (betweenForm_eq_nil column hr hbetween) ?_
  refine .oneOf_cons_of_nil (isInForm_eq_nil column hr hisIn) (.oneOf_cons ?_)
  obtain ⟨x, hx⟩ := prefers_ownWord k hapart not v.text
  have hafter : Prefers blanks1 (' ' :: v.text) [' '] v.text :=
    (Only.blanks1 v.isItem.trimmed.head).prefers
  exact (column.only_name hr).prefers.bind ((hx.append hafter).bind
    ((Prefers.rest1 v.isItem.ne_nil).bind rfl))

theorem prefers_isNull (column : Name) (k : Cased "IS") (not : Option (Cased "NOT"))
    (null : Cased "NULL") :
    Prefers (oneOf forms) (column.text ++ ' ' :: (k.text ++ ' ' :: negated not null.text))
      (.isNull column.text) [] := by
  have hr := head?_keyword k (by decide) (' ' :: negated not null.text)
  have hhead : ∀ c ∈ null.text.head?, isBlank c = false ∧ c ≠ '.' := by
    have := head?_keyword null (by decide) []
    rwa [List.append_nil] at this
  have hnot : (word "NOT" ++ blanks1) null.text = [] := by
    have := null.word_eq_nil (v := "NOT") (r := []) (by decide)
    rw [List.append_nil] at this
    exact append_eq_nil _ this
  have hend : Prefers (word "NULL") null.text null.text [] := by
    have := (null.only_word (r := []) (by decide)).prefers
    rwa [List.append_nil] at this
  obtain ⟨x, hx⟩ := prefers_optNot not hhead hnot
  have hbefore : Prefers blanks1 (' ' :: (k.text ++ ' ' :: negated not null.text)) [' '] _ :=
    (Only.blanks1 fun c hc => (hr c hc).1).prefers
  have hafter : Prefers blanks1 (' ' :: negated not null.text) [' '] _ :=
    (Only.blanks1 fun c hc => (head?_negated not hhead c hc).1).prefers
  exact .oneOf_cons ((column.only_name hr).prefers.bind (((((hbefore.append
    (k.only_word (by decide)).prefers).append hafter).append hx).append hend).bind
      (Prefers.bind (f := done) rfl rfl)))

/-- A leaf fits one form, and that form reads all of it. -/
theorem Leaf.prefers_text (sp : Spacing) (l : Leaf) :
    Prefers (oneOf forms) (l.text sp) (l.condition sp) [] := by
  cases l with
  | compare column operator v => exact prefers_compare column operator v
  | isIn column not word v vs => exact prefers_isIn sp column not word _
  | like column not word v => exact prefers_like column not word v
  | isNull column word not null => exact prefers_isNull column word not null

/-! ## Conditions -/

/-- A name does not begin like a negation. -/
theorem Name.not_negation (n : Name) (r : List Char) :
    startsIgnoringCase ['n', 'o', 't', ' '] (n.text ++ ' ' :: r) = false := by
  rw [← Bool.not_eq_true]
  intro h
  rw [show ['n', 'o', 't', ' '] = ['n', 'o', 't'] ++ [' '] from rfl, startsIgnoringCase_append_left,
    Bool.and_eq_true] at h
  have hnext : ((n.text ++ ' ' :: r).drop 3).head?.any isIdentChar = false := by
    cases hdrop : (n.text ++ ' ' :: r).drop 3 with
    | nil => rfl
    | cons d rest =>
      have hd : startsIgnoringCase [' '] (d :: rest) = true := by rw [← hdrop]; exact h.2
      simp only [startsIgnoringCase, Bool.and_true, beq_iff_eq] at hd
      rw [List.head?_cons, Option.any_some, ← isIdentChar_of_toLower_eq hd]
      decide
  have hlower := lower_eq_of_startsIgnoringCase (List.all_eq_true.mp (by decide))
    n.isIdentChar_of_mem (by rintro c ⟨⟩; decide) h.1 hnext
  exact n.not_keyword "NOT" (by decide) hlower

theorem dropNots_of_not {s : List Char} (h : startsIgnoringCase ['n', 'o', 't', ' '] s = false)
    (n : Nat) : Condition.dropNots n s = s := by
  cases n with
  | zero => rfl
  | succ n => rw [Condition.dropNots, if_neg (by rw [h]; exact Bool.false_ne_true)]

theorem group?_of_head {s : List Char} (h : s.head? ≠ some '(') : Condition.group? s = none := by
  unfold Condition.group?
  split
  · next hhead _ => exact absurd hhead h
  · rfl

/-- A condition that is neither negated nor a group is what its forms prefer. -/
theorem read?_eq {s : List Char} (htrim : Trimmed s)
    (hnot : startsIgnoringCase ['n', 'o', 't', ' '] s = false) (hhead : s.head? ≠ some '(') :
    Condition.read? s = (oneOf forms).read? s := by
  unfold Condition.read?
  rw [htrim.trim_eq, dropNots_of_not hnot]
  simp only [group?_of_head hhead]
  rfl

theorem Leaf.read?_text (sp : Spacing) (l : Leaf) :
    Condition.read? (l.text sp) = some (l.condition sp) := by
  have hhead : (l.text sp).head? ≠ some '(' := by
    rw [text, List.head?_append_of_ne_nil _ l.column.ne_nil]
    intro h
    exact absurd (l.column.isIdentChar_of_mem _ (List.mem_of_head? h)) (by decide)
  rw [read?_eq (l.phrase sp).trimmed (l.column.not_negation _) hhead]
  exact (l.prefers_text sp).read?_eq

theorem mentions_list (sp : Spacing) (field : String) (vs : List Literal) :
    (splitTop ',' (sp.edge ++ separated sp (vs.map Literal.text) ++ sp.edge)).map
        (valueMention field) =
      vs.map fun v => .assign field (String.ofList v.text) := by
  rw [Shell.splitTop_separated sp isItem_literals sp.isBlank_edge sp.isBlank_edge, List.map_map]
  refine List.map_congr_left fun v _ => ?_
  rw [Function.comp_apply, v.mention field v.isItem.trimmed.trim_eq]

/-- A list of literals is no query. -/
theorem hasKeyword_list (sp : Spacing) (vs : List Literal) :
    hasKeyword "SELECT" (sp.edge ++ separated sp (vs.map Literal.text) ++ sp.edge) = false := by
  have hlacks : Lacks ["SELECT"] (separated sp (vs.map Literal.text)) := by
    refine lacks_separated sp fun x hx => ?_
    obtain ⟨v, -, rfl⟩ := List.mem_map.mp hx
    exact v.lacks (by decide)
  rw [List.append_assoc]
  exact hasKeyword_of_lacks (by decide)
    (.blank sp.isBlank_edge (hlacks.append_blank sp.isBlank_edge))

/-- What a leaf is read as mentions its column with its literals, whatever groups mention. -/
theorem Leaf.mentions_condition (sp : Spacing) (l : Leaf) (ofClause : List Char → List Mention) :
    (l.condition sp).mentions ofClause = l.mentions := by
  cases l with
  | compare column _ v =>
    rw [condition, Condition.mentions, column.fieldName_text, v.mention _ v.isItem.trimmed.trim_eq]
    rfl
  | isIn column _ _ v vs =>
    rw [condition, Condition.mentions, column.fieldName_text]
    rw [hasKeyword_list, if_neg Bool.false_ne_true, mentions_list]
    rfl
  | like column _ _ v =>
    rw [condition, Condition.mentions, column.fieldName_text, v.mention _ v.isItem.trimmed.trim_eq]
    rfl
  | isNull column _ _ _ =>
    rw [condition, Condition.mentions, column.fieldName_text]
    rfl

namespace Leaf

variable (l : Leaf)

theorem mentions_ne_nil : l.mentions ≠ [] := by
  cases l <;> exact List.cons_ne_nil _ _

theorem field_mentions : ∀ m ∈ l.mentions, m.field = l.column.toString := by
  intro m hm
  cases l with
  | isIn column _ _ v vs =>
    rcases List.mem_cons.mp hm with rfl | hm
    · rfl
    · obtain ⟨v, -, rfl⟩ := List.mem_map.mp hm
      rfl
  | compare | like | isNull =>
    obtain rfl := List.mem_singleton.mp hm
    rfl

theorem values_mentions : l.mentions.filterMap Mention.value? = l.pairs := by
  cases l with
  | isIn column _ _ v vs =>
    simp [mentions, pairs, values, Leaf.column, Mention.value?, List.filterMap_cons,
      List.filterMap_map, Function.comp_def]
  | compare | like | isNull => rfl

end Leaf

end SchemaLint.Sql
