import SchemaLint.Proofs.Sql.Token
import SchemaLint.Shape

/-!
# Selections

The grammar of `SELECT` statements: columns and a table, any number of joins, and the clauses behind
them. A `Selection` is the tree of such a statement. Its items in their order are keywords,
expressions and the blanks that may or must stand between them, and tokens spell the selection when
they are written item by item (`Written`), run no words together and hold no end of the statement
(`Selection.Spells`). An `Expression` is any text that shows no reserved word outside quotes and
brackets.
-/

namespace SchemaLint.Sql

open Text

/-! ## Items -/

/-- The words that make a join or a clause what it is. -/
def reserved : List String :=
  ["JOIN", "ON", "USING", "GROUP", "ORDER", "HAVING"]

/-- What stands between the keywords of a statement: names, literals, operators and calls, without a
reserved word outside quotes and brackets. -/
structure Expression where
  tokens : List Token
  ne_nil : tokens ≠ []
  trimmed : Trimmed (textOf tokens)
  free : ∀ w ∈ reserved, ∀ t ∈ tokens, t.shows w = false

/-- What a statement is put together from. -/
inductive Item where
  | keyword (w : String)
  | expression (e : Expression)
  /-- Blanks, or none where no words would run together. -/
  | gap
  /-- One or more blanks. -/
  | space

/-- The tokens that an item is written with. -/
inductive Item.Spelled : Item → List Token → Prop
  | keyword {w : String} (hw : IsKeyword w) (k : Cased w) : Spelled (.keyword w) [keywordToken hw k]
  | expression (e : Expression) : Spelled (.expression e) e.tokens
  | gap {ts : List Token} (blank : ∀ t ∈ ts, t.isBlank = true) : Spelled .gap ts
  | space {ts : List Token} (blank : ∀ t ∈ ts, t.isBlank = true) (ne_nil : ts ≠ []) :
      Spelled .space ts

/-- The tokens that items are written with, one after the other. -/
inductive Written : List Item → List Token → Prop
  | nil : Written [] []
  | cons {i : Item} {is : List Item} {us vs : List Token} (head : i.Spelled us)
      (tail : Written is vs) : Written (i :: is) (us ++ vs)

/-- The item is the given word. -/
def Item.shows (w : String) : Item → Bool
  | .keyword v => sameIgnoringCase w.toList v.toList
  | _ => false

section Items

variable {i : Item} {is js : List Item} {w : String} {e : Expression} {ts us : List Token}

theorem Item.Spelled.free (hw : w ∈ reserved) (h : i.Spelled ts) (hfree : i.shows w = false) :
    ∀ t ∈ ts, t.shows w = false := by
  cases h with
  | keyword hv k =>
    intro t ht
    rw [List.mem_singleton.mp ht, Token.shows_keywordToken]
    exact hfree
  | expression e => exact e.free w hw
  | gap hblank => exact fun t ht => Token.shows_of_isBlank (hblank t ht)
  | space hblank _ => exact fun t ht => Token.shows_of_isBlank (hblank t ht)

namespace Written

theorem split (h : Written (is ++ js) ts) :
    ∃ us vs, ts = us ++ vs ∧ Written is us ∧ Written js vs := by
  induction is generalizing ts with
  | nil => exact ⟨[], ts, rfl, .nil, h⟩
  | cons i is ih =>
    cases h with
    | cons head tail =>
      obtain ⟨us, vs, rfl, his, hjs⟩ := ih tail
      exact ⟨_, vs, (List.append_assoc _ us vs).symm, .cons head his, hjs⟩

theorem of_keyword (h : Written (.keyword w :: is) ts) :
    ∃ (hw : IsKeyword w) (k : Cased w) (vs : List Token),
      ts = keywordToken hw k :: vs ∧ Written is vs := by
  cases h with
  | cons head tail =>
    cases head with
    | keyword hw k => exact ⟨hw, k, _, rfl, tail⟩

theorem of_expression (h : Written (.expression e :: is) ts) :
    ∃ vs, ts = e.tokens ++ vs ∧ Written is vs := by
  cases h with
  | cons head tail =>
    cases head with
    | expression => exact ⟨_, rfl, tail⟩

theorem of_gap (h : Written (.gap :: is) ts) :
    ∃ us vs, ts = us ++ vs ∧ (∀ t ∈ us, t.isBlank = true) ∧ Written is vs := by
  cases h with
  | cons head tail =>
    cases head with
    | gap hblank => exact ⟨_, _, rfl, hblank, tail⟩

theorem of_space (h : Written (.space :: is) ts) :
    ∃ us vs, ts = us ++ vs ∧ us ≠ [] ∧ (∀ t ∈ us, t.isBlank = true) ∧ Written is vs := by
  cases h with
  | cons head tail =>
    cases head with
    | space hblank hne => exact ⟨_, _, rfl, hne, hblank, tail⟩

/-- Items without a reserved word are written without it. -/
theorem free (hw : w ∈ reserved) (h : Written is ts) (hfree : is.any (Item.shows w) = false) :
    ∀ t ∈ ts, t.shows w = false := by
  induction h with
  | nil => simp
  | cons head _ ih =>
    rw [List.any_cons, Bool.or_eq_false_iff] at hfree
    intro t ht
    rcases List.mem_append.mp ht with ht | ht
    · exact head.free hw hfree.1 t ht
    · exact ih hfree.2 t ht

/-- The first place where items show a reserved word. -/
theorem of_first (hw : w ∈ reserved) (h : Written (is ++ .gap :: .keyword w :: js) ts)
    (his : is.any (Item.shows w) = false) :
    ∃ (hk : IsKeyword w) (k : Cased w) (us vs : List Token), ts = us ++ keywordToken hk k :: vs ∧
      Written (is ++ [.gap]) us ∧ (∀ t ∈ us, t.shows w = false) ∧ Written js vs := by
  have h : Written (is ++ [.gap] ++ .keyword w :: js) ts := by rwa [List.append_cons] at h
  obtain ⟨us, ts₁, rfl, hus, hts₁⟩ := h.split
  obtain ⟨hk, k, vs, rfl, hvs⟩ := hts₁.of_keyword
  refine ⟨hk, k, us, vs, rfl, hus, hus.free hw ?_, hvs⟩
  rw [List.any_append, his]
  rfl

theorem exists_mem_keyword (h : Written is ts) (hmem : .keyword w ∈ is) :
    ∃ (hw : IsKeyword w) (k : Cased w), keywordToken hw k ∈ ts := by
  obtain ⟨is, js, rfl⟩ := List.append_of_mem hmem
  obtain ⟨us, vs, rfl, -, hjs⟩ := h.split
  obtain ⟨hw, k, vs, rfl, -⟩ := hjs.of_keyword
  exact ⟨hw, k, by simp⟩

end Written

end Items

/-- A word as an expression. -/
def Expression.word (x : String) (hx : IsKeyword x)
    (free : ∀ w ∈ reserved, sameIgnoringCase w.toList x.toList = false) : Expression where
  tokens := [keywordToken hx ⟨x.toList, rfl⟩]
  ne_nil := List.cons_ne_nil _ _
  trimmed := by
    have hblank := not_isBlank_keyword hx ⟨x.toList, rfl⟩
    rw [textOf_cons, textOf_nil, List.append_nil]
    exact ⟨fun c hc => hblank c (List.mem_of_head? hc),
      fun c hc => hblank c (List.mem_of_getLast? hc)⟩
  free := by
    intro w hw t ht
    rw [List.mem_singleton.mp ht, Token.shows_keywordToken]
    exact free w hw

/-- A way to write an item, with one blank where blanks may stand. -/
def Item.spelling : Item → List Token
  | .keyword w => if hw : IsKeyword w then [keywordToken hw ⟨w.toList, rfl⟩] else []
  | .expression e => e.tokens
  | .gap => [.blank ' ' (by decide)]
  | .space => [.blank ' ' (by decide)]

/-- Items can be written, whatever expressions stand between their keywords. -/
theorem written_spelling {is : List Item} (h : ∀ w, .keyword w ∈ is → IsKeyword w) :
    Written is (is.flatMap Item.spelling) := by
  have hblank : ∀ t ∈ [Token.blank ' ' (by decide)], t.isBlank = true := by
    intro t ht
    rw [List.mem_singleton.mp ht]
    rfl
  induction is with
  | nil => exact .nil
  | cons i is ih =>
    refine .cons ?_ (ih fun w hw => h w (List.mem_cons_of_mem i hw))
    cases i with
    | keyword w =>
      have hw := h w List.mem_cons_self
      rw [Item.spelling, dif_pos hw]
      exact .keyword hw _
    | expression e => exact .expression e
    | gap => exact .gap hblank
    | space => exact .space hblank (List.cons_ne_nil _ _)

/-! ## Joins -/

inductive Side where
  | left
  | right

def Side.word : Side → String
  | left => "LEFT"
  | right => "RIGHT"

/-- Which rows a join keeps. The words `INNER` and `OUTER` may be left out. -/
inductive JoinKind where
  | inner (named : Bool)
  | outer (side : Side) (named : Bool)

def JoinKind.words : JoinKind → List String
  | inner named => if named then ["INNER"] else []
  | outer side named => side.word :: if named then ["OUTER"] else []

/-- How a condition of a join is given. -/
inductive ConditionKind where
  | expression
  | columns

def ConditionKind.word : ConditionKind → String
  | expression => "ON"
  | columns => "USING"

/-- A condition of a join. -/
structure JoinCondition where
  kind : ConditionKind
  expression : Expression

def JoinCondition.items (c : JoinCondition) : List Item :=
  [.gap, .keyword c.kind.word, .gap, .expression c.expression]

/-- A join with what stands between its words. -/
inductive Join where
  | conditional (kind : JoinKind) (table : Expression) (condition : JoinCondition)
  | cross (table : Expression) (condition : Option JoinCondition)
  | natural (kind : JoinKind) (table : Expression)

/-- Words with blanks in front of each. -/
def spacedWords (ws : List String) : List Item :=
  ws.flatMap fun w => [.space, .keyword w]

namespace Join

/-- What stands in front of the word `JOIN`. A `NATURAL` or `CROSS` is not written right behind a
bracket or quote. -/
def lead : Join → List Item
  | conditional kind _ _ => kind.words.flatMap (fun w => [.gap, .keyword w]) ++ [.gap]
  | cross _ _ => spacedWords ["CROSS"] ++ [.gap]
  | natural kind _ => spacedWords ("NATURAL" :: kind.words) ++ [.gap]

/-- What stands behind the word `JOIN`. -/
def rest : Join → List Item
  | conditional _ table condition => [.gap, .expression table] ++ condition.items
  | cross table condition =>
    [.gap, .expression table] ++ (condition.map JoinCondition.items).getD []
  | natural _ table => [.gap, .expression table]

def items (j : Join) : List Item :=
  j.lead ++ .keyword "JOIN" :: j.rest

/-- A `NATURAL` join that is taken for a join which needs a condition: of the words in front of
`JOIN` only the last two are looked at, and here they are `LEFT OUTER` or `RIGHT OUTER`. -/
def isMisread : Join → Bool
  | natural (.outer _ named) _ => named
  | _ => false

end Join

/-! ## Statements -/

structure Grouping where
  columns : Expression
  having : Option Expression

/-- A `SELECT` statement. -/
structure Selection where
  columns : Expression
  table : Expression
  joins : List Join
  condition : Option Expression
  grouping : Option Grouping
  order : Option Expression
  limit : Option Expression

/-- A clause that begins with one word. -/
def clause (w : String) : Option Expression → List Item
  | none => []
  | some e => [.gap, .keyword w, .gap, .expression e]

/-- A clause with a list of columns behind the word `BY`. -/
def listClause (c : ByClause) : Option Expression → List Item
  | none => []
  | some e => [.gap, .keyword c.keyword, .gap, .keyword "BY", .space, .expression e]

namespace Selection

variable (s : Selection)

/-- The columns of a clause that has a list of them. -/
def columnsOf : ByClause → Option Expression
  | .group => s.grouping.map Grouping.columns
  | .order => s.order

def having : Option Expression :=
  s.grouping.bind Grouping.having

/-- The statement up to its first join. -/
def source : List Item :=
  [.keyword "SELECT", .gap, .expression s.columns, .gap, .keyword "FROM", .gap, .expression s.table]

/-- The clauses behind the joins. -/
def clauses : List Item :=
  clause "WHERE" s.condition ++ listClause .group (s.columnsOf .group) ++
    clause "HAVING" s.having ++ listClause .order (s.columnsOf .order) ++ clause "LIMIT" s.limit

def items : List Item :=
  s.source ++ s.joins.flatMap Join.items ++ s.clauses

/-- Tokens that are written item by item, run no words together, and hold neither a `;` nor the
beginning of a comment. -/
structure Spells (ts : List Token) : Prop where
  written : Written s.items ts
  separate : Separate ts
  unended : Unended ts

end Selection

/-! ## Reserved words of items -/

section Reserved

theorem Join.lead_free (j : Join) : ∀ w ∈ reserved, j.lead.any (Item.shows w) = false := by
  intro w hw
  simp only [reserved, List.mem_cons, List.not_mem_nil, or_false] at hw
  rcases hw with rfl | rfl | rfl | rfl | rfl | rfl <;>
    rcases j with ⟨(_ | _) | ⟨_ | _, _ | _⟩, _, _⟩ | _ | ⟨(_ | _) | ⟨_ | _, _ | _⟩, _⟩ <;> rfl

theorem JoinCondition.items_free (c : JoinCondition) :
    ∀ w ∈ ["JOIN", "GROUP", "ORDER", "HAVING"], c.items.any (Item.shows w) = false := by
  intro w hw
  have hword : sameIgnoringCase w.toList c.kind.word.toList = false := by
    simp only [List.mem_cons, List.not_mem_nil, or_false] at hw
    cases c.kind <;> rcases hw with rfl | rfl | rfl | rfl <;> rfl
  simp [JoinCondition.items, Item.shows, hword]

theorem Join.rest_free (j : Join) :
    ∀ w ∈ ["JOIN", "GROUP", "ORDER", "HAVING"], j.rest.any (Item.shows w) = false := by
  intro w hw
  cases j with
  | conditional kind table condition => exact condition.items_free w hw
  | cross table condition =>
    cases condition with
    | none => rfl
    | some condition => exact condition.items_free w hw
  | natural kind table => rfl

theorem any_clause (w v : String) (e : Option Expression) :
    (clause v e).any (Item.shows w) = (e.isSome && sameIgnoringCase w.toList v.toList) := by
  cases e with
  | none => rfl
  | some e =>
    simp only [clause, List.any_cons, List.any_nil, Item.shows, Bool.or_false, Bool.false_or,
      Option.isSome_some, Bool.true_and]

theorem any_listClause (w : String) (c : ByClause) (e : Option Expression) :
    (listClause c e).any (Item.shows w) = (e.isSome &&
      (sameIgnoringCase w.toList c.keyword.toList || sameIgnoringCase w.toList "BY".toList)) := by
  cases e with
  | none => rfl
  | some e =>
    simp only [listClause, List.any_cons, List.any_nil, Item.shows, Bool.or_false, Bool.false_or,
      Option.isSome_some, Bool.true_and]

namespace Selection

variable (s : Selection)

theorem source_free : ∀ w ∈ reserved, s.source.any (Item.shows w) = false := by
  intro w hw
  simp only [reserved, List.mem_cons, List.not_mem_nil, or_false] at hw
  rcases hw with rfl | rfl | rfl | rfl | rfl | rfl <;> rfl

theorem joins_free : ∀ w ∈ ["GROUP", "ORDER", "HAVING"],
    (s.joins.flatMap Join.items).any (Item.shows w) = false := by
  intro w hw
  have hwords : ∀ w ∈ ["GROUP", "ORDER", "HAVING"],
      w ∈ reserved ∧ sameIgnoringCase w.toList "JOIN".toList = false := by decide
  obtain ⟨hreserved, hjoin⟩ := hwords w hw
  rw [List.any_flatMap, List.any_eq_false]
  intro j _
  rw [Join.items, List.any_append, List.any_cons, j.lead_free w hreserved,
    j.rest_free w (List.mem_cons_of_mem _ hw), Item.shows, hjoin]
  decide

theorem clauses_free : ∀ w ∈ ["JOIN", "ON", "USING"], s.clauses.any (Item.shows w) = false := by
  intro w hw
  simp only [List.mem_cons, List.not_mem_nil, or_false] at hw
  simp only [clauses, List.any_append, any_clause, any_listClause]
  rcases hw with rfl | rfl | rfl <;> simp [sameIgnoringCase, lower, ByClause.keyword]

end Selection

end Reserved

/-! ## Ends of statements -/

/-- The last item is an expression. -/
def EndsInExpression (is : List Item) : Prop :=
  ∃ e, is.getLast? = some (.expression e)

section Ends

variable {is js : List Item} {ts : List Token}

theorem EndsInExpression.append_left (is : List Item) (h : EndsInExpression js) :
    EndsInExpression (is ++ js) := by
  obtain ⟨e, he⟩ := h
  exact ⟨e, by rw [List.getLast?_append, he, Option.some_or]⟩

theorem EndsInExpression.append (his : EndsInExpression is) (hjs : js = [] ∨ EndsInExpression js) :
    EndsInExpression (is ++ js) := by
  rcases hjs with rfl | hjs
  · rwa [List.append_nil]
  · exact hjs.append_left is

theorem endsInExpression_clause (w : String) (e : Option Expression) :
    clause w e = [] ∨ EndsInExpression (clause w e) := by
  cases e with
  | none => exact .inl rfl
  | some e => exact .inr ⟨e, rfl⟩

theorem endsInExpression_listClause (c : ByClause) (e : Option Expression) :
    listClause c e = [] ∨ EndsInExpression (listClause c e) := by
  cases e with
  | none => exact .inl rfl
  | some e => exact .inr ⟨e, rfl⟩

theorem Join.endsInExpression_items (j : Join) : EndsInExpression j.items := by
  refine .append_left j.lead ?_
  rcases j with _ | ⟨_, _ | _⟩ | _ <;> exact ⟨_, rfl⟩

theorem endsInExpression_joins (joins : List Join) :
    joins.flatMap Join.items = [] ∨ EndsInExpression (joins.flatMap Join.items) := by
  induction joins with
  | nil => exact .inl rfl
  | cons j joins ih => exact .inr (j.endsInExpression_items.append ih)

theorem Selection.endsInExpression_items (s : Selection) : EndsInExpression s.items := by
  have hsource : EndsInExpression s.source := ⟨s.table, rfl⟩
  have hjoins := hsource.append (endsInExpression_joins s.joins)
  have hwhere := hjoins.append (endsInExpression_clause "WHERE" s.condition)
  have hgroup := hwhere.append (endsInExpression_listClause .group (s.columnsOf .group))
  have hhaving := hgroup.append (endsInExpression_clause "HAVING" s.having)
  have horder := hhaving.append (endsInExpression_listClause .order (s.columnsOf .order))
  have hlimit := horder.append (endsInExpression_clause "LIMIT" s.limit)
  simpa only [Selection.items, Selection.clauses, List.append_assoc] using hlimit

theorem Written.last (h : Written is ts) (his : EndsInExpression is) :
    ∀ c ∈ (textOf ts).getLast?, isBlank c = false := by
  obtain ⟨e, he⟩ := his
  obtain ⟨js, rfl⟩ := List.getLast?_eq_some_iff.mp he
  obtain ⟨us, vs, rfl, -, hvs⟩ := h.split
  obtain ⟨vs, rfl, hnil⟩ := hvs.of_expression
  cases hnil
  rw [List.append_nil, textOf_append, List.getLast?_append_of_ne_nil _ (textOf_ne_nil e.ne_nil)]
  exact e.trimmed.last

namespace Selection.Spells

variable {s : Selection} (h : s.Spells ts)

include h

theorem trimmed : Trimmed (textOf ts) := by
  refine ⟨?_, h.written.last s.endsInExpression_items⟩
  obtain ⟨hw, k, vs, rfl, -⟩ := h.written.of_keyword
  rw [textOf_cons, List.head?_append_of_ne_nil _ (keywordToken hw k).text_ne_nil]
  exact fun c hc => not_isBlank_keyword hw k c (List.mem_of_head? hc)

/-- The statement is all of its text. -/
theorem statementOf_eq : statementOf (textOf ts) = textOf ts :=
  statementOf_textOf h.unended h.separate h.trimmed

end Selection.Spells

end Ends

end SchemaLint.Sql
