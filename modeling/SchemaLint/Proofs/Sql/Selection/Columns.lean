import SchemaLint.Proofs.Sql.Name
import SchemaLint.Proofs.Sql.Selection
import SchemaLint.Proofs.Sql.Statement
import SchemaLint.Sql.Shape

/-!
# Lists of columns

Behind `GROUP BY` and `ORDER BY` the check reads the beginning of a list of columns. It takes a text
for such a list by its first characters (`startsColumn`), and complains about a clause of a
statement when it takes the list of the clause for none (`byProblems_of_clause`).
-/

namespace SchemaLint.Sql

open Form Text

/-! ## How lists begin -/

section Columns

variable {g g' t x r : List Char}

/-- The text is taken for the beginning of a list of columns: it begins with a backquote, a bracket,
or a word that ends no such list. -/
def startsColumn (s : List Char) : Bool :=
  s.head?.any fun c => c == '\x60' || c == '(' || (Unicode.isWord c &&
    notColumns.all fun w => !sameIgnoringCase w.toList (s.takeWhile Unicode.isWord))

/-- Reads the beginning of a list of columns. -/
def firstColumn : Form (List Char) :=
  char (fun c => c == '\x60' || c == '(' || Unicode.isWord c) ++ run Unicode.isWord

theorem firstColumn_blank {c : Char} (hc : isBlank c = true) : firstColumn (c :: t) = [] := by
  refine append_eq_nil _ (char_eq_nil ?_)
  rintro d ⟨⟩
  have hne : c ≠ '\x60' ∧ c ≠ '(' := by
    refine ⟨?_, ?_⟩ <;> rintro rfl <;> exact absurd hc (by decide)
  rw [beq_false_of_ne hne.1, beq_false_of_ne hne.2, Unicode.isWord_of_isBlank hc]
  rfl

theorem word_by_blank {c : Char} (hc : isBlank c = true) : word "BY" (c :: t) = [] := by
  have hby : IsKeyword "BY" := by decide
  rw [List.eq_nil_iff_forall_not_mem]
  rintro ⟨x, r⟩ hmem
  obtain ⟨hsplit, hlower⟩ := mem_folded (Unicode.plain_of_all (by decide)) hmem
  have hident := isIdentChar_of_lower_eq hby.2 hlower
  cases x with
  | nil => cases hlower
  | cons d x =>
    obtain ⟨rfl, -⟩ := List.cons.inj hsplit
    have hd := hident c List.mem_cons_self
    rw [isIdentChar_of_isBlank hc] at hd
    cases hd

/-- Behind a `BY` the list of columns is read from where the blanks end. -/
theorem byColumnForm_eq (hg : ∀ c ∈ g, isBlank c = true) (k : Cased "BY") (hne : g' ≠ [])
    (hg' : ∀ c ∈ g', isBlank c = true) (ht : ∀ c ∈ t.head?, isBlank c = false) :
    byColumnForm (g ++ (k.text ++ (g' ++ t))) = firstColumn t := by
  have hby : IsKeyword "BY" := by decide
  have hk : ∀ c ∈ (k.text ++ (g' ++ t)).head?, isBlank c = false := by
    intro c hc
    rw [List.head?_append_of_ne_nil _ (k.text_ne_nil hby)] at hc
    exact not_isBlank_keyword hby k c (List.mem_of_head? hc)
  obtain ⟨b, g', rfl⟩ := List.exists_cons_of_ne_nil hne
  have hform : byColumnForm = run isBlank >>= fun _ => word "BY" >>= fun _ =>
      char isBlank >>= fun _ => run isBlank >>= fun _ => firstColumn := by
    change (blanks ++ word "BY" ++ (char isBlank ++ run isBlank)) >>= (fun _ => firstColumn) = _
    rw [append_bind, append_bind]
    simp only [append_bind]
    rfl
  -- Neither run of blanks can end earlier, since what is read behind it begins with no blank.
  rw [hform, run_bind hg hk fun _ c t hc => bind_eq_nil _ (word_by_blank hc),
    (k.only_word hby).bind_eq, List.cons_append, (Only.char (hg' b List.mem_cons_self)).bind_eq,
    run_bind (fun c hc => hg' c (List.mem_cons_of_mem b hc)) ht
      fun _ c t hc => firstColumn_blank hc]

theorem firstColumn_read? {c : Char} (hc : (c == '\x60' || c == '(' || Unicode.isWord c) = true) :
    firstColumn.read? (c :: t) = some (c :: t.takeWhile Unicode.isWord) := by
  have hend : ∀ d ∈ (t.dropWhile Unicode.isWord).head?, Unicode.isWord d = false := by
    intro d hd
    have hnot := List.head?_dropWhile_not Unicode.isWord t
    rw [hd] at hnot
    simpa using hnot
  have hrun :=
    Prefers.run (x := t.takeWhile Unicode.isWord) (fun d hd => List.mem_takeWhile_imp hd) hend
  rw [List.takeWhile_append_dropWhile] at hrun
  exact ((Only.char hc).prefers.append hrun).read?_eq

theorem read?_firstColumn (t : List Char) : (firstColumn.read? t).any (fun column =>
    notColumns.all fun w => !sameIgnoringCase w.toList column) = startsColumn t := by
  cases t with
  | nil => rfl
  | cons c t =>
    by_cases hmark : c = '\x60' ∨ c = '('
    · rw [firstColumn_read? (by rcases hmark with rfl | rfl <;> rfl)]
      rcases hmark with rfl | rfl <;> simp [startsColumn, notColumns, sameIgnoringCase, lower]
    · obtain ⟨htick, hparen⟩ := not_or.mp hmark
      cases hword : Unicode.isWord c with
      | true =>
        rw [firstColumn_read? (by rw [hword, Bool.or_true])]
        simp [startsColumn, htick, hparen, hword]
      | false =>
        have hnil : firstColumn (c :: t) = [] := by
          refine append_eq_nil _ (char_eq_nil ?_)
          rintro d ⟨⟩
          rw [beq_false_of_ne htick, beq_false_of_ne hparen, hword]
          rfl
        rw [read?, hnil]
        simp [startsColumn, htick, hparen, hword]

theorem lacksByColumn_eq (hg : ∀ c ∈ g, isBlank c = true) (k : Cased "BY") (hne : g' ≠ [])
    (hg' : ∀ c ∈ g', isBlank c = true) (ht : ∀ c ∈ t.head?, isBlank c = false) :
    lacksByColumn (g ++ (k.text ++ (g' ++ t))) = !startsColumn t := by
  have hread : byColumnForm.read? (g ++ (k.text ++ (g' ++ t))) = firstColumn.read? t := by
    rw [read?, byColumnForm_eq hg k hne hg' ht]
    rfl
  have hby : startsIgnoringCase ['b', 'y'] (trimStart (g ++ (k.text ++ (g' ++ t)))) = true := by
    have hhead : ∀ c ∈ (k.text ++ (g' ++ t)).head?, isBlank c = false := by
      intro c hc
      rw [List.head?_append_of_ne_nil _ (k.text_ne_nil (by decide))] at hc
      exact not_isBlank_keyword (by decide) k c (List.mem_of_head? hc)
    rw [trimStart_blank_append hg, trimStart_of_head hhead]
    exact startsIgnoringCase_append (k.lower_eq.trans rfl)
  rw [lacksByColumn, hby, hread, read?_firstColumn, Bool.true_and]

/-- Whether a list starts with a column is seen in the list, when no word runs on behind it. -/
theorem startsColumn_append (hne : x ≠ [])
    (h : (∀ c ∈ x.getLast?, Unicode.isWord c = false) ∨ ∀ c ∈ r.head?, Unicode.isWord c = false) :
    startsColumn (x ++ r) = startsColumn x := by
  have htake : (x ++ r).takeWhile Unicode.isWord = x.takeWhile Unicode.isWord := by
    rw [List.takeWhile_append]
    split
    · next hall =>
      have hx : x.takeWhile Unicode.isWord = x :=
        (List.takeWhile_prefix Unicode.isWord).eq_of_length hall
      have hr : r.takeWhile Unicode.isWord = [] := by
        rcases h with h | h
        · have hlast := h (x.getLast hne) (List.getLast?_eq_some_getLast hne)
          rw [List.takeWhile_eq_self_iff.mp hx _ (List.getLast_mem hne)] at hlast
          cases hlast
        · cases r with
          | nil => rfl
          | cons c r => rw [List.takeWhile_cons_of_neg (by simp [h c rfl])]
      rw [hr, hx, List.append_nil]
    · rfl
  rw [startsColumn, startsColumn, htake, List.head?_append_of_ne_nil _ hne]

end Columns

/-! ## Clauses with lists -/

section Clauses

variable {c : ByClause} {is js : List Item} {e : Expression} {ts : List Token}

theorem isKeyword_byClause (c : ByClause) : IsKeyword c.keyword := by
  cases c <;> decide

theorem mem_reserved (c : ByClause) : c.keyword ∈ reserved := by
  cases c <;> decide

theorem byProblems_of_free (hsep : Separate ts) (hfree : ∀ t ∈ ts, t.shows c.keyword = false) :
    byProblems (textOf ts) c = [] := by
  rw [byProblems, parts_of_free (isKeyword_byClause c) hsep hfree]
  rfl

/-- Behind the first word of a clause the check sees whether its list starts with a column. -/
theorem lacksByColumn_of_written
    (h : Written (.gap :: .keyword "BY" :: .space :: .expression e :: js) ts) (hsep : Separate ts) :
    lacksByColumn (textOf ts) = !startsColumn (textOf e.tokens) := by
  obtain ⟨g, ts₁, rfl, hg, hts₁⟩ := h.of_gap
  obtain ⟨hw, k, ts₂, rfl, hts₂⟩ := hts₁.of_keyword
  obtain ⟨g', ts₃, rfl, hne, hg', hts₃⟩ := hts₂.of_space
  obtain ⟨vs, rfl, -⟩ := hts₃.of_expression
  have hlist : textOf e.tokens ≠ [] := textOf_ne_nil e.ne_nil
  have hhead : ∀ c ∈ (textOf (e.tokens ++ vs)).head?, isBlank c = false := by
    rw [textOf_append, List.head?_append_of_ne_nil _ hlist]
    exact e.trimmed.head
  have hends : (∀ c ∈ (textOf e.tokens).getLast?, Unicode.isWord c = false) ∨
      ∀ c ∈ (textOf vs).head?, Unicode.isWord c = false := by
    have hexpression : Separate (e.tokens ++ vs) := hsep.right.tail.right
    exact hexpression.ends.imp (fun h c hc => (Bool.or_eq_false_iff.mp (h c hc)).1)
      fun h c hc => (Bool.or_eq_false_iff.mp (h c hc)).1
  have htext : textOf (g ++ keywordToken hw k :: (g' ++ (e.tokens ++ vs))) =
      textOf g ++ (k.text ++ (textOf g' ++ textOf (e.tokens ++ vs))) := by
    rw [textOf_append, textOf_cons, textOf_append g']
    rfl
  rw [htext, lacksByColumn_eq (isBlank_textOf hg) k (textOf_ne_nil hne) (isBlank_textOf hg') hhead,
    textOf_append, startsColumn_append hlist hends]

/-- The check complains about a clause whose list does not look like one of columns. -/
theorem byProblems_of_written (h : Written (is ++ (listClause c (some e) ++ js)) ts)
    (hsep : Separate ts) (his : is.any (Item.shows c.keyword) = false)
    (hjs : js.any (Item.shows c.keyword) = false) :
    byProblems (textOf ts) c =
      if startsColumn (textOf e.tokens) then [] else [.missingByColumn c] := by
  obtain ⟨hw, k, us, vs, rfl, -, hfront, hvs⟩ := Written.of_first (mem_reserved c) h his
  have hback : ∀ t ∈ vs, t.shows c.keyword = false := by
    refine hvs.free (mem_reserved c) ?_
    have hby : sameIgnoringCase c.keyword.toList "BY".toList = false := by cases c <;> rfl
    change (Item.gap :: .keyword "BY" :: .space :: .expression e :: js).any _ = false
    simp only [List.any_cons, Item.shows, hby, hjs, Bool.or_false]
  have hlater : Separate vs := hsep.right.tail
  have hdrop : (k.text ++ textOf vs).drop c.keyword.length = textOf vs := by
    rw [← k.length_text, List.drop_left]
  have hsuffixes : partSuffixes [textOf us, k.text ++ textOf vs] = [k.text ++ textOf vs] := by
    simp [partSuffixes]
  rw [byProblems, parts_keyword hsep hfront, parts_of_free hw hlater hback, foldr_consHead,
    hsuffixes, List.filterMap_cons, hdrop, lacksByColumn_of_written hvs hlater]
  cases startsColumn (textOf e.tokens) <;> rfl

theorem byProblems_of_clause {list : Option Expression}
    (h : Written (is ++ (listClause c list ++ js)) ts) (hsep : Separate ts)
    (his : is.any (Item.shows c.keyword) = false) (hjs : js.any (Item.shows c.keyword) = false) :
    byProblems (textOf ts) c =
      if list.any fun e => !startsColumn (textOf e.tokens) then [.missingByColumn c] else [] := by
  cases list with
  | none =>
    refine byProblems_of_free hsep (h.free (mem_reserved c) ?_)
    rw [List.any_append, his]
    exact hjs
  | some e =>
    rw [byProblems_of_written h hsep his hjs, Option.any_some]
    cases startsColumn (textOf e.tokens) <;> rfl

end Clauses

end SchemaLint.Sql
