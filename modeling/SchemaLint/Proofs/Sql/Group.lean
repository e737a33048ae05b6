import SchemaLint.Proofs.Nesting.Matching
import SchemaLint.Proofs.Sql.Joined
import SchemaLint.Proofs.Sql.Token

/-!
# Clauses in parentheses

Parentheses around a clause, with `NOT` and a blank in front of them or without, mention what the
clause mentions, at any depth. A `NOT` that touches its parenthesis is not read as a negation: it is
taken for the name of a column, no form goes on with a parenthesis behind a name, and nothing of the
clause is mentioned (`clauseMentions_enclosed`).
-/

namespace SchemaLint.Sql

open Form Nesting Text

/-! ## Enclosures -/

/-- What stands around a clause. -/
inductive Enclosure where
  /-- `(clause)`. -/
  | bare
  /-- `NOT (clause)`. -/
  | apart (word : Cased "NOT")
  /-- `NOT(clause)`. -/
  | joined (word : Cased "NOT")

namespace Enclosure

def text (clause : List Char) : Enclosure → List Char
  | bare => '(' :: (clause ++ [')'])
  | apart word => word.text ++ ' ' :: '(' :: (clause ++ [')'])
  | joined word => word.text ++ '(' :: (clause ++ [')'])

/-- `NOT` and its parenthesis touch. -/
def isJoined : Enclosure → Bool
  | joined _ => true
  | _ => false

/-- A clause in enclosures, the outermost first. -/
def around (es : List Enclosure) (clause : List Char) : List Char :=
  es.foldr (fun e inner => e.text inner) clause

variable {clause : List Char} (hclause : Balanced clause)

include hclause

/-- An enclosure shows none of the words that a clause is cut at. -/
theorem phrase (e : Enclosure) : Phrase joints (e.text clause) := by
  have hgroup : Phrase joints ('(' :: (clause ++ [')'])) := .of_bracketed hclause
  cases e with
  | bare => exact hgroup
  | apart word => exact (word.phrase (by decide) (by decide)).spaced hgroup
  | joined word =>
    have hword : Phrase joints word.text := word.phrase (by decide) (by decide)
    refine ⟨hword.lacks.append hgroup.lacks (by rintro c ⟨⟩; decide), ⟨?_, ?_⟩, by simp [text]⟩
    · rw [text, List.head?_append_of_ne_nil _ hword.ne_nil]
      exact hword.trimmed.head
    · rw [text, List.getLast?_append_of_ne_nil _ hgroup.ne_nil]
      exact hgroup.trimmed.last

theorem balanced_around (es : List Enclosure) : Balanced (around es clause) := by
  induction es with
  | nil => exact hclause
  | cons e es ih => exact (e.phrase ih).lacks.balanced

end Enclosure

/-! ## What enclosures are read as -/

/-- No form goes on behind a name with what is neither blank nor an operator. -/
theorem oneOf_forms_eq_nil {x r : List Char} (hname : Only name (x ++ r) x r)
    (hr : ∀ c ∈ r.head?, isBlank c = false) (hoperator : oneOf (Condition.operators.map exact) r = []) :
    oneOf forms (x ++ r) = [] := by
  have hblanks1 : blanks1 r = [] := append_eq_nil _ (char_eq_nil hr)
  refine oneOf_eq_nil fun f hf => ?_
  simp only [forms, List.mem_cons, List.not_mem_nil, or_false] at hf
  rcases hf with rfl | rfl | rfl | rfl | rfl
  · exact hname.bind_eq_nil (bind_eq_nil _ (append_eq_nil _ (append_eq_nil _ (append_eq_nil _
      (append_eq_nil _ hblanks1)))))
  · exact hname.bind_eq_nil (bind_eq_nil _ (append_eq_nil _ (append_eq_nil _ (append_eq_nil _
      hblanks1))))
  · exact hname.bind_eq_nil (bind_eq_nil _ (append_eq_nil _ (append_eq_nil _ (append_eq_nil _
      (append_eq_nil _ hblanks1)))))
  · exact hname.bind_eq_nil (bind_eq_nil _ (append_eq_nil _ (append_eq_nil _ (append_eq_nil _
      hblanks1))))
  · exact hname.bind_eq_nil (bind_eq_nil _ (append_eq_nil _
      ((Only.blanks_nil hr).append_eq_nil hoperator)))

section Reading

variable {clause : List Char}

/-- `NOT` in front of a parenthesis that it touches is a name, and the condition is not read. -/
theorem read?_joined (word : Cased "NOT") (hclause : Balanced clause) :
    Condition.read? ((Enclosure.joined word).text clause) = none := by
  have hident : ∀ c ∈ word.text, isIdentChar c = true := word.isIdentChar_of_mem (by decide)
  have hne : word.text ≠ [] := word.text_ne_nil (by decide)
  set group := '(' :: (clause ++ [')']) with hgroup
  have hshape : (Enclosure.joined word).text clause = word.text ++ group := rfl
  have hnot : startsIgnoringCase ['n', 'o', 't', ' '] (word.text ++ group) = false := by
    have hdrop : (word.text ++ group).drop 3 = group := by
      have hlen : word.text.length = 3 := word.length_text
      rw [← hlen, List.drop_left]
    have hblank : startsIgnoringCase [' '] ((word.text ++ group).drop 3) = false := by
      rw [hdrop]
      rfl
    rw [show ['n', 'o', 't', ' '] = ['n', 'o', 't'] ++ [' '] from rfl, startsIgnoringCase_append_left]
    rw [show ['n', 'o', 't'].length = 3 from rfl, hblank, Bool.and_false]
  have hhead : (word.text ++ group).head? ≠ some '(' := by
    rw [List.head?_append_of_ne_nil _ hne]
    intro h
    exact absurd (hident _ (List.mem_of_head? h)) (by decide)
  have hname : Only name (word.text ++ group) word.text group :=
    only_name_of_chars hne (fun c hc => isNameChar_of_isIdentChar (hident c hc))
      (by rintro c ⟨⟩; decide) (dot_gap_eq_nil isBlank_nil (by rintro c ⟨⟩; decide))
  have hforms : oneOf forms (word.text ++ group) = [] :=
    oneOf_forms_eq_nil hname (by rintro c ⟨⟩; decide) rfl
  rw [read?_eq ((Enclosure.joined word).phrase hclause).trimmed hnot hhead, hshape, Form.read?, hforms]
  rfl

theorem clauseMentions_enclosure (e : Enclosure) (hclause : Balanced clause) :
    clauseMentions (e.text clause) = if e.isJoined then [] else clauseMentions clause := by
  have hconditions : conditions (e.text clause) = [e.text clause] := by
    have h := conditions_phrase (e.phrase hclause) isBlank_nil
    rwa [List.append_nil] at h
  rw [clauseMentions_eq, hconditions, List.flatMap_singleton, conditionMentions]
  cases e with
  | bare =>
    have hread : Condition.read? (Enclosure.bare.text clause) = some (.group clause) :=
      read?_parentheses none hclause
    rw [hread]
    rfl
  | apart word =>
    have hread : Condition.read? ((Enclosure.apart word).text clause) = some (.group clause) :=
      read?_parentheses (some word) hclause
    rw [hread]
    rfl
  | joined word =>
    rw [read?_joined word hclause]
    rfl

end Reading

/-- Enclosures around a clause mention what it mentions, unless one of them joins its `NOT`. -/
theorem clauseMentions_around {clause : List Char} (hclause : Balanced clause)
    (es : List Enclosure) :
    clauseMentions (Enclosure.around es clause) =
      if es.any Enclosure.isJoined then [] else clauseMentions clause := by
  induction es with
  | nil => rfl
  | cons e es ih =>
    have houter := clauseMentions_enclosure e (Enclosure.balanced_around hclause es)
    rw [ih] at houter
    rw [List.any_cons]
    refine houter.trans ?_
    cases e.isJoined <;> rfl

/-- Where the last parenthesis is the partner of the first, enclosures mention what the clause in them
mentions, unless one of them joins its `NOT`. -/
theorem clauseMentions_enclosed {clause : List Char}
    (h : partnerOffset? ('(' :: (clause ++ [')'])) 0 = some (utf8Length ('(' :: clause)))
    (es : List Enclosure) :
    clauseMentions (Enclosure.around es clause) =
      if es.any Enclosure.isJoined then [] else clauseMentions clause :=
  clauseMentions_around ((partnerOffset?_eq_some_iff rfl rfl).mp h) es

/-- A joined `NOT` loses a clause with connectives, a quoted parenthesis and a group. -/
theorem clauseMentions_joined_not :
    let clause := "a = 1 OR (b = ')' AND NOT (c IN (2)))".toList
    let not : Cased "NOT" := ⟨['N', 'O', 'T'], rfl⟩
    partnerOffset? ('(' :: (clause ++ [')'])) 0 = some (utf8Length ('(' :: clause)) ∧
      clauseMentions (Enclosure.around [.apart not, .bare] clause) =
        [.assign "a" "1", .assign "b" "')'", .touch "c", .assign "c" "2"] ∧
      clauseMentions (Enclosure.around [.joined not, .bare] clause) = [] := by
  intro clause not
  have hpartner : partnerOffset? ('(' :: (clause ++ [')'])) 0 = some (utf8Length ('(' :: clause)) := by
    decide +kernel
  refine ⟨hpartner, ?_, ?_⟩
  · rw [clauseMentions_enclosed hpartner]
    decide +kernel
  · rw [clauseMentions_enclosed hpartner]
    rfl

end SchemaLint.Sql
