import SchemaLint.Proofs.Sql.Condition

/-!
# Clauses as they are written

A clause (`Clause`) is a leaf, a clause in parentheses with `NOT` in front of it or not, or two
clauses joined by `AND` or `OR`. Cutting the text of a clause gives the conditions that it joins
(`Clause.conditions_text`), and what they mention is what the leaves mention from left to right
(`Clause.mentions_text`).

Two inductions on the clause carry this. The first runs through the joins: whatever follows a
connective, the conditions before it are those of the clause before it (`Clause.conditions_append`).
The second goes into the groups: a clause in parentheses is shorter than its group.
-/

namespace SchemaLint.Sql

open Nesting Text
open Shell (Spacing)

/-! ## Clauses and their texts -/

/-- What joins two clauses. -/
inductive Connective where
  | and (word : Cased "AND")
  | or (word : Cased "OR")

namespace Connective

def text : Connective → List Char
  | and word => word.text
  | or word => word.text

def isAnd : Connective → Bool
  | and _ => true
  | or _ => false

theorem text_ne_nil (k : Connective) : k.text ≠ [] := by
  cases k with
  | and word => exact word.text_ne_nil (by decide)
  | or word => exact word.text_ne_nil (by decide)

theorem isIdentChar_of_mem (k : Connective) : ∀ c ∈ k.text, isIdentChar c = true := by
  cases k with
  | and word => exact word.isIdentChar_of_mem (by decide)
  | or word => exact word.isIdentChar_of_mem (by decide)

theorem startsIgnoringCase_text (k : Connective) (r : List Char) :
    startsIgnoringCase ['a', 'n', 'd'] (k.text ++ r) = k.isAnd := by
  cases k with
  | and word => exact startsIgnoringCase_append word.lower_eq
  | or word =>
    obtain ⟨c, v, hv⟩ := List.exists_cons_of_ne_nil (word.text_ne_nil (by decide))
    have hc : c.toLower = 'o' := by
      have hlower := word.lower_eq
      rw [hv] at hlower
      exact (List.cons.inj hlower).1
    rw [text, hv, List.cons_append, startsIgnoringCase, hc]
    rfl

theorem drop_text (k : Connective) (r : List Char) :
    (k.text ++ r).drop (if k.isAnd then 3 else 2) = r := by
  cases k with
  | and word =>
    have hlen : word.text.length = 3 := word.length_text
    simp [text, isAnd, ← hlen]
  | or word =>
    have hlen : word.text.length = 2 := word.length_text
    simp [text, isAnd, ← hlen]

end Connective

/-- What a statement may ask of its rows. -/
inductive Clause where
  /-- A condition on one column. -/
  | leaf (leaf : Leaf)
  /-- `[NOT] (clause)`. -/
  | group (not : Option (Cased "NOT")) (clause : Clause)
  /-- `clause AND clause` or `clause OR clause`. -/
  | join (left : Clause) (connective : Connective) (right : Clause)

def parenthesized (sp : Spacing) (s : List Char) : List Char :=
  '(' :: (sp.edge ++ s ++ sp.edge ++ [')'])

namespace Clause

def text (sp : Spacing) : Clause → List Char
  | leaf l => l.text sp
  | group not c => negated not (parenthesized sp (c.text sp))
  | join a k b => a.text sp ++ ' ' :: (k.text ++ ' ' :: b.text sp)

/-- The conditions on columns in a clause, from left to right. -/
def leaves : Clause → List Leaf
  | leaf l => [l]
  | group _ c => c.leaves
  | join a _ b => a.leaves ++ b.leaves

/-- The texts of the leaves and groups that a clause joins. -/
def members (sp : Spacing) : Clause → List (List Char)
  | leaf l => [l.text sp]
  | group not c => [negated not (parenthesized sp (c.text sp))]
  | join a _ b => a.members sp ++ b.members sp

end Clause

/-! ## Phrases -/

/-- The words that begin and end a clause. -/
def clauseWords : List String :=
  "WHERE" :: clauseEnds

theorem balanced_inParentheses (sp : Spacing) {s : List Char} (hs : Balanced s) :
    Balanced (sp.edge ++ s ++ sp.edge) :=
  have hedge := Balanced.of_blank sp.isBlank_edge
  (hedge.append hs).append hedge

/-- A group lacks all words that are not `NOT`. -/
theorem phrase_group (sp : Spacing) (not : Option (Cased "NOT")) {ws : List String} {s : List Char}
    (hws : ∀ w ∈ ws, lower "NOT".toList ≠ lower w.toList) (hs : Balanced s) :
    Phrase ws (negated not (parenthesized sp s)) :=
  phrase_negated not hws (.of_bracketed (balanced_inParentheses sp hs))

/-- A clause is a phrase that lacks the words that begin or end one. -/
theorem Clause.phrase (sp : Spacing) (c : Clause) : Phrase clauseWords (c.text sp) := by
  induction c with
  | leaf l => exact (l.phrase sp).mono (by decide)
  | group not c ih => exact phrase_group sp not (by decide) ih.lacks.balanced
  | join a k b iha ihb =>
    have hk : Phrase clauseWords k.text := by
      cases k with
      | and word => exact word.phrase (by decide) (by decide)
      | or word => exact word.phrase (by decide) (by decide)
    exact iha.spaced (hk.spaced ihb)

/-! ## Cutting a clause into its conditions -/

def connectiveAt : PlaceTest :=
  fun before rest => isKeywordAt "AND" before rest || isKeywordAt "OR" before rest

theorem within_connectiveAt : connectiveAt.Within ["AND", "OR"] where
  isKeyword := by decide
  pass before rest h := by
    rcases Bool.or_eq_true_iff.mp h with h | h
    · exact .inl ⟨"AND", by simp, h⟩
    · exact .inl ⟨"OR", by simp, h⟩
  before b b' rest h := by
    rw [connectiveAt, connectiveAt, isKeywordAt_before _ rest h, isKeywordAt_before _ rest h]

theorem conditions_eq {clause p : List Char} {ps : List (List Char)}
    (h : parts connectiveAt clause = p :: ps) :
    conditions clause = ((joinConditions p false ps).map trim).filter (!·.isEmpty) := by
  have hparts : parts (fun before rest => isKeywordAt "AND" before rest ||
      isKeywordAt "OR" before rest) clause = p :: ps := h
  unfold conditions
  rw [hparts]

theorem hasKeyword_cons_blank {w : String} (hw : IsKeyword w) {b : Char} (hb : isBlank b = true)
    (s : List Char) : hasKeyword w (b :: s) = hasKeyword w s := by
  have hparts : parts (isKeywordAt w) (b :: s) = consHead b (parts (isKeywordAt w) s) :=
    parts_cons_blank (within_isKeywordAt hw) hb none s
  unfold hasKeyword firstCut?
  rw [hparts]
  rcases parts (isKeywordAt w) s with _ | ⟨p, _ | ⟨q, ps⟩⟩ <;> rfl

/-- A blank in front of a condition does not change which parts belong to it. -/
theorem trim_joinConditions {b : Char} (hb : isBlank b = true) (s : List Char) (bounded : Bool)
    (ps : List (List Char)) :
    (joinConditions (b :: s) bounded ps).map trim = (joinConditions s bounded ps).map trim := by
  have htrim : ∀ t, trim (b :: t) = trim t := fun t => by
    rw [← List.singleton_append, trim_blank_append (by simpa using hb)]
  induction ps generalizing s bounded with
  | nil => rw [joinConditions, joinConditions, List.map_singleton, List.map_singleton, htrim]
  | cons p ps ih =>
    rw [joinConditions, joinConditions, hasKeyword_cons_blank (by decide) hb]
    split
    · rw [List.cons_append, ih]
    · rw [List.map_cons, List.map_cons, htrim]

theorem conditions_cons_blank {b : Char} (hb : isBlank b = true) (s : List Char) :
    conditions (b :: s) = conditions s := by
  have hparts : parts connectiveAt (b :: s) = consHead b (parts connectiveAt s) :=
    parts_cons_blank within_connectiveAt hb none s
  obtain ⟨p, ps, hp⟩ := List.exists_cons_of_ne_nil (parts_ne_nil connectiveAt s)
  rw [hp, consHead] at hparts
  rw [conditions_eq hparts, conditions_eq hp, trim_joinConditions hb]

theorem conditions_blank_append {gap : List Char} (hgap : ∀ c ∈ gap, isBlank c = true)
    (s : List Char) : conditions (gap ++ s) = conditions s := by
  induction gap with
  | nil => rfl
  | cons b gap ih =>
    rw [List.cons_append, conditions_cons_blank (hgap b List.mem_cons_self),
      ih fun c hc => hgap c (List.mem_cons_of_mem b hc)]

/-- A connective ends the condition before it, unless it is the `AND` of the `BETWEEN` in there. -/
theorem joinConditions_text (k : Connective) (c : List Char) (bounded : Bool) (p : List Char)
    (ps : List (List Char)) : joinConditions c bounded ((k.text ++ p) :: ps) =
      if k.isAnd && !bounded && hasKeyword "BETWEEN" c then joinConditions (c ++ (k.text ++ p)) true ps
      else c :: joinConditions p false ps := by
  rw [joinConditions, k.startsIgnoringCase_text, k.drop_text]

theorem joinConditions_cut {c : List Char} {bounded : Bool} (k : Connective)
    (h : bounded = true ∨ hasKeyword "BETWEEN" c = false) (p : List Char) (ps : List (List Char)) :
    joinConditions c bounded ((k.text ++ ' ' :: p) :: ps) =
      c :: joinConditions (' ' :: p) false ps := by
  rw [joinConditions_text]
  refine if_neg ?_
  rcases h with h | h <;> simp [h]

/-- The words that keep the parts of a clause together or apart. -/
def joints : List String :=
  ["AND", "OR", "BETWEEN"]

section Members

variable {s : List Char} (hs : Phrase joints s)

include hs

theorem conditions_phrase {gap : List Char} (hgap : ∀ c ∈ gap, isBlank c = true) :
    conditions (s ++ gap) = [s] := by
  have hlacks : Lacks ["AND", "OR"] (s ++ gap) := (hs.lacks.append_blank hgap).mono (by decide)
  rw [conditions_eq (parts_of_lacks within_connectiveAt hlacks), joinConditions, List.map_singleton,
    trim_append_blank hgap, hs.trimmed.trim_eq]
  simp [hs.ne_nil]

theorem joinConditions_connective (k : Connective) (p : List Char) (ps : List (List Char)) :
    joinConditions (s ++ [' ']) false ((k.text ++ ' ' :: p) :: ps) =
      (s ++ [' ']) :: joinConditions (' ' :: p) false ps := by
  have hbetween : hasKeyword "BETWEEN" (s ++ [' ']) = false :=
    hasKeyword_of_lacks (by decide) ((hs.lacks.append_blank isBlank_space).mono (by decide))
  exact joinConditions_cut k (.inr hbetween) p ps

/-- The conditions of a clause that begins with a phrase and a connective. -/
theorem conditions_append_connective (k : Connective) (r : List Char) :
    conditions (s ++ ' ' :: (k.text ++ ' ' :: r)) = s :: conditions r := by
  obtain ⟨p, ps, hp⟩ := List.exists_cons_of_ne_nil (parts_ne_nil connectiveAt r)
  have hparts : parts connectiveAt (s ++ ' ' :: (k.text ++ ' ' :: r)) =
      (s ++ [' ']) :: (k.text ++ ' ' :: p) :: ps := by
    have hlacks : Lacks ["AND", "OR"] s := hs.lacks.mono (by decide)
    have htail : (k.text ++ ' ' :: p) :: ps =
        (k.text ++ [' ']).foldr consHead (parts connectiveAt r) := by
      rw [hp, foldr_consHead, List.append_assoc, List.singleton_append]
    rw [htail]
    cases k with
    | and word =>
      exact parts_append_keyword within_connectiveAt (by decide) hlacks
        (fun rest h => by rw [connectiveAt, h, Bool.true_or]) word r
    | or word =>
      exact parts_append_keyword within_connectiveAt (by decide) hlacks
        (fun rest h => by rw [connectiveAt, h, Bool.or_true]) word r
  have htrim : trim (s ++ [' ']) = s := by
    rw [trim_append_blank isBlank_space, hs.trimmed.trim_eq]
  rw [conditions_eq hparts, joinConditions_connective hs, List.map_cons, htrim,
    trim_joinConditions (by decide), conditions_eq hp, List.filter_cons_of_pos (by simp [hs.ne_nil])]

end Members

namespace Clause

variable (sp : Spacing)

/-- What follows a connective does not change the conditions before it. -/
theorem conditions_append (c : Clause) (k : Connective) (r : List Char) :
    conditions (c.text sp ++ ' ' :: (k.text ++ ' ' :: r)) = c.members sp ++ conditions r := by
  induction c generalizing k r with
  | leaf l => exact conditions_append_connective ((l.phrase sp).mono (by decide)) k r
  | group not c =>
    exact conditions_append_connective
      (phrase_group sp not (by decide) (c.phrase sp).lacks.balanced) k r
  | join a k' b iha ihb =>
    -- For the left clause, all that follows its connective is the rest.
    have hshape : (join a k' b).text sp ++ ' ' :: (k.text ++ ' ' :: r) =
        a.text sp ++ ' ' :: (k'.text ++ ' ' :: (b.text sp ++ ' ' :: (k.text ++ ' ' :: r))) := by
      simp [text]
    rw [hshape, iha, ihb, members, List.append_assoc]

/-- A clause is cut into the leaves and groups that it joins, whatever blanks stand around it. -/
theorem conditions_text (c : Clause) {gap gap' : List Char} (hgap : ∀ d ∈ gap, isBlank d = true)
    (hgap' : ∀ d ∈ gap', isBlank d = true) :
    conditions (gap ++ c.text sp ++ gap') = c.members sp := by
  rw [List.append_assoc, conditions_blank_append hgap]
  induction c with
  | leaf l => exact conditions_phrase ((l.phrase sp).mono (by decide)) hgap'
  | group not c =>
    exact conditions_phrase (phrase_group sp not (by decide) (c.phrase sp).lacks.balanced) hgap'
  | join a k b _ ihb =>
    have hshape : (join a k b).text sp ++ gap' =
        a.text sp ++ ' ' :: (k.text ++ ' ' :: (b.text sp ++ gap')) := by
      simp [text]
    rw [hshape, a.conditions_append sp, ihb, members]

end Clause

/-! ## Groups -/

theorem dropNots_negated (not : Option (Cased "NOT")) {s : List Char}
    (hs : startsIgnoringCase ['n', 'o', 't', ' '] s = false)
    (hblank : ∀ c ∈ s.head?, isBlank c = false) {n : Nat} (hn : 0 < n) :
    Condition.dropNots n (negated not s) = s := by
  obtain ⟨n, rfl⟩ := Nat.exists_eq_add_of_lt hn
  cases not with
  | none => exact dropNots_of_not hs _
  | some k =>
    have hlower : lower (k.text ++ [' ']) = lower ['n', 'o', 't', ' '] := by
      have := congrArg (· ++ [' ']) k.lower_eq
      simpa [lower] using this
    have hstarts : startsIgnoringCase ['n', 'o', 't', ' '] (k.text ++ ' ' :: s) = true := by
      rw [List.append_cons]
      exact startsIgnoringCase_append hlower
    have hdrop : (k.text ++ ' ' :: s).drop 4 = s := by
      have hlen : (k.text ++ [' ']).length = 4 := length_eq_of_lower hlower
      rw [List.append_cons, ← hlen, List.drop_left]
    rw [negated, Nat.zero_add, Condition.dropNots, if_pos hstarts, hdrop, trimStart_of_head hblank,
      dropNots_of_not hs]

/-- A group is read as the clause in its parentheses. -/
theorem read?_parentheses (not : Option (Cased "NOT")) {s : List Char} (hs : Balanced s) :
    Condition.read? (negated not ('(' :: (s ++ [')']))) = some (.group s) := by
  have hphrase : Phrase [] (negated not ('(' :: (s ++ [')']))) :=
    phrase_negated not (by simp) (.of_bracketed hs)
  have hdrop : Condition.dropNots (negated not ('(' :: (s ++ [')']))).length
      (negated not ('(' :: (s ++ [')']))) = '(' :: (s ++ [')']) :=
    dropNots_negated not rfl (by rintro c ⟨⟩; decide) (List.length_pos_of_ne_nil hphrase.ne_nil)
  have hpartner : cutAtPartner? ('(' :: (s ++ [')'])) = some (s, [')']) :=
    cutAtPartner?_bracketed rfl rfl hs []
  have hgroup : Condition.group? ('(' :: (s ++ [')'])) = some s := by
    unfold Condition.group?
    rw [hpartner]
    rfl
  unfold Condition.read?
  rw [hphrase.trimmed.trim_eq, hdrop]
  simp only [hgroup]

theorem read?_group (sp : Spacing) (not : Option (Cased "NOT")) {s : List Char} (hs : Balanced s) :
    Condition.read? (negated not (parenthesized sp s)) =
      some (.group (sp.edge ++ s ++ sp.edge)) :=
  read?_parentheses not (balanced_inParentheses sp hs)

/-! ## Mentions -/

/-- What a condition of a clause mentions, groups nested up to a depth. -/
def mentionsTo (depth : Nat) (text : List Char) : List Mention :=
  ((Condition.read? text).map (Condition.mentions (clauseMentionsTo depth))).getD []

theorem clauseMentionsTo_succ (depth : Nat) (clause : List Char) :
    clauseMentionsTo (depth + 1) clause = (conditions clause).flatMap (mentionsTo depth) :=
  rfl

theorem length_negated_parenthesized (sp : Spacing) (not : Option (Cased "NOT")) (s : List Char) :
    s.length < (negated not (parenthesized sp s)).length := by
  cases not <;> simp [negated, parenthesized] <;> omega

namespace Clause

variable (sp : Spacing)

/-- The conditions of a clause mention its leaves, if the depth lets all groups be read. -/
theorem mentions_members (c : Clause) {depth : Nat} (h : (c.text sp).length ≤ depth) :
    (c.members sp).flatMap (mentionsTo depth) = c.leaves.flatMap Leaf.mentions := by
  induction c generalizing depth with
  | leaf l =>
    have hleaf : mentionsTo depth (l.text sp) = l.mentions := by
      rw [mentionsTo, l.read?_text, Option.map_some, l.mentions_condition, Option.getD_some]
    simp [members, leaves, hleaf]
  | group not c ih =>
    have hlt := length_negated_parenthesized sp not (c.text sp)
    -- The clause in the parentheses is read one level deeper, and it is shorter.
    rw [text] at h
    obtain ⟨d, rfl⟩ : ∃ d, depth = d + 1 := ⟨depth - 1, by omega⟩
    have hgroup : mentionsTo (d + 1) (negated not (parenthesized sp (c.text sp))) =
        c.leaves.flatMap Leaf.mentions := by
      rw [mentionsTo, read?_group sp not (c.phrase sp).lacks.balanced, Option.map_some,
        Option.getD_some, Condition.mentions, clauseMentionsTo_succ,
        c.conditions_text sp sp.isBlank_edge sp.isBlank_edge, ih (by omega)]
    simp [members, leaves, hgroup]
  | join a k b iha ihb =>
    simp only [text, List.length_append, List.length_cons] at h
    rw [members, leaves, List.flatMap_append, List.flatMap_append, iha (by omega), ihb (by omega)]

/-- A written clause mentions its leaves from left to right, and nothing else. -/
theorem mentions_text (c : Clause) :
    clauseMentions (c.text sp) = c.leaves.flatMap Leaf.mentions := by
  have hconditions : conditions ([] ++ c.text sp ++ []) = c.members sp :=
    c.conditions_text sp (by simp) (by simp)
  rw [List.nil_append, List.append_nil] at hconditions
  rw [clauseMentions, clauseMentionsTo_succ, hconditions, c.mentions_members sp (Nat.le_refl _)]

end Clause

end SchemaLint.Sql
