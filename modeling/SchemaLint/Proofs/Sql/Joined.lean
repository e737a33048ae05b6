import SchemaLint.Proofs.Skip
import SchemaLint.Proofs.Sql.Clause
import SchemaLint.Proofs.Sql.Values

/-!
# Clauses one condition at a time

A clause mentions what its conditions mention, one after the other, and a group mentions what its
clause mentions: no depth is left out (`clauseMentions_eq`). A piece of a clause (`Piece`) is a text
without connectives, or one with a `BETWEEN` and the `AND` that belongs to it. What stands behind a
piece and a connective is a clause of its own (`Piece.clauseMentions_append`), whatever text it is.
-/

namespace SchemaLint.Sql

open Form Nesting Text

/-! ## Groups of any depth -/

section Depth

variable {clause text : List Char}

/-- None of the forms reads a group. -/
theorem ne_group_of_mem_forms {f : Form Condition} (hf : f ∈ forms) {c : Condition} {s r : List Char}
    (h : (c, r) ∈ f s) (clause : List Char) : c ≠ .group clause := by
  rintro rfl
  simp only [forms, List.mem_cons, List.not_mem_nil, or_false] at hf
  rcases hf with rfl | rfl | rfl | rfl | rfl
  · obtain ⟨_, _, -, h⟩ := mem_bind.mp h
    obtain ⟨_, _, -, h⟩ := mem_bind.mp h
    obtain ⟨_, _, -, h⟩ := mem_bind.mp h
    cases (mem_pure.mp h).1
  · obtain ⟨_, _, -, h⟩ := mem_bind.mp h
    obtain ⟨_, _, -, h⟩ := mem_bind.mp h
    obtain ⟨_, _, -, h⟩ := mem_bind.mp h
    obtain ⟨_, _, -, h⟩ := mem_bind.mp h
    obtain ⟨_, _, -, h⟩ := mem_bind.mp h
    cases (mem_pure.mp h).1
  all_goals
    obtain ⟨_, _, -, h⟩ := mem_bind.mp h
    obtain ⟨_, _, -, h⟩ := mem_bind.mp h
    obtain ⟨_, _, -, h⟩ := mem_bind.mp h
    cases (mem_pure.mp h).1

theorem length_of_group? (h : Condition.group? text = some clause) : clause.length < text.length := by
  obtain ⟨o, c, rfl⟩ := exists_of_group? h
  rw [List.length_cons, List.length_append]
  omega

/-- The clause of a group is shorter than the condition. -/
theorem length_of_read?_group (h : Condition.read? text = some (.group clause)) :
    clause.length < text.length := by
  have hdropped : (Condition.dropNots text.length (trim text)).length ≤ text.length :=
    ((dropNots_suffix _ _).isInfix.trans (trim_isInfix text)).length_le
  unfold Condition.read? at h
  dsimp only at h
  split at h
  · next clause' hgroup =>
    obtain rfl := Condition.group.inj (Option.some.inj h)
    exact Nat.lt_of_lt_of_le (length_of_group? hgroup) hdropped
  · obtain ⟨⟨c, r⟩, hhead, rfl⟩ := Option.map_eq_some_iff.mp h
    obtain ⟨f, hf, hmem⟩ := mem_oneOf.mp (List.mem_of_mem_head? hhead)
    exact absurd rfl (ne_group_of_mem_forms hf hmem clause)

/-- What a condition mentions depends on what shorter clauses mention. -/
theorem mentions_congr {c : Condition} (hread : Condition.read? text = some c)
    {g g' : List Char → List Mention}
    (h : ∀ clause : List Char, clause.length < text.length → g clause = g' clause) :
    c.mentions g = c.mentions g' := by
  cases c with
  | group clause => exact h clause (length_of_read?_group hread)
  | isNull | between | isIn | compare => rfl

theorem length_of_mem_conditions (h : text ∈ conditions clause) : text.length ≤ clause.length :=
  ((scattered_conditions clause).isInfix_of_mem h).length_le

theorem mentionsTo_congr {d d' : Nat}
    (h : ∀ clause : List Char, clause.length < text.length →
      clauseMentionsTo d clause = clauseMentionsTo d' clause) :
    mentionsTo d text = mentionsTo d' text := by
  unfold mentionsTo
  cases hread : Condition.read? text with
  | none => rfl
  | some c => exact congrArg (fun ms => (some ms).getD []) (mentions_congr hread h)

/-- More depth than the clause is long changes nothing. -/
theorem clauseMentionsTo_eq_of_lt {d d' : Nat} (hd : clause.length < d) (hd' : clause.length < d') :
    clauseMentionsTo d clause = clauseMentionsTo d' clause := by
  induction d generalizing clause d' with
  | zero => omega
  | succ d ih =>
    obtain ⟨d', rfl⟩ : ∃ e, d' = e + 1 := ⟨d' - 1, by omega⟩
    rw [clauseMentionsTo_succ, clauseMentionsTo_succ]
    refine List.flatMap_congr fun text htext => mentionsTo_congr fun inner hinner => ?_
    have hlength := length_of_mem_conditions htext
    exact ih (by omega) (by omega)

/-- What a condition mentions, groups nested to any depth. -/
def conditionMentions (text : List Char) : List Mention :=
  ((Condition.read? text).map (Condition.mentions clauseMentions)).getD []

/-- A clause mentions what its conditions mention. -/
theorem clauseMentions_eq (clause : List Char) :
    clauseMentions clause = (conditions clause).flatMap conditionMentions := by
  rw [clauseMentions, clauseMentionsTo_succ]
  refine List.flatMap_congr fun text htext => ?_
  have hlength := length_of_mem_conditions htext
  unfold mentionsTo conditionMentions
  cases hread : Condition.read? text with
  | none => rfl
  | some c =>
    exact congrArg (fun ms => (some ms).getD []) (mentions_congr hread fun inner hinner =>
      clauseMentionsTo_eq_of_lt (by omega) (by omega))

end Depth

/-! ## Pieces of clauses -/

theorem endsAtBlank_connectiveAt : connectiveAt.EndsAtBlank := by
  intro before c r t ht
  rw [connectiveAt, connectiveAt, endsAtBlank_isKeywordAt (by decide) before c r t ht,
    endsAtBlank_isKeywordAt (by decide) before c r t ht]

theorem skips_connectiveAt {s : List Char} (hs : start.after s = start)
    (hand : hasKeyword "AND" s = false) (hor : hasKeyword "OR" s = false) : connectiveAt.Skips s := by
  refine ⟨hs, Option.eq_none_iff_forall_not_mem.mpr fun cut hcut => ?_⟩
  obtain ⟨a, b, hsplit, c, t, rfl, htop, hpass⟩ :=
    isSome_firstCut?_iff.mp (Option.isSome_of_mem hcut)
  rcases Bool.or_eq_true_iff.mp hpass with hat | hat
  · have h := hasKeyword_iff.mpr ⟨a, c :: t, hsplit, c, t, rfl, htop, hat⟩
    rw [hand] at h
    cases h
  · have h := hasKeyword_iff.mpr ⟨a, c :: t, hsplit, c, t, rfl, htop, hat⟩
    rw [hor] at h
    cases h

/-- A keyword between blanks is seen behind every closed text. -/
theorem hasKeyword_spaced {w : String} (hw : IsKeyword w) {s : List Char} (hs : start.after s = start)
    (k : Cased w) (r : List Char) : hasKeyword w (s ++ ' ' :: (k.text ++ ' ' :: r)) = true := by
  cases hcut : firstCut? (isKeywordAt w) s with
  | none =>
    have hskips : (isKeywordAt w).Skips s := ⟨hs, hcut⟩
    have hfound := hskips.cutAtKeyword?_eq hw k r
    rw [cutAtKeyword?, Option.map_eq_some_iff] at hfound
    obtain ⟨cut, hcut, -⟩ := hfound
    rw [hasKeyword, hcut]
    rfl
  | some cut =>
    have hends := endsAtBlank_isKeywordAt hw
    rw [hasKeyword, firstCut?_append (fun before c r' => hends before c r' _
      (by rintro d ⟨⟩; decide)) hcut]
    rfl

/-- A text between two connectives of a clause. -/
inductive Piece where
  /-- A text without connectives and without `BETWEEN`. -/
  | plain (text : List Char) (skipped : connectiveAt.Skips text)
      (unbounded : hasKeyword "BETWEEN" text = false)
  /-- `text AND bound`, with a `BETWEEN` in the text. -/
  | bounded (text : List Char) (skipped : connectiveAt.Skips text)
      (between : hasKeyword "BETWEEN" text = true) (word : Cased "AND") (bound : List Char)
      (skipped_bound : connectiveAt.Skips bound)

namespace Piece

def text : Piece → List Char
  | plain text _ _ => text
  | bounded text _ _ word bound _ => text ++ ' ' :: (word.text ++ ' ' :: bound)

/-- A blank behind a text hides none of its keywords and is none. -/
theorem hasKeyword_space {w : String} (hw : IsKeyword w) {s : List Char}
    (hs : start.after s = start) : hasKeyword w (s ++ [' ']) = hasKeyword w s := by
  have hends := endsAtBlank_isKeywordAt hw
  unfold hasKeyword
  cases hcut : firstCut? (isKeywordAt w) s with
  | none =>
    have hskips : (isKeywordAt w).Skips s := ⟨hs, hcut⟩
    rw [(hskips.append_blank (within_isKeywordAt hw) hends isBlank_space).firstCut?_eq]
  | some cut =>
    rw [firstCut?_append (fun before c r => hends before c r [' '] (by rintro d ⟨⟩; decide)) hcut]
    rfl

/-- The `AND` of a `BETWEEN` belongs to the condition before it. -/
theorem joinConditions_bound {s : List Char} (hs : hasKeyword "BETWEEN" s = true) (word : Cased "AND")
    (p : List Char) (ps : List (List Char)) :
    joinConditions s false ((word.text ++ ' ' :: p) :: ps) =
      joinConditions (s ++ (word.text ++ ' ' :: p)) true ps := by
  have hbound : ((Connective.and word).isAnd && !false && hasKeyword "BETWEEN" s) = true := by
    rw [hs]
    rfl
  exact (joinConditions_text (.and word) s false (' ' :: p) ps).trans (if_pos hbound)

/-- The parts of a text that begins with a skipped text and a connective. -/
theorem parts_connective {s : List Char} (hs : connectiveAt.Skips s) (k : Connective)
    (r : List Char) : ∃ p ps, parts connectiveAt r = p :: ps ∧
      parts connectiveAt (s ++ ' ' :: (k.text ++ ' ' :: r)) =
        (s ++ [' ']) :: (k.text ++ ' ' :: p) :: ps := by
  obtain ⟨p, ps, hp⟩ := List.exists_cons_of_ne_nil (parts_ne_nil connectiveAt r)
  have htail : (k.text ++ [' ']).foldr consHead (parts connectiveAt r) =
      (k.text ++ ' ' :: p) :: ps := by
    rw [hp, foldr_consHead, List.append_assoc, List.singleton_append]
  refine ⟨p, ps, hp, ?_⟩
  rw [← htail]
  cases k with
  | and word =>
    exact hs.parts_keyword within_connectiveAt endsAtBlank_connectiveAt (by decide)
      (fun rest h => by rw [connectiveAt, h, Bool.true_or]) word r
  | or word =>
    exact hs.parts_keyword within_connectiveAt endsAtBlank_connectiveAt (by decide)
      (fun rest h => by rw [connectiveAt, h, Bool.or_true]) word r

/-- A piece is one condition, unless it is blank. -/
theorem conditions_text (p : Piece) :
    conditions p.text = [trim p.text].filter (!·.isEmpty) := by
  cases p with
  | plain s hs hbetween =>
    rw [text, conditions_eq hs.parts_eq, joinConditions, List.map_singleton]
  | bounded s hs hbetween word bound hbound =>
    obtain ⟨p, ps, hp, hparts⟩ := parts_connective hs (.and word) bound
    rw [hbound.parts_eq] at hp
    obtain ⟨rfl, rfl⟩ := List.cons.inj hp
    rw [Connective.text] at hparts
    rw [← hasKeyword_space (by decide) hs.closed] at hbetween
    rw [text, conditions_eq hparts, joinConditions_bound hbetween, joinConditions,
      List.map_singleton]
    simp

/-- What follows a piece and a connective does not change the condition that the piece is. -/
theorem conditions_append (p : Piece) (k : Connective) (r : List Char) :
    conditions (p.text ++ ' ' :: (k.text ++ ' ' :: r)) = conditions p.text ++ conditions r := by
  rw [conditions_text]
  cases p with
  | plain s hs hbetween =>
    obtain ⟨q, qs, hq, hparts⟩ := parts_connective hs k r
    rw [← hasKeyword_space (by decide) hs.closed] at hbetween
    rw [text, conditions_eq hparts, joinConditions_cut k (.inr hbetween), List.map_cons,
      trim_append_blank isBlank_space, trim_joinConditions (by decide), ← List.singleton_append,
      List.filter_append, ← conditions_eq hq]
  | bounded s hs hbetween word bound hbound =>
    obtain ⟨q, qs, hq, hlater⟩ := parts_connective hbound k r
    obtain ⟨p, ps, hp, hparts⟩ :=
      parts_connective hs (.and word) (bound ++ ' ' :: (k.text ++ ' ' :: r))
    rw [hlater] at hp
    obtain ⟨rfl, rfl⟩ := List.cons.inj hp
    have hshape : text (bounded s hs hbetween word bound hbound) ++ ' ' :: (k.text ++ ' ' :: r) =
        s ++ ' ' :: (word.text ++ ' ' :: (bound ++ ' ' :: (k.text ++ ' ' :: r))) := by
      simp [text]
    have htrim : trim (s ++ [' '] ++ (word.text ++ ' ' :: (bound ++ [' ']))) =
        trim (text (bounded s hs hbetween word bound hbound)) := by
      rw [← trim_append_blank isBlank_space (text _)]
      simp [text]
    rw [← hasKeyword_space (by decide) hs.closed] at hbetween
    rw [Connective.text] at hparts
    rw [hshape, conditions_eq hparts, joinConditions_bound hbetween,
      joinConditions_cut k (.inl rfl), List.map_cons, htrim, trim_joinConditions (by decide),
      ← List.singleton_append, List.filter_append, ← conditions_eq hq]

theorem clauseMentions_append (p : Piece) (k : Connective) (r : List Char) :
    clauseMentions (p.text ++ ' ' :: (k.text ++ ' ' :: r)) =
      clauseMentions p.text ++ clauseMentions r := by
  rw [clauseMentions_eq, p.conditions_append, List.flatMap_append, ← clauseMentions_eq,
    ← clauseMentions_eq]

/-- Pieces with the connectives behind them. -/
def lead (ps : List (Piece × Connective)) : List Char :=
  ps.flatMap fun (p, k) => p.text ++ ' ' :: (k.text ++ [' '])

/-- Pieces in front of a clause mention what each of them mentions. -/
theorem clauseMentions_lead (ps : List (Piece × Connective)) (r : List Char) :
    clauseMentions (lead ps ++ r) =
      (ps.flatMap fun p => clauseMentions p.1.text) ++ clauseMentions r := by
  induction ps with
  | nil => rfl
  | cons p ps ih =>
    have hshape : lead (p :: ps) ++ r = p.1.text ++ ' ' :: (p.2.text ++ ' ' :: (lead ps ++ r)) := by
      simp [lead]
    rw [hshape, clauseMentions_append, ih, List.flatMap_cons, List.append_assoc]

end Piece

end SchemaLint.Sql
