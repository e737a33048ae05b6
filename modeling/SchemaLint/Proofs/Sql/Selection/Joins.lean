import SchemaLint.Proofs.Sql.Selection
import SchemaLint.Sql.Shape

/-!
# Joins and their conditions

The check of joins looks at the last two words in front of each `JOIN` and at the text up to the
next one. In a statement of the grammar it finds the condition of a join wherever there is one, and
it complains about the `NATURAL` joins whose last two words do not say so
(`joinLacksCondition_joins`).
-/

namespace SchemaLint.Sql

open Text

section Joins

variable {ws : List String} {us : List Token}

/-- Words that are written with blanks in front of each are the last words of a text. -/
theorem words_spacedWords (h : Written (spacedWords ws ++ [.gap]) us) (x : List Char) :
    (words (x ++ textOf us)).map lower = (words x).map lower ++ ws.map (lower ·.toList) := by
  induction ws generalizing us x with
  | nil =>
    obtain ⟨us, vs, rfl, hblank, hvs⟩ := h.of_gap
    cases hvs
    rw [List.append_nil, words_append_blank (isBlank_textOf hblank), List.map_nil, List.append_nil]
  | cons w ws ih =>
    have h : Written (.space :: .keyword w :: (spacedWords ws ++ [.gap])) us := h
    obtain ⟨gap, vs, rfl, hne, hblank, hvs⟩ := h.of_space
    obtain ⟨hw, k, vs, rfl, hlater⟩ := hvs.of_keyword
    have hk : words k.text = [k.text] :=
      words_of_forall (k.text_ne_nil hw) (not_isBlank_keyword hw k)
    have hwords := ih hlater (x ++ (textOf gap ++ k.text))
    rw [words_append_spaced (textOf_ne_nil hne) (isBlank_textOf hblank), hk, List.map_append,
      List.map_singleton, k.lower_eq, List.append_assoc] at hwords
    rw [textOf_append, textOf_cons, ← List.append_assoc (textOf gap), List.map_cons,
      List.append_cons]
    exact hwords

theorem endsUnconditional_eq (before : List Char) : endsUnconditional before =
    (((words before).map lower).reverse.take 2).any fun w =>
      w == lower "NATURAL".toList || w == lower "CROSS".toList := by
  rw [endsUnconditional, ← List.map_reverse, ← List.map_take, List.any_map]
  rfl

/-- A `NATURAL` or `CROSS` join is seen to need no condition unless it is misread. -/
theorem endsUnconditional_lead {j : Join} (h : Written j.lead us) (x : List Char)
    (hj : ∀ kind table condition, j ≠ .conditional kind table condition) :
    endsUnconditional (x ++ textOf us) = !j.isMisread := by
  cases j with
  | conditional kind table condition => exact absurd rfl (hj kind table condition)
  | cross table condition =>
    rw [endsUnconditional_eq, words_spacedWords h, List.reverse_append]
    rfl
  | natural kind table =>
    rw [endsUnconditional_eq, words_spacedWords h, List.reverse_append]
    rcases kind with (_ | _) | ⟨_ | _, _ | _⟩
    all_goals rfl

/-- Of the joins of a statement the check complains about the misread ones. -/
theorem joinLacks_eq {j : Join} {vs q : List Token} {hw : IsKeyword "JOIN"} {k : Cased "JOIN"}
    (hlead : Written j.lead us) (hrest : Written j.rest vs)
    (hsep : Separate (keywordToken hw k :: (vs ++ q)))
    (hq : ∀ w ∈ ["ON", "USING"], ∀ t ∈ q, t.shows w = false) (x : List Char) :
    (!endsUnconditional (x ++ textOf us) &&
      !hasKeyword "ON" (textOf (keywordToken hw k :: (vs ++ q))) &&
      !hasKeyword "USING" (textOf (keywordToken hw k :: (vs ++ q)))) = j.isMisread := by
  cases j with
  | conditional kind table condition =>
    -- The word in front of the condition is found behind the `JOIN`.
    have hmem : .keyword condition.kind.word ∈ (Join.conditional kind table condition).rest := by
      simp [Join.rest, JoinCondition.items]
    obtain ⟨hv, k', hk'⟩ := hrest.exists_mem_keyword hmem
    have hfound : hasKeyword condition.kind.word (textOf (keywordToken hw k :: (vs ++ q))) = true :=
      hasKeyword_of_mem hsep (List.mem_cons_of_mem _ (List.mem_append_left q hk'))
    cases hkind : condition.kind with
    | expression =>
      rw [hkind] at hfound
      rw [show hasKeyword "ON" _ = true from hfound, Bool.not_true, Bool.and_false, Bool.false_and]
      rfl
    | columns =>
      rw [hkind] at hfound
      rw [show hasKeyword "USING" _ = true from hfound, Bool.not_true, Bool.and_false]
      rfl
  | cross table condition =>
    rw [endsUnconditional_lead hlead x (by simp)]
    rfl
  | natural kind table =>
    have hfree : ∀ w ∈ ["ON", "USING"],
        hasKeyword w (textOf (keywordToken hw k :: (vs ++ q))) = false := by
      intro w hmem
      have hwords : ∀ w ∈ ["ON", "USING"], w ∈ reserved ∧ IsKeyword w ∧
          sameIgnoringCase w.toList "JOIN".toList = false := by decide
      obtain ⟨hreserved, hv, hjoin⟩ := hwords w hmem
      refine hasKeyword_of_free hv hsep fun t ht => ?_
      rcases List.mem_cons.mp ht with rfl | ht
      · rw [Token.shows_keywordToken, hjoin]
      · rcases List.mem_append.mp ht with ht | ht
        · exact hrest.free hreserved rfl t ht
        · exact hq w hmem t ht
    rw [hfree "ON" (by simp), hfree "USING" (by simp), endsUnconditional_lead hlead x (by simp)]
    simp

/-- The joins of a statement are judged one by one. What stands in front of a `JOIN` belongs to the
part before it, and has no condition of a join. -/
theorem joinLacksCondition_joins {joins : List Join} {is : List Item} {vs : List Token}
    (h : Written (joins.flatMap Join.items ++ is) vs) (hsep : Separate (us ++ vs))
    (hus : ∀ t ∈ us, t.shows "JOIN" = false)
    (his : ∀ w ∈ ["JOIN", "ON", "USING"], is.any (Item.shows w) = false) :
    ∃ q z ps, vs = q ++ z ∧
      parts (isKeywordAt "JOIN") (textOf (us ++ vs)) = textOf (us ++ q) :: ps ∧
      (∀ w ∈ ["ON", "USING"], ∀ t ∈ q, t.shows w = false) ∧
      ∀ x, joinLacksCondition (x ++ textOf (us ++ q)) ps = joins.any Join.isMisread := by
  have hreserved : ∀ w ∈ ["JOIN", "ON", "USING"], w ∈ reserved := by decide
  -- Behind the `JOIN` of the first join the others are read with its own table in front of them.
  induction joins generalizing us vs with
  | nil =>
    have hfree : ∀ w ∈ ["JOIN", "ON", "USING"], ∀ t ∈ vs, t.shows w = false :=
      fun w hw => h.free (hreserved w hw) (his w hw)
    refine ⟨vs, [], [], (List.append_nil vs).symm, ?_, fun w hw => ?_, fun x => rfl⟩
    · refine parts_of_free (by decide) hsep fun t ht => ?_
      rcases List.mem_append.mp ht with ht | ht
      · exact hus t ht
      · exact hfree "JOIN" (by simp) t ht
    · exact hfree w (List.mem_cons_of_mem _ hw)
  | cons j joins ih =>
    have h : Written (j.lead ++ .keyword "JOIN" ::
        (j.rest ++ (joins.flatMap Join.items ++ is))) vs := by
      simpa [Join.items] using h
    obtain ⟨ls, ts, rfl, hlead, hts⟩ := h.split
    obtain ⟨hw, k, bs, rfl, hbs⟩ := hts.of_keyword
    obtain ⟨rs, vs, rfl, hrest, hvs⟩ := hbs.split
    have hls : ∀ w ∈ reserved, ∀ t ∈ ls, t.shows w = false :=
      fun w hw => hlead.free hw (j.lead_free w hw)
    have hrs : ∀ t ∈ rs, t.shows "JOIN" = false :=
      hrest.free (by decide) (j.rest_free "JOIN" (by decide))
    have hsep' : Separate (us ++ ls ++ keywordToken hw k :: (rs ++ vs)) := by
      rwa [List.append_assoc]
    have hlater : Separate (keywordToken hw k :: (rs ++ vs)) := hsep'.right
    obtain ⟨q, z, ps, rfl, hparts, hq, hps⟩ := ih hvs hlater.tail hrs
    refine ⟨ls, _, (k.text ++ textOf (rs ++ q)) :: ps, rfl, ?_, ?_, fun x => ?_⟩
    · have hfree : ∀ t ∈ us ++ ls, t.shows "JOIN" = false := by
        intro t ht
        rcases List.mem_append.mp ht with ht | ht
        · exact hus t ht
        · exact hls "JOIN" (by decide) t ht
      rw [← List.append_assoc us, parts_keyword hsep' hfree, hparts, foldr_consHead]
    · exact fun w hw => hls w (hreserved w (List.mem_cons_of_mem _ hw))
    · have hhead : Separate (keywordToken hw k :: (rs ++ q)) := by
        rw [← List.append_assoc, ← List.cons_append] at hlater
        exact hlater.left
      have hhere := joinLacks_eq hlead hrest hhead hq (x ++ textOf us)
      have hthere := hps (x ++ textOf (us ++ ls) ++ k.text)
      rw [List.append_assoc _ k.text] at hthere
      rw [List.append_assoc, ← textOf_append] at hhere
      rw [joinLacksCondition, hthere, List.any_cons, ← hhere]
      rfl

end Joins

end SchemaLint.Sql
