import SchemaLint.Proofs.Slicing.Scan
import SchemaLint.Proofs.Sql.Joined
import SchemaLint.Sql.Shape

/-!
# Reading SQL statements by byte offsets

The readers of statements, clauses and lists of values, and the checks of shape, on texts that are cut
at byte offsets.

Most of them cut a text at one keyword, bracket or separator. A clause is cut at all its connectives,
which are looked up word by word and then sorted; that gives what one pass over the clause gives
(`cuts?_eq`). The next condition begins behind a connective, and the next connective no earlier, since
none begins inside of a word (`connectives_cases`, `conditionsFrom?_eq`). A group is shorter than the
clause it stands in, so a bound on the nesting that is behind the length of the clause is never met.
-/

namespace SchemaLint.Slicing.Sql

open SchemaLint.Sql Nesting Text

/-! ## Names and values -/

def fieldName? (raw : List Char) : Option String := do
  return String.ofList (Identifier.unqualified (← normalize? (words raw).flatten))

def targetName? (table : List Char) : Option String := do
  return String.ofList (← normalize? table)

def setMentions? (list : List Char) : Option (List Mention) := do
  (← splitTop? ',' list).filterMapM fun item =>
    match findTop? '=' item with
    | none => some none
    | some k => do
      let column ← fieldName? (← slice? item 0 k)
      return some (valueMention column (← slice? item (k + 1) (utf8Length item)))

def rowMention? (columns : List String) (row : List Char) : Option (List Mention) :=
  match inParentheses? row with
  | some values => do
    return (columns.zip (← splitTop? ',' values)).map fun (c, v) => valueMention c v
  | none => some []

def rowMentions? (columns : List String) (rows : List Char) : Option (List Mention) := do
  return (← (← splitTop? ',' rows).mapM (rowMention? columns)).flatten

/-- Where the rows of an `INSERT` begin. -/
def valuesOffset? (s : List Char) : Option (Option Nat) := do
  match ← firstKeyword? "VALUES" s with
  | some k => return some (k + utf8Length "VALUES".toList)
  | none => return (← firstKeyword? "VALUE" s).map (· + utf8Length "VALUE".toList)

def insertMentions? (body : List Char) : Option (List Mention) :=
  let body := trimStart body
  if body.head? == some '(' then
    match partnerOffset? body 0 with
    | none => some []
    | some close => do
      let columns ← (← splitTop? ',' (← slice? body 1 close)).mapM fieldName?
      let rest ← slice? body (close + 1) (utf8Length body)
      match ← valuesOffset? rest with
      | none => return columns.map .touch
      | some k =>
        return columns.map .touch ++ (← rowMentions? columns (← slice? rest k (utf8Length rest)))
  else do
    match ← firstKeyword? "SET" body with
    | none => return []
    | some k => setMentions? (← slice? body (k + utf8Length "SET".toList) (utf8Length body))

theorem fieldName?_eq (raw : List Char) : fieldName? raw = some (fieldName raw) := by
  rw [fieldName?, normalize?_eq]
  rfl

theorem targetName?_eq (table : List Char) : targetName? table = some (targetName table) := by
  rw [targetName?, normalize?_eq]
  rfl

theorem setMentions?_eq (list : List Char) : setMentions? list = some (setMentions list) := by
  rw [setMentions?, splitTop?_eq]
  refine filterMapM_eq_some fun item _ => ?_
  rcases findTop?_cases '=' item with ⟨hcut, hfind⟩ | ⟨column, value, rfl, hcut, hfind⟩
  · rw [hcut, hfind]
    rfl
  · rw [hcut, hfind]
    dsimp only [Option.bind_eq_bind]
    rw [slice?_front, slice?_behind_char column rfl value, Option.bind_some, fieldName?_eq]
    rfl

theorem rowMention?_eq (columns : List String) (row : List Char) :
    rowMention? columns row = some (match inParentheses? row with
      | some values => (columns.zip (splitTop ',' values)).map fun (c, v) => valueMention c v
      | none => []) := by
  rw [rowMention?]
  cases inParentheses? row with
  | none => rfl
  | some values =>
    dsimp only
    rw [splitTop?_eq]
    rfl

theorem rowMentions?_eq (columns : List String) (rows : List Char) :
    rowMentions? columns rows = some (rowMentions columns rows) := by
  rw [rowMentions?, splitTop?_eq, Option.bind_eq_bind, Option.bind_some,
    mapM_eq_some fun row _ => rowMention?_eq columns row]
  rfl

theorem valuesOffset?_cases (s : List Char) :
    (afterValues? s = none ∧ valuesOffset? s = some none) ∨
    ∃ x y, s = x ++ y ∧ afterValues? s = some y ∧ valuesOffset? s = some (some (utf8Length x)) := by
  unfold afterValues? valuesOffset?
  rcases firstKeyword?_cases "VALUES" s with ⟨hcut, hfirst⟩ | ⟨x, v, y, rfl, hv, hcut, hfirst⟩
  · rw [hcut, hfirst]
    rcases firstKeyword?_cases "VALUE" s with ⟨hcut, hfirst⟩ | ⟨x, v, y, rfl, hv, hcut, hfirst⟩
    · exact .inl ⟨by rw [hcut]; rfl, by simp [hfirst]⟩
    · refine .inr ⟨x ++ v, y, (List.append_assoc x v y).symm, by rw [hcut]; rfl, ?_⟩
      simp [hfirst, utf8Length_append, hv]
  · refine .inr ⟨x ++ v, y, (List.append_assoc x v y).symm, by rw [hcut]; rfl, ?_⟩
    simp [hfirst, utf8Length_append, hv]

theorem insertMentions?_eq (body : List Char) : insertMentions? body = some (insertMentions body) := by
  rw [insertMentions?, insertMentions]
  generalize trimStart body = body
  dsimp only
  split
  · rcases partnerOffset?_cases body with ⟨hcut, hpartner⟩ | ⟨o, x, c, y, rfl, ho, hc, hcut, hpartner⟩
    · rw [hcut, hpartner]
    · have hcolumns : slice? (o :: (x ++ c :: y)) 1 (1 + utf8Length x) = some x :=
        slice?_inside [] (utf8Size_of_isOpener ho) x (c :: y)
      have hrest : slice? (o :: (x ++ c :: y)) (1 + utf8Length x + 1)
          (utf8Length (o :: (x ++ c :: y))) = some y := by
        have h := slice?_behind_char (o :: x) (utf8Size_of_isCloser hc) y
        rwa [utf8Length, utf8Size_of_isOpener ho] at h
      rw [hcut, hpartner]
      dsimp only [Option.bind_eq_bind]
      rw [hcolumns, Option.bind_some, splitTop?_eq, Option.bind_some,
        mapM_eq_some fun column _ => fieldName?_eq column, Option.bind_some, hrest, Option.bind_some,
        List.drop_one, List.tail_cons]
      rcases valuesOffset?_cases y with ⟨hafter, hoffset⟩ | ⟨x, y, rfl, hafter, hoffset⟩
      · rw [hafter, hoffset]
        simp
      · rw [hafter, hoffset]
        dsimp only [Option.bind_some]
        rw [slice?_back, Option.bind_some, rowMentions?_eq]
        rfl
  · rcases firstKeyword?_cases "SET" body with ⟨hcut, hfirst⟩ | ⟨x, v, y, rfl, hv, hcut, hfirst⟩
    · rw [hcut, hfirst]
      rfl
    · rw [hcut, hfirst]
      dsimp only [Option.bind_eq_bind, Option.bind_some]
      rw [slice?_behind x hv, Option.bind_some, setMentions?_eq]
      rfl

/-! ## The cut at `WHERE` -/

def cutAtWhere? (body : List Char) : Option (List Char × Option (List Char)) := do
  match ← firstKeyword? "WHERE" body with
  | none => return (body, none)
  | some k =>
    let clause ← slice? body (k + utf8Length "WHERE".toList) (utf8Length body)
    let ends ← clauseEnds.filterMapM (firstKeyword? · clause)
    let clause ← slice? clause 0 (ends.min?.getD (utf8Length clause))
    return (← slice? body 0 k, some (trim clause))

section AnyKeyword

variable {ws : List String} {s x y : List Char}

theorem passes_any_iff :
    start.Passes none (fun before rest => ws.any fun w => isKeywordAt w before rest) x y ↔
      ∃ w ∈ ws, Stands w x y := by
  simp only [Stands, Passes, List.any_eq_true]
  constructor
  · rintro ⟨c, t, h, htop, w, hw, hat⟩
    exact ⟨w, hw, c, t, h, htop, hat⟩
  · rintro ⟨w, hw, c, t, h, htop, hat⟩
    exact ⟨c, t, h, htop, w, hw, hat⟩

/-- No place that passes is in front of the first one. -/
theorem utf8Length_le_of_passes {test : PlaceTest} {a b : List Char}
    (hfirst : firstCut? test s = some (x, y)) (hs : s = a ++ b) (hpass : start.Passes none test a b) :
    utf8Length x ≤ utf8Length a := by
  obtain ⟨rfl, -, hclear⟩ := firstCut?_eq_some_iff.mp hfirst
  rcases List.append_eq_append_iff.mp hs with ⟨z, rfl, -⟩ | ⟨z, rfl, rfl⟩
  · rw [utf8Length_append]
    exact Nat.le_add_right _ _
  · by_cases hz : z = []
    · rw [hz, List.append_nil]
    · exact absurd hpass (hclear a z rfl hz)

/-- The least of the first offsets of some keywords is the first offset of any of them. -/
theorem min?_firstKeywords (ws : List String) (s : List Char) :
    (ws.filterMap fun w => (firstCut? (isKeywordAt w) s).map fun (x, _) => utf8Length x).min? =
      (firstCut? (fun before rest => ws.any fun w => isKeywordAt w before rest) s).map
        fun (x, _) => utf8Length x := by
  cases hcut : firstCut? (fun before rest => ws.any fun w => isKeywordAt w before rest) s with
  | none =>
    have hclear := firstCut?_eq_none_iff.mp hcut
    have hnone : ∀ w ∈ ws, firstCut? (isKeywordAt w) s = none := fun w hw =>
      firstCut?_eq_none_iff.mpr fun a b hs hb hstands =>
        hclear a b hs hb (passes_any_iff.mpr ⟨w, hw, hstands⟩)
    have hnil : (ws.filterMap fun w => (firstCut? (isKeywordAt w) s).map
        fun (x, _) => utf8Length x) = [] :=
      List.filterMap_eq_nil_iff.mpr fun w hw => by rw [hnone w hw]; rfl
    rw [hnil]
    rfl
  | some cut =>
    obtain ⟨x, y⟩ := cut
    obtain ⟨hs, hpass, hclear⟩ := firstCut?_eq_some_iff.mp hcut
    rw [Option.map_some, List.min?_eq_some_iff]
    constructor
    · obtain ⟨w, hw, hstands⟩ := passes_any_iff.mp hpass
      have hfirst : firstCut? (isKeywordAt w) s = some (x, y) :=
        firstCut?_eq_some_iff.mpr ⟨hs, hstands, fun a b hx hb hat =>
          hclear a b hx hb (passes_any_iff.mpr ⟨w, hw, hat⟩)⟩
      exact List.mem_filterMap.mpr ⟨w, hw, by rw [hfirst]; rfl⟩
    · intro k hk
      obtain ⟨w, hw, hk⟩ := List.mem_filterMap.mp hk
      obtain ⟨⟨a, b⟩, hfirst, rfl⟩ := Option.map_eq_some_iff.mp hk
      obtain ⟨hs', hstands, -⟩ := firstCut?_eq_some_iff.mp hfirst
      exact utf8Length_le_of_passes hcut hs' (passes_any_iff.mpr ⟨w, hw, hstands⟩)

end AnyKeyword

theorem cutAtWhere?_eq (body : List Char) : cutAtWhere? body = some (cutAtWhere body) := by
  unfold cutAtWhere? cutAtWhere
  rcases firstKeyword?_cases "WHERE" body with ⟨hcut, hfirst⟩ | ⟨x, v, y, rfl, hv, hcut, hfirst⟩
  · rw [hcut, hfirst]
    rfl
  · rw [hcut, hfirst]
    dsimp only [Option.bind_eq_bind, Option.bind_some]
    rw [slice?_behind x hv, Option.bind_some,
      filterMapM_eq_some fun w _ => firstKeyword?_eq w y, Option.bind_some, min?_firstKeywords,
      slice?_front]
    cases hend : firstCut? (fun before rest => clauseEnds.any fun w => isKeywordAt w before rest) y with
    | none =>
      dsimp only [Option.map_none, Option.getD_none]
      rw [slice?_whole]
      rfl
    | some cut =>
      obtain ⟨clause, r⟩ := cut
      obtain ⟨rfl, -⟩ := firstCut?_eq_some_iff.mp hend
      dsimp only [Option.map_some, Option.getD_some]
      rw [slice?_front]
      rfl

/-! ## Connectives -/

/-- The order of cuts: by offset, then by length. -/
def precedes (a b : Nat × Nat) : Bool :=
  decide (a.1 < b.1 ∨ a.1 = b.1 ∧ a.2 ≤ b.2)

/-- Where the connectives of a clause begin and how long they are, in order. -/
def cuts? (clause : List Char) : Option (List (Nat × Nat)) := do
  let ands ← keywordOffsets? "AND" clause
  let ors ← keywordOffsets? "OR" clause
  let cuts := ands.map (·, utf8Length "AND".toList) ++ ors.map (·, utf8Length "OR".toList)
  return cuts.mergeSort precedes

/-- The connectives of a text in one pass, for a reader who stands at a byte offset. -/
def connectives (n : Nesting) (before : Option Char) (offset : Nat) : List Char → List (Nat × Nat)
  | [] => []
  | c :: s =>
    let later := connectives (n.next c) (some c) (offset + c.utf8Size) s
    if (n.mark c).isTop && isKeywordAt "AND" before (c :: s) then
      (offset, utf8Length "AND".toList) :: later
    else if (n.mark c).isTop && isKeywordAt "OR" before (c :: s) then
      (offset, utf8Length "OR".toList) :: later
    else later

section Connectives

variable {n : Nesting} {before : Option Char} {offset : Nat} {s x y : List Char}

theorem utf8Length_text (k : Connective) : utf8Length k.text =
    if k.isAnd then utf8Length "AND".toList else utf8Length "OR".toList := by
  cases k with
  | and word => exact utf8Length_of_lower_eq word.lower_eq
  | or word => exact utf8Length_of_lower_eq word.lower_eq

/-- One place does not hold both connectives. -/
theorem isKeywordAt_and_of_or (h : isKeywordAt "OR" before s = true) :
    isKeywordAt "AND" before s = false := by
  obtain ⟨v, r, rfl, hv, -⟩ := exists_of_isKeywordAt h
  rw [Bool.eq_false_iff]
  intro hand
  obtain ⟨v', r', hs, hv', -⟩ := exists_of_isKeywordAt hand
  have hor := Connective.startsIgnoringCase_text (.or ⟨v, hv⟩) r
  rw [Connective.text, hs] at hor
  exact absurd (hor.symm.trans (Connective.startsIgnoringCase_text (.and ⟨v', hv'⟩) r')) Bool.false_ne_true

theorem exists_of_connectiveAt (h : connectiveAt before s = true) :
    ∃ (k : Connective) (r : List Char), s = k.text ++ r ∧ isKeywordAt "AND" before s = k.isAnd := by
  rcases Bool.or_eq_true_iff.mp h with hand | hor
  · obtain ⟨v, r, hs, hv, -⟩ := exists_of_isKeywordAt hand
    exact ⟨.and ⟨v, hv⟩, r, hs, hand⟩
  · obtain ⟨v, r, hs, hv, -⟩ := exists_of_isKeywordAt hor
    exact ⟨.or ⟨v, hv⟩, r, hs, isKeywordAt_and_of_or hor⟩

theorem le_of_mem_connectives {a : Nat × Nat} (h : a ∈ connectives n before offset s) :
    offset ≤ a.1 := by
  induction s generalizing n before offset with
  | nil => cases h
  | cons c s ih =>
    have hlater : a ∈ connectives (n.next c) (some c) (offset + c.utf8Size) s → offset ≤ a.1 :=
      fun h => Nat.le_of_add_right_le (ih h)
    rw [connectives] at h
    split at h
    · rcases List.mem_cons.mp h with rfl | h
      · exact Nat.le_refl offset
      · exact hlater h
    · split at h
      · rcases List.mem_cons.mp h with rfl | h
        · exact Nat.le_refl offset
        · exact hlater h
      · exact hlater h

theorem pairwise_connectives : (connectives n before offset s).Pairwise fun a b => a.1 < b.1 := by
  induction s generalizing n before offset with
  | nil => exact List.Pairwise.nil
  | cons c s ih =>
    have hlater : ∀ a ∈ connectives (n.next c) (some c) (offset + c.utf8Size) s, offset < a.1 :=
      fun a ha => Nat.lt_of_lt_of_le (Nat.lt_add_of_pos_right c.utf8Size_pos) (le_of_mem_connectives ha)
    rw [connectives]
    split
    · exact List.pairwise_cons.mpr ⟨hlater, ih⟩
    · split
      · exact List.pairwise_cons.mpr ⟨hlater, ih⟩
      · exact ih

theorem perm_connectives :
    ((partOffsets offset (n.parts (isKeywordAt "AND") before s)).map (·, utf8Length "AND".toList) ++
      (partOffsets offset (n.parts (isKeywordAt "OR") before s)).map (·, utf8Length "OR".toList)).Perm
      (connectives n before offset s) := by
  induction s generalizing n before offset with
  | nil => exact List.Perm.refl []
  | cons c s ih =>
    rw [partOffsets_parts_cons, partOffsets_parts_cons, connectives]
    cases htop : (n.mark c).isTop with
    | false => simpa using ih
    | true =>
      -- An `OR` here is behind all offsets of `AND` in the one list and in front of them in the other.
      cases hor : isKeywordAt "OR" before (c :: s) with
      | true =>
        rw [isKeywordAt_and_of_or hor]
        exact List.perm_middle.trans (ih.cons _)
      | false =>
        cases hand : isKeywordAt "AND" before (c :: s) with
        | true => exact ih.cons _
        | false => exact ih

theorem cuts?_eq (clause : List Char) : cuts? clause = some (connectives start none 0 clause) := by
  set cuts := (keywordOffsets "AND" clause).map (·, utf8Length "AND".toList) ++
    (keywordOffsets "OR" clause).map (·, utf8Length "OR".toList) with hcuts
  have hperm : (cuts.mergeSort precedes).Perm (connectives start none 0 clause) :=
    (List.mergeSort_perm cuts precedes).trans perm_connectives
  have hsorted : (cuts.mergeSort precedes).Pairwise fun a b => precedes a b = true :=
    List.pairwise_mergeSort (by simp [precedes]; omega) (by simp [precedes]; omega) cuts
  have hconnectives : (connectives start none 0 clause).Pairwise fun a b => precedes a b = true :=
    pairwise_connectives.imp fun h => decide_eq_true (.inl h)
  have heq : cuts.mergeSort precedes = connectives start none 0 clause := by
    refine hperm.eq_of_pairwise ?_ hsorted hconnectives
    rintro ⟨k, length⟩ ⟨k', length'⟩ - - hle hge
    simp only [precedes, decide_eq_true_eq] at hle hge
    rw [Prod.mk.injEq]
    omega
  rw [cuts?, keywordOffsets?_eq, keywordOffsets?_eq, ← heq, hcuts]
  rfl

/-- Inside of a word no connective begins. -/
theorem clear_of_word {c : Char} {v : List Char} (hv : ∀ d ∈ c :: v, isIdentChar d = true) :
    n.Clear (some c) connectiveAt v y := by
  rintro a b rfl - ⟨d, t, -, -, hat⟩
  have hbefore : (a.getLast?.or (some c)).any isIdentChar = true := by
    cases hlast : a.getLast? with
    | none => exact hv c List.mem_cons_self
    | some e =>
      exact hv e (List.mem_cons_of_mem c (List.mem_append_left b (List.mem_of_getLast? hlast)))
  rw [connectiveAt, isKeywordAt, isKeywordAt, hbefore] at hat
  simp at hat

theorem connectives_append_of_clear (h : n.Clear before connectiveAt x y) :
    connectives n before offset (x ++ y) =
      connectives (n.after x) (x.getLast?.or before) (offset + utf8Length x) y := by
  induction x generalizing n before offset with
  | nil => rfl
  | cons c x ih =>
    obtain ⟨hhere, hlater⟩ := clear_cons.mp h
    have hnot : ∀ w, (w = "AND" ∨ w = "OR") →
        ((n.mark c).isTop && isKeywordAt w before (c :: (x ++ y))) = false := by
      intro w hw
      rw [Bool.eq_false_iff]
      intro hat
      obtain ⟨htop, hat⟩ := Bool.and_eq_true_iff.mp hat
      refine hhere (passes_here.mpr ⟨htop, ?_⟩)
      rcases hw with rfl | rfl
      · rw [connectiveAt, hat, Bool.true_or]
      · rw [connectiveAt, hat, Bool.or_true]
    rw [List.cons_append, connectives, hnot "AND" (.inl rfl), hnot "OR" (.inr rfl), ih hlater,
      after_cons, getLast?_cons_or, utf8Length, Nat.add_assoc]
    rfl

theorem connectives_here {c : Char} {k : Connective} (htop : (n.mark c).isTop = true)
    (hat : connectiveAt before (c :: s) = true) (hand : isKeywordAt "AND" before (c :: s) = k.isAnd) :
    connectives n before offset (c :: s) = (offset, utf8Length k.text) ::
      connectives (n.next c) (some c) (offset + c.utf8Size) s := by
  rw [connectiveAt, hand] at hat
  rw [connectives, htop, hand, utf8Length_text]
  cases hk : k.isAnd with
  | true => rfl
  | false =>
    rw [hk, Bool.false_or] at hat
    rw [hat]
    rfl

/-- A text has no connectives, or a first one and those behind it; its parts are cut there. -/
theorem connectives_cases (n : Nesting) (before : Option Char) (offset : Nat) (s : List Char) :
    (connectives n before offset s = [] ∧ n.parts connectiveAt before s = [s]) ∨
    ∃ (u : List Char) (k : Connective) (r : List Char) (m : Nesting) (last : Option Char),
      s = u ++ (k.text ++ r) ∧
      connectives n before offset s = (offset + utf8Length u, utf8Length k.text) ::
        connectives m last (offset + utf8Length u + utf8Length k.text) r ∧
      ∃ q qs, m.parts connectiveAt last r = q :: qs ∧
        n.parts connectiveAt before s = u :: (k.text ++ q) :: qs := by
  rcases exists_first n before connectiveAt s with
    hclear | ⟨u, y, rfl, ⟨c, t, rfl, htop, hat⟩, hclear⟩
  · left
    have hconnectives := @connectives_append_of_clear n before offset s [] hclear
    have hparts := parts_append_of_clear hclear
    rw [List.append_nil] at hconnectives hparts
    rw [hconnectives, hparts, Nesting.parts, foldr_consHead, List.append_nil]
    exact ⟨rfl, rfl⟩
  · right
    obtain ⟨k, r, hk, hand⟩ := exists_of_connectiveAt hat
    obtain ⟨d, v, hv⟩ := List.exists_cons_of_ne_nil k.text_ne_nil
    rw [hv, List.cons_append] at hk
    obtain ⟨rfl, rfl⟩ := List.cons.inj hk
    have hword : ((n.after u).next c).Clear (some c) connectiveAt v r :=
      clear_of_word (hv ▸ k.isIdentChar_of_mem)
    obtain ⟨q, qs, hq⟩ := List.exists_cons_of_ne_nil (parts_ne_nil_from connectiveAt
      (((n.after u).next c).after v) (v.getLast?.or (some c)) r)
    refine ⟨u, k, r, _, _, by rw [hv]; rfl, ?_, q, qs, hq, ?_⟩
    · rw [connectives_append_of_clear hclear, connectives_here htop hat hand,
        connectives_append_of_clear hword, hv, utf8Length, Nat.add_assoc _ c.utf8Size]
    · rw [parts_append_of_clear hclear, Nesting.parts, htop, hat, parts_append_of_clear hword, hq,
        foldr_consHead, hv]
      simp [consHead, foldr_consHead]

end Connectives

/-! ## Conditions -/

/-- Tells whether a connective of some length belongs to the condition in front of it. -/
def continues? (length : Nat) (bounded : Bool) (condition : List Char) : Option Bool :=
  if length == utf8Length "AND".toList && !bounded then
    (firstKeyword? "BETWEEN" condition).map (·.isSome)
  else some false

/-- The conditions of a clause that are still to come, when one has been begun at an offset. -/
def conditionsFrom? (clause : List Char) (first : Nat) (bounded : Bool) :
    List (Nat × Nat) → Option (List (List Char))
  | [] => do return [trim (← slice? clause first (utf8Length clause))]
  | (k, length) :: cuts => do
    let condition ← slice? clause first k
    if ← continues? length bounded condition then conditionsFrom? clause first true cuts
    else return trim condition :: (← conditionsFrom? clause (k + length) false cuts)

def conditions? (clause : List Char) : Option (List (List Char)) := do
  return (← conditionsFrom? clause 0 false (← cuts? clause)).filter (!·.isEmpty)

/-- Drops the words `NOT` at the start of a text, fewer than a given number. -/
def dropNots? : Nat → List Char → Option (List Char)
  | 0, _ => none
  | n + 1, s =>
    match slice? s 0 4 with
    | some head =>
      if sameIgnoringCase head ['n', 'o', 't', ' '] then do
        dropNots? n (trimStart (← slice? s 4 (utf8Length s)))
      else some s
    | none => some s

def isGroup? (s : List Char) : Option Bool :=
  if s.head? == some '(' then endsAtPartner? s else some false

def condition? (text : List Char) : Option (Option Condition) := do
  let s ← dropNots? (text.length + 1) (trim text)
  if ← isGroup? s then return some (.group (← inner? s))
  else return (Form.oneOf forms).read? s

section Conditions

variable {clause : List Char}

theorem continues?_eq (k : Connective) (bounded : Bool) (condition : List Char) :
    continues? (utf8Length k.text) bounded condition =
      some (k.isAnd && !bounded && hasKeyword "BETWEEN" condition) := by
  have hand : (utf8Length k.text == utf8Length "AND".toList) = k.isAnd := by
    rw [utf8Length_text]
    cases k.isAnd <;> rfl
  rw [continues?, hand, isSome_firstKeyword?]
  cases k.isAnd && !bounded <;> rfl

/-- The clause is what is cut off already, what belongs to the condition that has been begun, and the
rest. A connective ends where it is written to its end, so the next condition begins behind it. -/
theorem conditionsFrom?_eq {a b y : List Char} {n : Nesting} {before : Option Char} {bounded : Bool}
    {p : List Char} {ps : List (List Char)} (hs : clause = a ++ (b ++ y))
    (hparts : n.parts connectiveAt before y = p :: ps) :
    conditionsFrom? clause (utf8Length a) bounded
        (connectives n before (utf8Length a + utf8Length b) y) =
      some ((joinConditions (b ++ p) bounded ps).map trim) := by
  induction hy : y.length using Nat.strong_induction_on generalizing a b y n before bounded p ps with
  | _ size ih =>
    rcases connectives_cases n before (utf8Length a + utf8Length b) y with
      ⟨hnone, hwhole⟩ | ⟨u, k, r, m, last, rfl, hcut, q, qs, hq, hfirst⟩
    · rw [hwhole] at hparts
      obtain ⟨rfl, rfl⟩ := List.cons.inj hparts
      rw [hnone, conditionsFrom?, hs, slice?_back]
      rfl
    · rw [hfirst] at hparts
      obtain ⟨rfl, rfl⟩ := List.cons.inj hparts
      have hshorter : r.length < size := by
        have hpos := List.length_pos_of_ne_nil k.text_ne_nil
        simp only [List.length_append] at hy
        omega
      have hcondition : slice? clause (utf8Length a)
          (utf8Length a + utf8Length b + utf8Length u) = some (b ++ u) := by
        have h := slice?_append a (b ++ u) (k.text ++ r)
        rwa [utf8Length_append, ← Nat.add_assoc, List.append_assoc b, ← hs] at h
      rw [hcut, conditionsFrom?, hcondition]
      dsimp only [Option.bind_eq_bind, Option.bind_some]
      rw [continues?_eq, Option.bind_some, joinConditions_text]
      -- The connective belongs to the condition, or the next condition begins behind it.
      split
      · have hlater := @ih r.length hshorter a (b ++ u ++ k.text) r m last true q qs
          (by rw [hs]; simp) hq rfl
        rwa [utf8Length_append, utf8Length_append, ← Nat.add_assoc, ← Nat.add_assoc,
          List.append_assoc _ k.text] at hlater
      · have hlater := @ih r.length hshorter (a ++ b ++ u ++ k.text) [] r m last false q qs
          (by rw [hs]; simp) hq rfl
        rw [utf8Length_append, utf8Length_append, utf8Length_append, utf8Length, Nat.add_zero] at hlater
        rw [hlater]
        rfl

theorem conditions?_eq (clause : List Char) : conditions? clause = some (conditions clause) := by
  obtain ⟨p, ps, hparts⟩ := List.exists_cons_of_ne_nil (parts_ne_nil connectiveAt clause)
  have hfrom : conditionsFrom? clause 0 false (connectives start none 0 clause) =
      some ((joinConditions p false ps).map trim) :=
    conditionsFrom?_eq (a := []) (b := []) rfl hparts
  rw [conditions?, cuts?_eq, conditions_eq hparts]
  dsimp only [Option.bind_eq_bind, Option.bind_some]
  rw [hfrom]
  rfl

/-! ## Negations and groups -/

theorem dropNots?_eq {s : List Char} {n m : Nat} (hn : s.length < n) (hm : s.length ≤ m) :
    dropNots? n s = some (Condition.dropNots m s) := by
  induction n generalizing s m with
  | zero => exact absurd hn (Nat.not_lt_zero _)
  | succ n ih =>
    rw [dropNots?]
    rcases slice?_word [] s ['n', 'o', 't', ' '] with ⟨hslice, hstarts⟩ | ⟨v, y, rfl, hv, hslice⟩
    · have hnone : slice? s 0 4 = none := hslice
      rw [hnone, dropNots_of_not hstarts]
    · have hsome : slice? (v ++ y) 0 4 = some v := hslice
      have hstarts : startsIgnoringCase ['n', 'o', 't', ' '] (v ++ y) =
          sameIgnoringCase v ['n', 'o', 't', ' '] := startsIgnoringCase_append_of_length hv
      rw [hsome]
      dsimp only
      cases hsame : sameIgnoringCase v ['n', 'o', 't', ' '] with
      | false =>
        rw [hsame] at hstarts
        rw [dropNots_of_not hstarts]
        rfl
      | true =>
        have hlength : v.length = 4 := length_eq_of_lower (beq_iff_eq.mp hsame)
        have hback : slice? (v ++ y) 4 (utf8Length (v ++ y)) = some y := slice?_behind [] hv y
        have hy : (trimStart y).length ≤ y.length := (List.dropWhile_suffix _).length_le
        rw [List.length_append, hlength] at hn hm
        obtain ⟨m, rfl⟩ : ∃ k, m = k + 1 := ⟨m - 1, by omega⟩
        have hdrop : (v ++ y).drop 4 = y := by rw [← hlength, List.drop_left]
        rw [Condition.dropNots, hstarts, hsame, hback, hdrop]
        exact ih (by omega) (by omega)

theorem isGroup?_cases (s : List Char) :
    (isGroup? s = some true ∧ ∃ clause, inner? s = some clause ∧ Condition.group? s = some clause) ∨
    (isGroup? s = some false ∧ Condition.group? s = none) := by
  by_cases hhead : s.head? = some '('
  · have hne : s ≠ [] := by
      rintro rfl
      cases hhead
    rw [isGroup?, hhead, beq_self_eq_true, if_pos rfl]
    unfold Condition.group?
    rw [hhead]
    rcases endsAtPartner?_cases hne with ⟨hends, o, x, c, rfl, ho, hc, hcut⟩ | ⟨hends, hcut⟩
    · rw [hcut]
      exact .inl ⟨hends, x, inner?_eq (utf8Size_of_isOpener ho) (utf8Size_of_isCloser hc) x, rfl⟩
    · refine .inr ⟨hends, ?_⟩
      split
      · next clause c _ hpartner => exact absurd hpartner (hcut clause c)
      · rfl
  · refine .inr ⟨?_, group?_of_head hhead⟩
    rw [isGroup?, if_neg (by simpa using hhead)]

theorem condition?_eq (text : List Char) : condition? text = some (Condition.read? text) := by
  have htrim : (trim text).length ≤ text.length := (trim_isInfix text).length_le
  rw [condition?, dropNots?_eq (Nat.lt_succ_of_le htrim) htrim]
  dsimp only [Option.bind_eq_bind, Option.bind_some]
  unfold Condition.read?
  dsimp only
  rcases isGroup?_cases (Condition.dropNots text.length (trim text)) with
    ⟨hisGroup, clause, hinner, hgroup⟩ | ⟨hisGroup, hgroup⟩
  · rw [hisGroup, hgroup, Option.bind_some, if_pos rfl, hinner]
    rfl
  · rw [hisGroup, hgroup]
    rfl

end Conditions

/-! ## Mentions -/

def conditionMentions? (ofClause : List Char → Option (List Mention)) :
    Condition → Option (List Mention)
  | .group clause => ofClause clause
  | .isNull column => do return [.touch (← fieldName? column)]
  | .between column low high => do
    let field ← fieldName? column
    return [valueMention field low, valueMention field high]
  | .isIn column list => do
    let field ← fieldName? column
    match ← firstKeyword? "SELECT" list with
    | some _ => return [.touch field]
    | none => return .touch field :: (← splitTop? ',' list).map (valueMention field)
  | .compare column value => do return [valueMention (← fieldName? column) value]

def textMentions? (ofClause : List Char → Option (List Mention)) (text : List Char) :
    Option (List Mention) := do
  match ← condition? text with
  | some condition => conditionMentions? ofClause condition
  | none => return []

/-- What a clause mentions. Groups nested deeper than a bound are none. -/
def clauseMentionsTo? : Nat → List Char → Option (List Mention)
  | 0, _ => none
  | depth + 1, clause => do
    return (← (← conditions? clause).mapM (textMentions? (clauseMentionsTo? depth))).flatten

def clauseMentions? (clause : List Char) : Option (List Mention) :=
  clauseMentionsTo? (clause.length + 1) clause

def whereMentions? (clause : Option (List Char)) : Option (List Mention) :=
  match clause with
  | some clause => clauseMentions? clause
  | none => some []

section Mentions

variable {ofClause? : List Char → Option (List Mention)} {ofClause : List Char → List Mention}

theorem conditionMentions?_eq (condition : Condition)
    (h : ∀ clause, condition = .group clause → ofClause? clause = some (ofClause clause)) :
    conditionMentions? ofClause? condition = some (condition.mentions ofClause) := by
  cases condition with
  | group clause => exact h clause rfl
  | isNull column =>
    rw [conditionMentions?, fieldName?_eq]
    rfl
  | between column low high =>
    rw [conditionMentions?, fieldName?_eq]
    rfl
  | isIn column list =>
    rw [conditionMentions?, fieldName?_eq, firstKeyword?_eq, splitTop?_eq, Condition.mentions, hasKeyword]
    cases firstCut? (isKeywordAt "SELECT") list <;> rfl
  | compare column value =>
    rw [conditionMentions?, fieldName?_eq]
    rfl

theorem clauseMentionsTo?_eq {clause : List Char} {depth : Nat} (h : clause.length < depth) :
    clauseMentionsTo? depth clause = some (clauseMentionsTo depth clause) := by
  induction depth generalizing clause with
  | zero => exact absurd h (Nat.not_lt_zero _)
  | succ depth ih =>
    have htext : ∀ text ∈ conditions clause,
        textMentions? (clauseMentionsTo? depth) text = some (mentionsTo depth text) := by
      intro text htext
      rw [textMentions?, condition?_eq, Option.bind_eq_bind, Option.bind_some, mentionsTo]
      cases hread : Condition.read? text with
      | none => rfl
      | some condition =>
        refine conditionMentions?_eq condition fun inner hgroup => ih ?_
        have hinner := length_of_read?_group (hread.trans (congrArg some hgroup))
        have hle := length_of_mem_conditions htext
        omega
    rw [clauseMentionsTo?, conditions?_eq, Option.bind_eq_bind, Option.bind_some,
      mapM_eq_some htext]
    rfl

theorem clauseMentions?_eq (clause : List Char) :
    clauseMentions? clause = some (clauseMentions clause) :=
  clauseMentionsTo?_eq (Nat.lt_succ_self clause.length)

theorem whereMentions?_eq (body : List Char) :
    whereMentions? (cutAtWhere body).2 = some (whereMentions body) := by
  rw [whereMentions]
  cases (cutAtWhere body).2 with
  | none => rfl
  | some clause => exact clauseMentions?_eq clause

end Mentions

/-! ## Statements -/

def projectionItem? (item : List Char) : Option (Option Mention) :=
  match columnForm.read? item with
  | some column => do return some (.touch (← fieldName? column))
  | none => some none

def projectionMentions? (projection : List Char) : Option (List Mention) := do
  (← splitTop? ',' projection).filterMapM projectionItem?

def selectFootprint? (body : List Char) : Option Footprint := do
  match ← firstKeyword? "FROM" body with
  | none => return .unrecognized
  | some k =>
    let projection ← slice? body 0 k
    match tableForm.read? (← slice? body (k + utf8Length "FROM".toList) (utf8Length body)) with
    | none => return .unrecognized
    | some (table, rest) =>
      let target ← targetName? table
      let columns ← projectionMentions? projection
      let (_, clause) ← cutAtWhere? rest
      return .ofMentions target (columns ++ (← whereMentions? clause))

def statementFootprint? : Statement → Option Footprint
  | .update table body => do
    let target ← targetName? table
    let (settings, clause) ← cutAtWhere? body
    return .ofMentions target ((← setMentions? settings) ++ (← whereMentions? clause))
  | .insert table body => do return .ofMentions (← targetName? table) (← insertMentions? body)
  | .delete table body => do
    let target ← targetName? table
    let (_, clause) ← cutAtWhere? body
    return .ofMentions target (← whereMentions? clause)
  | .select body => selectFootprint? body

def footprint? (line : List Char) : Option Footprint := do
  match Statement.read? (← statementOf? line) with
  | some statement => statementFootprint? statement
  | none => return .unrecognized

theorem projectionItem?_eq (item : List Char) : projectionItem? item =
    some ((columnForm.read? item).map fun column => .touch (fieldName column)) := by
  rw [projectionItem?]
  cases columnForm.read? item with
  | none => rfl
  | some column =>
    dsimp only
    rw [fieldName?_eq]
    rfl

theorem projectionMentions?_eq (projection : List Char) :
    projectionMentions? projection = some (projectionMentions projection) := by
  rw [projectionMentions?, splitTop?_eq]
  exact filterMapM_eq_some fun item _ => projectionItem?_eq item

theorem selectFootprint?_eq (body : List Char) : selectFootprint? body = some (selectFootprint body) := by
  unfold selectFootprint? selectFootprint
  rcases firstKeyword?_cases "FROM" body with ⟨hcut, hfirst⟩ | ⟨x, v, y, rfl, hv, hcut, hfirst⟩
  · rw [hcut, hfirst]
    rfl
  · rw [hcut, hfirst]
    dsimp only [Option.bind_eq_bind, Option.bind_some]
    rw [slice?_front, slice?_behind x hv, Option.bind_some, Option.bind_some]
    cases tableForm.read? y with
    | none => rfl
    | some source =>
      obtain ⟨table, rest⟩ := source
      dsimp only
      rw [targetName?_eq, projectionMentions?_eq, cutAtWhere?_eq]
      dsimp only [Option.bind_some]
      rw [whereMentions?_eq]
      rfl

theorem statementFootprint?_eq (statement : Statement) :
    statementFootprint? statement = some statement.footprint := by
  cases statement with
  | update table body =>
    rw [statementFootprint?, targetName?_eq, cutAtWhere?_eq]
    dsimp only [Option.bind_eq_bind, Option.bind_some]
    rw [setMentions?_eq, whereMentions?_eq]
    rfl
  | insert table body =>
    rw [statementFootprint?, targetName?_eq, insertMentions?_eq]
    rfl
  | delete table body =>
    rw [statementFootprint?, targetName?_eq, cutAtWhere?_eq]
    dsimp only [Option.bind_eq_bind, Option.bind_some]
    rw [whereMentions?_eq]
    rfl
  | select body => exact selectFootprint?_eq body

theorem footprint?_eq (line : List Char) : footprint? line = some (footprint line) := by
  rw [footprint?, statementOf?_eq, Option.bind_eq_bind, Option.bind_some, footprint]
  cases Statement.read? (statementOf line) with
  | none => rfl
  | some statement => exact statementFootprint?_eq statement

/-! ## Shapes -/

def insertLacksValues? (statement : List Char) : Option Bool :=
  if insertVerb.fits statement then
    ["VALUES", "VALUE", "SET", "SELECT"].allM fun w => (firstKeyword? w statement).map (·.isNone)
  else some false

/-- Tells whether one of the `JOIN`s at some offsets lacks a condition that it needs. -/
def joinLacksCondition? (statement : List Char) : List Nat → Option Bool
  | [] => some false
  | k :: ks => do
    if endsUnconditional (← slice? statement 0 k) then joinLacksCondition? statement ks
    else
      let join ← slice? statement k (ks.head?.getD (utf8Length statement))
      if ← ["ON", "USING"].allM fun w => (firstKeyword? w join).map (·.isNone) then return true
      else joinLacksCondition? statement ks

def lacksJoinCondition? (statement : List Char) : Option Bool := do
  joinLacksCondition? statement (← keywordOffsets? "JOIN" statement)

def byProblem? (statement : List Char) (clause : ByClause) (k : Nat) : Option (Option ShapeProblem) := do
  let rest ← slice? statement (k + utf8Length clause.keyword.toList) (utf8Length statement)
  return if lacksByColumn rest then some (.missingByColumn clause) else none

def byProblems? (statement : List Char) (clause : ByClause) : Option (List ShapeProblem) := do
  (← keywordOffsets? clause.keyword statement).filterMapM (byProblem? statement clause)

def lacksGroupBy? (statement : List Char) : Option Bool := do
  match ← firstKeyword? "HAVING" statement with
  | some k => (firstKeyword? "GROUP" (← slice? statement 0 k)).map (·.isNone)
  | none => return false

def shapeProblems? (statement : List Char) : Option (List ShapeProblem) := do
  let insert := if ← insertLacksValues? statement then [.insertWithoutValues] else []
  let join := if ← lacksJoinCondition? statement then [.joinWithoutCondition] else []
  let lists ← [ByClause.group, ByClause.order].mapM (byProblems? statement)
  let having := if ← lacksGroupBy? statement then [.havingWithoutGroupBy] else []
  return insert ++ join ++ lists.flatten ++ having

theorem allM_lacks (ws : List String) (s : List Char) :
    (ws.allM fun w => (firstKeyword? w s).map (·.isNone)) = some (ws.all fun w => !hasKeyword w s) :=
  allM_eq_some fun w _ => isNone_firstKeyword? w s

theorem insertLacksValues?_eq (statement : List Char) :
    insertLacksValues? statement = some (insertLacksValues statement) := by
  rw [insertLacksValues?, allM_lacks, insertLacksValues]
  cases insertVerb.fits statement <;> rfl

/-- The offsets of the `JOIN`s are those of the parts that begin with them. -/
theorem joinLacksCondition?_eq {statement before : List Char} {joins : List (List Char)}
    (hs : statement = before ++ joins.flatten) :
    joinLacksCondition? statement (partOffsets 0 (before :: joins)) =
      some (joinLacksCondition before joins) := by
  induction joins generalizing before with
  | nil => rfl
  | cons join later ih =>
    have hs : statement = before ++ (join ++ later.flatten) := by rw [hs, List.flatten_cons]
    have hlater := @ih (before ++ join) (by rw [hs, List.append_assoc])
    have hbefore : slice? statement 0 (0 + utf8Length before) = some before := by
      rw [hs, Nat.zero_add]
      exact slice?_front before (join ++ later.flatten)
    have hjoin : slice? statement (0 + utf8Length before) (utf8Length (before ++ join)) = some join := by
      rw [hs, Nat.zero_add, utf8Length_append]
      exact slice?_append before join later.flatten
    have hend := head?_partOffsets (before ++ join) later
    rw [List.append_assoc, ← hs] at hend
    rw [partOffsets_cons, partOffsets_append, joinLacksCondition?, hbefore, hend]
    dsimp only [Option.bind_eq_bind, Option.bind_some]
    have hwords : (["ON", "USING"].all fun w => !hasKeyword w join) =
        (!hasKeyword "ON" join && !hasKeyword "USING" join) := by simp
    rw [hjoin, hlater, joinLacksCondition, Option.bind_some, allM_lacks, hwords, Option.bind_some]
    cases endsUnconditional before <;> cases hasKeyword "ON" join <;>
      cases hasKeyword "USING" join <;> rfl

theorem lacksJoinCondition?_eq (statement : List Char) :
    lacksJoinCondition? statement = some (lacksJoinCondition statement) := by
  obtain ⟨before, joins, hparts⟩ :=
    List.exists_cons_of_ne_nil (parts_ne_nil (isKeywordAt "JOIN") statement)
  have hs : statement = before ++ joins.flatten := by
    rw [← flatten_parts (isKeywordAt "JOIN") statement, hparts, List.flatten_cons]
  rw [lacksJoinCondition?, keywordOffsets?_eq, keywordOffsets, offsets, lacksJoinCondition, hparts]
  exact joinLacksCondition?_eq hs

theorem byProblems?_eq (statement : List Char) (clause : ByClause) :
    byProblems? statement clause = some (byProblems statement clause) := by
  rw [byProblems?, keywordOffsets?_eq, Option.bind_eq_bind, Option.bind_some, keywordOffsets, byProblems]
  refine filterMapM_offsets ?_
  rintro x y rfl ⟨-, -, -, -, hat⟩
  obtain ⟨v, r, rfl, hv, hdrop⟩ := exists_of_isKeywordAt hat
  rw [byProblem?, slice?_behind x (utf8Length_of_lower_eq hv), hdrop]
  rfl

theorem lacksGroupBy?_eq (statement : List Char) :
    lacksGroupBy? statement = some (lacksGroupBy statement) := by
  unfold lacksGroupBy? lacksGroupBy
  rcases firstKeyword?_cases "HAVING" statement with ⟨hcut, hfirst⟩ | ⟨x, v, y, rfl, hv, hcut, hfirst⟩
  · rw [hcut, hfirst]
    rfl
  · rw [hcut, hfirst]
    dsimp only [Option.bind_eq_bind, Option.bind_some]
    rw [slice?_front, Option.bind_some]
    exact isNone_firstKeyword? "GROUP" x

theorem shapeProblems?_eq (statement : List Char) :
    shapeProblems? statement = some (shapeProblems statement) := by
  rw [shapeProblems?, insertLacksValues?_eq, lacksJoinCondition?_eq,
    mapM_eq_some fun clause _ => byProblems?_eq statement clause, lacksGroupBy?_eq]
  rfl

end SchemaLint.Slicing.Sql
