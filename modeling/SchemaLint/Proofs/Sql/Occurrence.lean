import SchemaLint.Proofs.Form.Sequence
import SchemaLint.Proofs.Nesting.Place
import SchemaLint.Proofs.Sql.Head
import SchemaLint.Proofs.Sql.Token

/-!
# Occurrences of keywords and names

A keyword may occur outside quotes and brackets as a word of its own or as a part of a name: beside a
character of names, or behind a qualifier and a dot (`Occurrence.IsWhole`). The search for keywords
asks for less, that no ASCII character of identifiers stands beside it. So it finds every whole word,
and besides these the occurrences in names that are told from words only by a letter that is not
ASCII or by a dot (`Occurrence.IsMisread`).
-/

namespace SchemaLint.Sql

open Form Nesting Text

/-- The letters of a keyword outside quotes and brackets of a text, in any case. -/
structure Occurrence (w : String) (s : List Char) where
  before : List Char
  word : Cased w
  after : List Char
  text_eq : s = before ++ (word.text ++ after)
  outside : (start.after before).depth = 0 ∧ (start.after before).quote = none

/-- A qualifier ends here, with its dot and what may stand between the dot and the next segment of
the name. -/
structure Qualifier (x : List Char) where
  front : List Char
  last : Char
  last_isNameChar : isNameChar last = true
  closing : List Char
  closing_eq : closing = [] ∨ closing = ['\x60']
  gap : List Char
  gap_isBlank : ∀ c ∈ gap, isBlank c = true
  gap' : List Char
  gap'_isBlank : ∀ c ∈ gap', isBlank c = true
  opening : List Char
  opening_eq : opening = [] ∨ opening = ['\x60']
  text_eq : x = front ++ last :: (closing ++ (gap ++ '.' :: (gap' ++ opening)))

namespace Occurrence

variable {w : String} {s : List Char} (o : Occurrence w s)

/-- The byte offset of an occurrence. -/
def offset : Nat :=
  utf8Length o.before

/-- A character beside an occurrence. -/
def IsNeighbour (c : Char) : Prop :=
  c ∈ o.before.getLast? ∨ c ∈ o.after.head?

/-- An occurrence that is not part of a longer name. -/
def IsWhole : Prop :=
  (∀ c, o.IsNeighbour c → isNameChar c = false) ∧ ¬ Nonempty (Qualifier o.before)

/-- An occurrence in a longer name that no ASCII character beside it gives away. -/
def IsMisread : Prop :=
  (∀ c, o.IsNeighbour c → isIdentChar c = false) ∧
    ((∃ c, o.IsNeighbour c ∧ Unicode.isWord c = true ∧ 128 ≤ c.toNat) ∨
      Nonempty (Qualifier o.before))

end Occurrence

/-! ## Neighbours -/

theorem isNameChar_iff {c : Char} : isNameChar c = true ↔
    isIdentChar c = true ∨ Unicode.isWord c = true ∧ 128 ≤ c.toNat := by
  by_cases hc : c.toNat < 128
  · have hword : Unicode.isWord c = (c.isAlphanum || c == '_') := if_pos hc
    have hident : isNameChar c = isIdentChar c := by rw [isNameChar, hword]; rfl
    rw [hident, or_iff_left fun h => Nat.not_le.mpr hc h.2]
  · have hident : isIdentChar c = false := by
      rw [← Bool.not_eq_true]
      exact fun h => hc (toNat_lt_of_isIdentChar h)
    have hne : (c == '$') = false := beq_false_of_ne (by rintro rfl; exact hc (by decide))
    rw [isNameChar, hident, hne, Bool.or_false, or_iff_right Bool.false_ne_true,
      and_iff_left (Nat.not_lt.mp hc)]

section Neighbours

variable {w : String} {s : List Char} (o : Occurrence w s)

theorem Occurrence.not_isWhole (h : o.IsMisread) : ¬ o.IsWhole := by
  rintro ⟨hname, hqualifier⟩
  rcases h.2 with ⟨c, hc, hword⟩ | hq
  · exact absurd (isNameChar_iff.mpr (.inr hword)) (by simp [hname c hc])
  · exact hqualifier hq

/-- No ASCII character of identifiers stands beside an occurrence that is whole or misread. -/
theorem Occurrence.isIdentChar_neighbour_iff :
    (∀ c, o.IsNeighbour c → isIdentChar c = false) ↔ o.IsWhole ∨ o.IsMisread := by
  constructor
  · intro h
    by_cases hwhole : o.IsWhole
    · exact .inl hwhole
    · refine .inr ⟨h, or_iff_not_imp_right.mpr fun hqualifier => ?_⟩
      obtain ⟨c, hc⟩ := not_forall.mp fun hname => hwhole ⟨hname, hqualifier⟩
      rw [Classical.not_imp, Bool.not_eq_false] at hc
      have hident : ¬ isIdentChar c = true := by simp [h c hc.1]
      exact ⟨c, hc.1, (isNameChar_iff.mp hc.2).resolve_left hident⟩
  · rintro (h | h) c hc
    · exact isIdentChar_eq_false (h.1 c hc)
    · exact h.1 c hc

end Neighbours

/-! ## Keywords found -/

section Found

variable {w : String} {s : List Char}

theorem mark_isTop_iff {n : Nesting} {c : Char} (hc : isPlain c = true) :
    (n.mark c).isTop = true ↔ n.depth = 0 ∧ n.quote = none := by
  simp only [isPlain, Bool.and_eq_true, Bool.not_eq_true'] at hc
  unfold mark Mark.isTop
  cases n.quote <;> simp [hc]

theorem isKeywordAt_iff {before : Option Char} {rest : List Char} :
    isKeywordAt w before rest = true ↔ ∃ (word : Cased w) (after : List Char),
      rest = word.text ++ after ∧ (∀ c ∈ before, isIdentChar c = false) ∧
        ∀ c ∈ after.head?, isIdentChar c = false := by
  constructor
  · intro h
    simp only [isKeywordAt, Bool.and_eq_true, Bool.not_eq_true'] at h
    obtain ⟨⟨hstarts, hbefore⟩, hafter⟩ := h
    obtain ⟨v, after, rfl, hv⟩ := exists_append_of_startsIgnoringCase hstarts
    let word : Cased w := ⟨v, hv⟩
    have hdrop : (v ++ after).drop w.length = after := by
      rw [← word.length_text, List.drop_left]
    rw [hdrop] at hafter
    refine ⟨word, after, rfl, fun c hc => ?_, fun c hc => ?_⟩
    · rwa [Option.mem_def.mp hc] at hbefore
    · rwa [Option.mem_def.mp hc] at hafter
  · rintro ⟨word, after, rfl, hbefore, hafter⟩
    exact word.isKeywordAt_text hbefore hafter

/-- A keyword is found where it occurs with no ASCII character of identifiers beside it. -/
theorem mem_keywordOffsets_iff (hw : IsKeyword w) {n : Nat} : n ∈ keywordOffsets w s ↔
    ∃ o : Occurrence w s, o.offset = n ∧ ∀ c, o.IsNeighbour c → isIdentChar c = false := by
  have htop : ∀ (word : Cased w) (x after : List Char), ∃ c t, word.text ++ after = c :: t ∧
      (((start.after x).mark c).isTop = true ↔
        (start.after x).depth = 0 ∧ (start.after x).quote = none) := by
    intro word x after
    obtain ⟨c, t, hct⟩ := List.exists_cons_of_ne_nil (word.text_ne_nil hw)
    have hc : isIdentChar c = true := word.isIdentChar_of_mem hw c (by simp [hct])
    exact ⟨c, t ++ after, by rw [hct, List.cons_append],
      mark_isTop_iff (isPlain_of_isNameChar (isNameChar_of_isIdentChar hc))⟩
  rw [keywordOffsets, mem_offsets_iff]
  constructor
  · rintro ⟨x, y, rfl, ⟨c, t, rfl, hmark, hat⟩, rfl⟩
    obtain ⟨word, after, hrest, hbefore, hafter⟩ := isKeywordAt_iff.mp hat
    obtain ⟨d, u, hcons, hiff⟩ := htop word x after
    obtain ⟨rfl, rfl⟩ := List.cons.inj (hrest.trans hcons)
    refine ⟨⟨x, word, after, by rw [hrest], hiff.mp hmark⟩, rfl, ?_⟩
    rintro e (he | he)
    · exact hbefore e (by rwa [Option.or_none])
    · exact hafter e he
  · rintro ⟨⟨x, word, after, rfl, houtside⟩, rfl, hneighbour⟩
    obtain ⟨c, t, hcons, hiff⟩ := htop word x after
    refine ⟨x, word.text ++ after, rfl, ⟨c, t, hcons, hiff.mpr houtside, ?_⟩, rfl⟩
    refine word.isKeywordAt_text (fun e he => hneighbour e (.inl ?_)) fun e he =>
      hneighbour e (.inr he)
    rwa [Option.or_none] at he

/-- Occurrences at one offset are one occurrence. -/
theorem Occurrence.eq_of_offset_eq {o o' : Occurrence w s} (h : o.offset = o'.offset) : o = o' := by
  obtain ⟨x, word, after, hs, hx⟩ := o
  obtain ⟨x', word', after', hs', hx'⟩ := o'
  obtain rfl : x = x' := append_inj_of_utf8Length (hs.symm.trans hs') h
  have hlen : word.text.length = word'.text.length := by rw [word.length_text, word'.length_text]
  have hrest := List.append_cancel_left (hs.symm.trans hs')
  obtain ⟨htext, rfl⟩ := List.append_inj hrest hlen
  obtain ⟨v, hv⟩ := word
  obtain ⟨v', hv'⟩ := word'
  obtain rfl : v = v' := htext
  rfl

/-- The offsets of a keyword ascend. They are those of the occurrences that are whole words and of
those in names that are misread for such; so they are the offsets of the whole words if and only if
no occurrence is misread. -/
theorem keyword_offsets_whole_or_misread (hw : IsKeyword w) (s : List Char) :
    (keywordOffsets w s).Pairwise (· < ·) ∧
      (∀ n, n ∈ keywordOffsets w s ↔
        ∃ o : Occurrence w s, o.offset = n ∧ (o.IsWhole ∨ o.IsMisread)) ∧
      ((∀ n, n ∈ keywordOffsets w s ↔ ∃ o : Occurrence w s, o.offset = n ∧ o.IsWhole) ↔
        ∀ o : Occurrence w s, ¬ o.IsMisread) := by
  have hmem : ∀ n, n ∈ keywordOffsets w s ↔
      ∃ o : Occurrence w s, o.offset = n ∧ (o.IsWhole ∨ o.IsMisread) := by
    intro n
    simp only [mem_keywordOffsets_iff hw, Occurrence.isIdentChar_neighbour_iff]
  refine ⟨pairwise_offsets, hmem, ?_, ?_⟩
  · intro hwhole o hmisread
    obtain ⟨o', hoffset, ho'⟩ := (hwhole o.offset).mp ((hmem _).mpr ⟨o, rfl, .inr hmisread⟩)
    obtain rfl := Occurrence.eq_of_offset_eq hoffset
    exact o'.not_isWhole hmisread ho'
  · intro hclear n
    rw [hmem]
    exact exists_congr fun o => and_congr_right fun _ => or_iff_left (hclear o)

set_option maxRecDepth 100000 in
theorem accented_word_misread :
    IsKeyword "AND" ∧ keywordOffsets "AND" "a = 1 AND éand = 2".toList = [6, 12] ∧
      ¬ ∀ n, n ∈ keywordOffsets "AND" "a = 1 AND éand = 2".toList ↔
        ∃ o : Occurrence "AND" "a = 1 AND éand = 2".toList, o.offset = n ∧ o.IsWhole := by
  have hw : IsKeyword "AND" := by decide
  let o : Occurrence "AND" "a = 1 AND éand = 2".toList :=
    ⟨"a = 1 AND é".toList, ⟨"and".toList, by decide⟩, " = 2".toList, by decide, by decide⟩
  have hletter : Unicode.Binary.alphabetic.points.contains 'é'.toNat = true :=
    (Unicode.CodePoints.contains_ofGaps rfl _).trans (by decide +kernel)
  have hword : Unicode.isWord 'é' = true :=
    List.any_eq_true.mpr ⟨_, List.mem_cons_self, hletter⟩
  have hmisread : o.IsMisread := by
    refine ⟨?_, .inl ⟨'é', .inl rfl, hword, by decide⟩⟩
    rintro c (⟨⟨⟩⟩ | ⟨⟨⟩⟩) <;> decide
  refine ⟨hw, by decide +kernel, fun h => ?_⟩
  exact (keyword_offsets_whole_or_misread hw _).2.2.mp h o hmisread

end Found

end SchemaLint.Sql
