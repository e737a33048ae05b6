import SchemaLint.Proofs.Keyword
import SchemaLint.Proofs.Nesting.Place
import SchemaLint.Statement

/-!
# Where the statement on a line ends

The statement on a line is what stands before the first mark that ends it, trimmed; the blanks at
the ends of the line need not be dropped first (`statementOf_eq`). So what follows a line whose
quotes and brackets are closed does not change its statement when it begins with a blank and a
comment (`statementOf_append_comment`): the first mark of the longer line is that of the line itself,
or the one that begins the comment.
-/

namespace SchemaLint

open Nesting Text

/-! ## Blanks in front -/

section Blanks

variable {test : PlaceTest} {ws : List String} {gap s : List Char}

theorem parts_blank_append (htest : test.Within ws) (hgap : ∀ c ∈ gap, isBlank c = true)
    (s : List Char) : parts test (gap ++ s) = gap.foldr consHead (parts test s) := by
  induction gap with
  | nil => rfl
  | cons c gap ih =>
    rw [List.cons_append, SchemaLint.parts, parts_cons_blank htest (hgap c List.mem_cons_self),
      ih fun d hd => hgap d (List.mem_cons_of_mem c hd), List.foldr_cons]

theorem firstCut?_blank_append (htest : test.Within ws) (hgap : ∀ c ∈ gap, isBlank c = true)
    (s : List Char) :
    firstCut? test (gap ++ s) = (firstCut? test s).map fun (x, y) => (gap ++ x, y) := by
  obtain ⟨p, ps, hp⟩ := List.exists_cons_of_ne_nil (parts_ne_nil test s)
  rw [firstCut?, firstCut?, parts_blank_append htest hgap, hp, foldr_consHead]
  cases ps <;> rfl

end Blanks

/-! ## The end of the statement -/

/-- What stands on a line before the mark that ends its statement. -/
def beforeEnd (line : List Char) : List Char :=
  ((firstCut? statementEndsAt line).map (·.1)).getD line

theorem startsComment_cons (c : Char) (r : List Char) : startsComment (c :: r) =
    (c == '#' || c == '-' && r.head? == some '-' && (r.drop 1).head?.all isBlank) := by
  by_cases hhash : c = '#'
  · subst hhash
    rfl
  · by_cases hminus : c = '-'
    · subst hminus
      cases r with
      | nil => rfl
      | cons d r =>
        by_cases hd : d = '-'
        · subst hd
          rfl
        · simp [startsComment, hd]
    · simp [startsComment, hhash, hminus]

/-- Blanks behind a line tell the test for the end of its statement what the end of the line tells
it. -/
theorem statementEndsAt_append {t : List Char} (ht : ∀ d ∈ t.head?, isBlank d = true)
    (before : Option Char) (c : Char) (r : List Char) :
    statementEndsAt before (c :: (r ++ t)) = statementEndsAt before (c :: r) := by
  have hblank : t.head?.all isBlank = true := by
    cases t with
    | nil => rfl
    | cons d t => exact ht d rfl
  have hminus : (t.head? == some '-') = false := by
    rw [beq_eq_false_iff_ne]
    intro h
    exact absurd (ht '-' h) (by decide)
  have hcomment : startsComment (c :: (r ++ t)) = startsComment (c :: r) := by
    rw [startsComment_cons, startsComment_cons]
    match r with
    | [] => simp [hminus]
    | [d] => simp [hblank]
    | d :: e :: r => rfl
  rw [statementEndsAt, statementEndsAt, hcomment]
  rfl

section BeforeEnd

variable {gap s : List Char}

theorem exists_append_beforeEnd (s : List Char) : ∃ y, s = beforeEnd s ++ y := by
  unfold beforeEnd
  cases hcut : firstCut? statementEndsAt s with
  | none => exact ⟨[], (List.append_nil s).symm⟩
  | some cut => exact ⟨cut.2, (firstCut?_eq_some_iff.mp hcut).1⟩

theorem beforeEnd_blank_append (hgap : ∀ c ∈ gap, isBlank c = true) (s : List Char) :
    beforeEnd (gap ++ s) = gap ++ beforeEnd s := by
  unfold beforeEnd
  rw [firstCut?_blank_append within_statementEndsAt hgap]
  cases firstCut? statementEndsAt s <;> rfl

theorem clear_append_blank {t : List Char} (hgap : ∀ c ∈ gap, isBlank c = true)
    (h : start.Clear none statementEndsAt s (gap ++ t)) :
    start.Clear none statementEndsAt (s ++ gap) t :=
  clear_append_left.mpr
    ⟨h, clear_of_needs within_statementEndsAt.needs fun c hc => isStop_of_isBlank (hgap c hc)⟩

theorem trim_beforeEnd_append_blank (hgap : ∀ c ∈ gap, isBlank c = true) (s : List Char) :
    trim (beforeEnd (s ++ gap)) = trim (beforeEnd s) := by
  have htest := statementEndsAt_append (t := gap) fun d hd => hgap d (List.mem_of_head? hd)
  unfold beforeEnd
  cases hcut : firstCut? statementEndsAt s with
  | some cut => rw [firstCut?_append htest hcut]; rfl
  | none =>
    have hclear : start.Clear none statementEndsAt (s ++ gap) [] := by
      apply clear_append_blank hgap
      rw [List.append_nil]
      exact clear_of_firstCut? htest hcut
    rw [firstCut?_of_clear hclear]
    exact trim_append_blank hgap s

theorem statementOf_eq_trimEnd (line : List Char) :
    statementOf line = trimEnd (beforeEnd (trim line)) := by
  unfold statementOf beforeEnd
  cases firstCut? statementEndsAt (trim line) <;> rfl

/-- The statement is what stands before the mark, trimmed: the marks are the same with the blanks
around the line. -/
theorem statementOf_eq (line : List Char) : statementOf line = trim (beforeEnd line) := by
  obtain ⟨gap, gap', hgap, hgap', hline⟩ := exists_append_trim line
  obtain ⟨y, hy⟩ := exists_append_beforeEnd (trim line)
  have hhead : ∀ c ∈ (beforeEnd (trim line)).head?, isBlank c = false := by
    intro c hc
    apply (trimmed_trim line).head
    rw [hy, List.head?_append, hc]
    rfl
  calc statementOf line
    _ = trimEnd (beforeEnd (trim line)) := statementOf_eq_trimEnd line
    _ = trim (beforeEnd (trim line)) := congrArg trimEnd (trimStart_of_head hhead).symm
    _ = trim (beforeEnd (gap ++ trim line ++ gap')) := by
      rw [trim_beforeEnd_append_blank hgap', beforeEnd_blank_append hgap, trim_blank_append hgap]
    _ = trim (beforeEnd line) := by rw [← hline]

/-- The statement on a line is the beginning of the line. -/
theorem exists_append_statementOf (line : List Char) :
    ∃ more, trim line = statementOf line ++ more := by
  obtain ⟨y, hy⟩ := exists_append_beforeEnd (trim line)
  obtain ⟨gap, hgap⟩ := exists_append_trimEnd (beforeEnd (trim line))
  refine ⟨gap ++ y, ?_⟩
  rw [statementOf_eq_trimEnd, ← List.append_assoc, ← hgap, ← hy]

theorem statementOf_trim (line : List Char) : statementOf (trim line) = statementOf line := by
  unfold statementOf
  rw [(trimmed_trim line).trim_eq]

end BeforeEnd

/-! ## A comment behind a line -/

theorem after_eq_start {line : List Char} (hquote : openQuote? line = none)
    (hdepth : (start.after line).depth = 0) : start.after line = start := by
  exact (after_eq_atDepth 0 hquote).trans (congrArg atDepth hdepth)

theorem passes_comment {a m : List Char} (ha : start.after a = start) (hm : startsComment m = true) :
    start.Passes none statementEndsAt a m := by
  obtain ⟨c, r, rfl⟩ : ∃ c r, m = c :: r := by
    cases m with
    | nil => cases hm
    | cons c r => exact ⟨c, r, rfl⟩
  have hplain : isPlain c = true := by
    rw [startsComment_cons, Bool.or_eq_true, beq_iff_eq] at hm
    rcases hm with rfl | hm
    · decide
    · simp only [Bool.and_eq_true, beq_iff_eq] at hm
      rw [hm.1.1]
      decide
  refine ⟨c, r, rfl, ?_, ?_⟩
  · rw [ha, start_eq, mark_plain 0 hplain]
    rfl
  · rw [statementEndsAt, hm, Bool.or_true]

/-- A comment behind a line whose quotes and brackets are closed leaves the statement as it is. -/
theorem statementOf_append_comment {line m : List Char} (hquote : openQuote? line = none)
    (hdepth : (start.after line).depth = 0) (hm : startsComment m = true) :
    statementOf (line ++ ' ' :: m) = statementOf line := by
  have htest := statementEndsAt_append (t := ' ' :: m) (by rintro d ⟨⟩; decide)
  rw [statementOf_eq, statementOf_eq, beforeEnd, beforeEnd]
  cases hcut : firstCut? statementEndsAt line with
  | some cut =>
    -- The line has its own end, which is the first of the longer line too.
    rw [firstCut?_append htest hcut]
    rfl
  | none =>
    -- The comment is the end of the longer line; only the blank in front of it is left over.
    have hclear : start.Clear none statementEndsAt (line ++ [' ']) m :=
      clear_append_blank isBlank_space (clear_of_firstCut? htest hcut)
    have hafter : start.after (line ++ [' ']) = start := by
      rw [after_append, after_eq_start hquote hdepth]
      rfl
    rw [List.append_cons, firstCut?_of_passes (passes_comment hafter hm) hclear]
    exact trim_append_blank isBlank_space line

end SchemaLint
