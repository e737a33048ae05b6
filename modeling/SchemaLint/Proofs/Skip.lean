import SchemaLint.Proofs.Shell.Document
import SchemaLint.Proofs.Statement

/-!
# Texts that a search skips

A test skips a text (`PlaceTest.Skips`) when the text leaves its reader outside quotes and brackets and
no place of it passes. Tests for keywords and for the end of a statement look no further than the next
blank (`PlaceTest.EndsAtBlank`), so skipped texts may be put together with blanks between them
(`PlaceTest.Skips.spaced`), and a keyword behind a skipped text is the first that is found
(`PlaceTest.Skips.parts_keyword`, `PlaceTest.Skips.cutAtKeyword?_eq`).

Tests for keywords and for the end of a statement look no further than the next quote, bracket or sign
(`PlaceTest.EndsAt`). So what is found up to such a mark is found whatever text follows it, and a search
that finds nothing there goes on behind it (`firstCut?_behind`). A list is split into the items in
front of a separator and those behind it (`splitTop_append_closed`), whatever items these are.
-/

namespace SchemaLint

open Nesting Text

/-! ## Tests that end at a blank -/

/-- What begins with a blank does not change whether the places before it pass. -/
def PlaceTest.EndsAtBlank (test : PlaceTest) : Prop :=
  ∀ before c r t, (∀ d ∈ t.head?, isBlank d = true) → test before (c :: (r ++ t)) = test before (c :: r)

/-- No letter of a keyword is found where a character stands that no keyword has. -/
theorem startsIgnoringCase_append_right {t : List Char} (ht : ∀ d ∈ t.head?, isIdentChar d = false)
    {w : List Char} (hw : ∀ c ∈ w, isIdentChar c = true) (s : List Char) :
    startsIgnoringCase w (s ++ t) = startsIgnoringCase w s := by
  induction w generalizing s with
  | nil => rfl
  | cons l w ih =>
    cases s with
    | nil =>
      cases t with
      | nil => rfl
      | cons d t =>
        have hne : (l.toLower == d.toLower) = false := by
          rw [beq_eq_false_iff_ne]
          intro heq
          have hident := hw l List.mem_cons_self
          rw [isIdentChar_of_toLower_eq heq, ht d rfl] at hident
          cases hident
        simp [startsIgnoringCase, hne]
    | cons c s =>
      have hlater := ih (fun d hd => hw d (List.mem_cons_of_mem l hd)) s
      simp [startsIgnoringCase, hlater]

section EndsAtBlank

variable {t : List Char} (ht : ∀ d ∈ t.head?, isBlank d = true)

include ht

theorem isKeywordAt_append_blank {w : String} (hw : IsKeyword w) (before : Option Char)
    (s : List Char) : isKeywordAt w before (s ++ t) = isKeywordAt w before s := by
  rw [isKeywordAt, isKeywordAt,
    startsIgnoringCase_append_right (fun d hd => isIdentChar_of_isBlank (ht d hd)) hw.2]
  cases hstart : startsIgnoringCase w.toList s with
  | false => rfl
  | true =>
    obtain ⟨v, r, rfl, hv⟩ := exists_append_of_startsIgnoringCase hstart
    rw [List.append_assoc, drop_of_lower_eq hv, drop_of_lower_eq hv]
    -- Behind the keyword stands what stood there, or the blank, and neither continues a word.
    cases r with
    | cons d r => rfl
    | nil =>
      cases t with
      | nil => rfl
      | cons d t => simp [isIdentChar_of_isBlank (ht d rfl)]

end EndsAtBlank

theorem endsAtBlank_isKeywordAt {w : String} (hw : IsKeyword w) : (isKeywordAt w).EndsAtBlank :=
  fun before c r _ ht => isKeywordAt_append_blank ht hw before (c :: r)

theorem endsAtBlank_any {ws : List String} (hws : ∀ w ∈ ws, IsKeyword w) :
    PlaceTest.EndsAtBlank fun before rest => ws.any fun w => isKeywordAt w before rest := by
  intro before c r t ht
  rw [Bool.eq_iff_iff, List.any_eq_true, List.any_eq_true]
  refine exists_congr fun w => and_congr_right fun hw => ?_
  rw [endsAtBlank_isKeywordAt (hws w hw) before c r t ht]

theorem endsAtBlank_statementEndsAt : statementEndsAt.EndsAtBlank :=
  fun before c r _ ht => statementEndsAt_append ht before c r

/-! ## Skipped texts -/

/-- No place of the text passes, and the text leaves its reader outside quotes and brackets. -/
structure PlaceTest.Skips (test : PlaceTest) (s : List Char) : Prop where
  closed : start.after s = start
  firstCut?_eq : firstCut? test s = none

instance (test : PlaceTest) (s : List Char) : Decidable (test.Skips s) :=
  decidable_of_iff (start.after s = start ∧ firstCut? test s = none)
    ⟨fun h => ⟨h.1, h.2⟩, fun h => ⟨h.closed, h.firstCut?_eq⟩⟩

namespace PlaceTest

variable {test : PlaceTest} {ws : List String} {s t gap : List Char}

theorem Within.skips_of_lacks (htest : test.Within ws) (hs : Lacks ws s) : test.Skips s :=
  ⟨hs.balanced.after_eq 0, firstCut?_of_lacks htest hs⟩

theorem skips_of_hasKeyword {w : String} (hs : start.after s = start)
    (h : hasKeyword w s = false) : (isKeywordAt w).Skips s :=
  ⟨hs, Option.isNone_iff_eq_none.mp (Option.isSome_eq_false_iff.mp h)⟩

namespace Skips

theorem clear (hs : test.Skips s) : start.Clear none test s [] :=
  firstCut?_eq_none_iff.mp hs.firstCut?_eq

theorem parts_eq (hs : test.Skips s) : parts test s = [s] := by
  have hparts := parts_append_of_clear hs.clear
  rwa [List.append_nil, Nesting.parts, foldr_consHead, List.append_nil] at hparts

variable (htest : test.Within ws) (hends : test.EndsAtBlank) (hs : test.Skips s)

include htest hends hs

/-- A skipped text stays in front of the first part of what follows it behind a blank. -/
theorem parts_spaced {b : Char} (hb : isBlank b = true) (t : List Char) :
    parts test (s ++ b :: t) = (s ++ [b]).foldr consHead (parts test t) := by
  have hclear : start.Clear none test s (b :: t) :=
    clear_of_firstCut? (fun before c r => hends before c r (b :: t) (by rintro d ⟨⟩; exact hb))
      hs.firstCut?_eq
  rw [SchemaLint.parts, parts_append_of_clear hclear, hs.closed, parts_cons_blank htest hb,
    List.foldr_append]
  rfl

theorem firstCut?_spaced {b : Char} (hb : isBlank b = true) (t : List Char) :
    firstCut? test (s ++ b :: t) = (firstCut? test t).map fun (x, y) => (s ++ b :: x, y) := by
  obtain ⟨p, ps, hp⟩ := List.exists_cons_of_ne_nil (parts_ne_nil test t)
  rw [firstCut?, firstCut?, hs.parts_spaced htest hends hb, hp, foldr_consHead]
  cases ps <;> simp

theorem spaced {b : Char} (hb : isBlank b = true) (ht : test.Skips t) : test.Skips (s ++ b :: t) := by
  refine ⟨?_, ?_⟩
  · rw [after_append, hs.closed, after_cons, start_eq, next_plain 0 (isPlain_of_isBlank hb),
      ← start_eq, ht.closed]
  · rw [hs.firstCut?_spaced htest hends hb, ht.firstCut?_eq]
    rfl

theorem append_blank (hgap : ∀ c ∈ gap, isBlank c = true) : test.Skips (s ++ gap) := by
  cases gap with
  | nil => rwa [List.append_nil]
  | cons b gap =>
    have hgap' : test.Skips gap := by
      have hlacks : Lacks ws (gap ++ []) :=
        .blank (fun c hc => hgap c (List.mem_cons_of_mem b hc)) .nil
      rw [List.append_nil] at hlacks
      exact htest.skips_of_lacks hlacks
    exact hs.spaced htest hends (hgap b List.mem_cons_self) hgap'

/-- A keyword between blanks behind a skipped text begins the second part. -/
theorem parts_keyword {w : String} (hw : IsKeyword w)
    (hpass : ∀ rest, isKeywordAt w none rest = true → test none rest = true) (k : Cased w)
    (r : List Char) :
    parts test (s ++ ' ' :: (k.text ++ ' ' :: r)) =
      (s ++ [' ']) :: (k.text ++ [' ']).foldr consHead (parts test r) := by
  have hfirst : parts test (k.text ++ ' ' :: r) =
      [] :: (k.text ++ [' ']).foldr consHead (parts test r) := by
    have hblank := parts_append_keyword htest hw .nil hpass k r
    rw [List.nil_append, SchemaLint.parts, parts_cons_blank htest (by decide)] at hblank
    obtain ⟨p, ps, hp⟩ := List.exists_cons_of_ne_nil (parts_ne_nil test (k.text ++ ' ' :: r))
    rw [hp, consHead, List.nil_append, List.cons.injEq, List.cons.injEq] at hblank
    rw [hp, hblank.1.2, hblank.2]
  rw [hs.parts_spaced htest hends (by decide), hfirst, foldr_consHead, List.append_nil]

/-- A text is cut at the first keyword behind a skipped text. -/
theorem firstCut?_keyword {w : String} (hw : IsKeyword w)
    (hpass : ∀ rest, isKeywordAt w none rest = true → test none rest = true) (k : Cased w)
    (r : List Char) :
    firstCut? test (s ++ ' ' :: (k.text ++ ' ' :: r)) = some (s ++ [' '], k.text ++ ' ' :: r) := by
  have hparts := hs.parts_keyword htest hends hw hpass k r
  have hflat : (parts test r).flatten = r := flatten_parts _ _
  obtain ⟨p, ps, hp⟩ := List.exists_cons_of_ne_nil (parts_ne_nil test r)
  rw [hp, List.flatten_cons] at hflat
  rw [hp, foldr_consHead] at hparts
  rw [firstCut?, hparts]
  simp [hflat]

end Skips

theorem Skips.cutAtKeyword?_eq {w : String} (hw : IsKeyword w) (hs : (isKeywordAt w).Skips s)
    (k : Cased w) (r : List Char) :
    cutAtKeyword? w (s ++ ' ' :: (k.text ++ ' ' :: r)) = some (s ++ [' '], ' ' :: r) := by
  have hdrop : (k.text ++ ' ' :: r).drop w.length = ' ' :: r := by
    rw [← k.length_text, List.drop_left]
  rw [cutAtKeyword?, hs.firstCut?_keyword (within_isKeywordAt hw) (endsAtBlank_isKeywordAt hw) hw
    fun _ h => h]
  exact congrArg (fun rest => some (s ++ [' '], rest)) hdrop

end PlaceTest

/-! ## Lists in front of a separator -/

section Lists

variable {sep : Char} {x s : List Char}

theorem consHead_append (c : Char) {ps : List (List Char)} (hne : ps ≠ []) (qs : List (List Char)) :
    consHead c (ps ++ qs) = consHead c ps ++ qs := by
  obtain ⟨p, ps, rfl⟩ := List.exists_cons_of_ne_nil hne
  rfl

/-- Behind a separator outside quotes and brackets a text is cut as if it stood alone. -/
theorem parts_append_closed (hsep : isPlain sep = true) (t : List Char) {n : Nesting}
    (before : Option Char) (hx : n.after x = start) :
    n.parts (standsAt sep) before (x ++ sep :: t) =
      n.parts (standsAt sep) before x ++ consHead sep (parts (standsAt sep) t) := by
  induction x generalizing n before with
  | nil =>
    obtain rfl : n = start := hx
    have hmark : ((start.mark sep).isTop && standsAt sep before (sep :: t)) = true := by
      rw [start_eq, mark_plain 0 hsep]
      simp [Mark.isTop, standsAt]
    rw [List.nil_append, Nesting.parts, Nesting.parts, hmark, if_pos rfl, start_eq, next_plain 0 hsep, ← start_eq,
      parts_standsAt_before _ _ _ (some sep) none]
    rfl
  | cons c x ih =>
    have hlater := ih (some c) (by rwa [after_cons] at hx)
    have htest : standsAt sep before (c :: (x ++ sep :: t)) = standsAt sep before (c :: x) := rfl
    rw [List.cons_append, Nesting.parts, Nesting.parts, hlater, htest,
      consHead_append c (parts_ne_nil_from _ _ _ _)]
    split <;> rfl

theorem segments_append_closed (hsep : isPlain sep = true) (hx : start.after x = start)
    (t : List Char) : segments sep (x ++ sep :: t) = segments sep x ++ segments sep t := by
  obtain ⟨p, ps, hp⟩ := List.exists_cons_of_ne_nil (parts_ne_nil (standsAt sep) x)
  obtain ⟨q, qs, hq⟩ := List.exists_cons_of_ne_nil (parts_ne_nil (standsAt sep) t)
  have hparts : parts (standsAt sep) (x ++ sep :: t) = p :: (ps ++ (sep :: q) :: qs) := by
    have h := parts_append_closed hsep t none hx
    rw [hq] at h
    exact h.trans (by rw [show start.parts (standsAt sep) none x = _ from hp]; rfl)
  rw [segments, segments, segments, hparts, hp, hq]
  simp

theorem splitTop_append_closed (hsep : isPlain sep = true) (hx : start.after x = start)
    (t : List Char) : splitTop sep (x ++ sep :: t) = splitTop sep x ++ splitTop sep t := by
  rw [splitTop, segments_append_closed hsep hx, List.map_append, List.filter_append]
  rfl

/-- What an item of a list may follow: blanks, in front of all items or behind a comma. -/
inductive LeadsItem : List Char → Prop
  | blank {gap : List Char} (hgap : ∀ c ∈ gap, isBlank c = true) : LeadsItem gap
  | comma {x gap : List Char} (hx : start.after x = start) (hgap : ∀ c ∈ gap, isBlank c = true) :
      LeadsItem (x ++ ',' :: gap)

namespace LeadsItem

theorem after_eq (h : LeadsItem s) : start.after s = start := by
  cases h with
  | blank hgap => exact (Balanced.of_blank hgap).after_eq 0
  | comma hx hgap =>
    rw [after_append, hx]
    exact (Balanced.cons (by decide) (.of_blank hgap)).after_eq 0

/-- The items behind are split without those in front. -/
theorem splitTop_append (h : LeadsItem s) (t : List Char) :
    splitTop ',' (s ++ t) = splitTop ',' s ++ splitTop ',' t := by
  have hblank : ∀ {gap : List Char}, (∀ c ∈ gap, isBlank c = true) → splitTop ',' gap = [] := by
    intro gap hgap
    rw [← List.append_nil gap, Shell.splitTop_blank_append hgap]
    rfl
  cases h with
  | blank hgap => rw [hblank hgap, Shell.splitTop_blank_append hgap, List.nil_append]
  | comma hx hgap =>
    rw [List.append_assoc, List.cons_append, splitTop_append_closed (by decide) hx,
      splitTop_append_closed (by decide) hx, hblank hgap, Shell.splitTop_blank_append hgap,
      List.append_nil]

end LeadsItem

end Lists

/-! ## Tests that look no further than a mark -/

/-- What follows a character does not change whether the places in front of it pass. -/
def PlaceTest.EndsAt (test : PlaceTest) (c : Char) : Prop :=
  ∀ before d s r, test before (d :: (s ++ c :: r)) = test before (d :: (s ++ [c]))

theorem endsAt_isKeywordAt {w : String} (hw : IsKeyword w) {c : Char} (hc : isIdentChar c = false) :
    (isKeywordAt w).EndsAt c := by
  intro before d s r
  have hstarts : ∀ r, startsIgnoringCase w.toList (d :: (s ++ c :: r)) =
      startsIgnoringCase w.toList (d :: s) :=
    fun _ => startsIgnoringCase_append_right (by rintro _ ⟨⟩; exact hc) hw.2 (d :: s)
  rw [isKeywordAt, isKeywordAt, hstarts, hstarts]
  cases hstart : startsIgnoringCase w.toList (d :: s) with
  | false => rfl
  | true =>
    -- The keyword ends in front of the mark.
    obtain ⟨v, u, hsplit, hv⟩ := exists_append_of_startsIgnoringCase hstart
    have hdrop : ∀ r, (d :: (s ++ c :: r)).drop w.length = u ++ c :: r := by
      intro r
      rw [← List.cons_append, hsplit, List.append_assoc, drop_of_lower_eq hv]
    rw [hdrop, hdrop]
    cases u <;> rfl

theorem endsAt_statementEndsAt {c : Char} (hc : c ≠ '-') : statementEndsAt.EndsAt c := by
  intro before d s r
  have hminus : (c == '-') = false := beq_eq_false_iff_ne.mpr hc
  rw [statementEndsAt, statementEndsAt, startsComment_cons, startsComment_cons]
  cases s with
  | nil => simp [hminus]
  | cons e s => cases s <;> rfl

/-- Where no place passes up to a character, none passes whatever follows it. -/
theorem PlaceTest.EndsAt.clear {test : PlaceTest} {c : Char} (htest : test.EndsAt c) {x : List Char}
    (h : firstCut? test (x ++ [c]) = none) (r : List Char) : start.Clear none test x (c :: r) := by
  have hclear := (clear_append_left.mp (firstCut?_eq_none_iff.mp h)).1
  rintro a b rfl hb ⟨d, u, hu, htop, hpass⟩
  obtain ⟨e, b, rfl⟩ := List.exists_cons_of_ne_nil hb
  obtain ⟨rfl, -⟩ := List.cons.inj hu
  refine hclear a (e :: b) rfl hb ⟨e, b ++ [c], rfl, htop, ?_⟩
  rw [List.cons_append] at hpass ⊢
  rwa [htest] at hpass

/-- A search goes on behind a text in which no place passes and one that hides all places. -/
theorem firstCut?_behind {test : PlaceTest} {p : Char → Bool} {x y t : List Char}
    (hx : start.after x = start) (hclear : start.Clear none test x (y ++ t)) (htest : test.Needs p)
    (hy : start.after y = start) (hhides : Hides p y)
    (hlast : ∀ before r, test (y.getLast?.or before) r = test none r) :
    firstCut? test (x ++ (y ++ t)) = (firstCut? test t).map fun (u, v) => (x ++ (y ++ u), v) := by
  have hbefore : ∀ before, start.parts test (y.getLast?.or before) t = parts test t := by
    intro before
    cases t with
    | nil => rfl
    | cons c t => rw [SchemaLint.parts, Nesting.parts, Nesting.parts, hlast]
  obtain ⟨q, qs, hq⟩ := List.exists_cons_of_ne_nil (parts_ne_nil test t)
  have hparts : parts test (x ++ (y ++ t)) = (x ++ (y ++ q)) :: qs := by
    rw [SchemaLint.parts, parts_append_of_clear hclear, hx, parts_append_of_hides htest hhides, hy,
      hbefore, hq, foldr_consHead, foldr_consHead]
  rw [firstCut?, firstCut?, hparts, hq]
  cases qs <;> rfl

end SchemaLint
