import Mathlib.Data.List.Basic
import SchemaLint.Balance
import SchemaLint.Proofs.Nesting.Balanced

/-!
# What counts as balanced

The check for unbalanced brackets goes on after an error, closing back over brackets of other kinds,
and reports each kind once. It reports nothing exactly when no quote is left open and the brackets
outside quotes form a word of the grammar `S → ε | ( S ) S | [ S ] S | { S } S` (`WellNested`).

A report is never taken back, so a run that ends without one had none at any point. Each closing
bracket of such a run therefore found an opening bracket of its kind on top of the stack, and what is
left to read always closes what is open (`Closes`).
-/

namespace SchemaLint

/-- A bracket of one of the three kinds. -/
def isBracket (c : Char) : Bool :=
  isOpener c || isCloser c

/-- Words of brackets in which every bracket has a partner of its kind. -/
inductive WellNested : List Char → Prop
  | nil : WellNested []
  | parentheses {s t : List Char} (hs : WellNested s) (ht : WellNested t) :
      WellNested ('(' :: (s ++ ')' :: t))
  | brackets {s t : List Char} (hs : WellNested s) (ht : WellNested t) :
      WellNested ('[' :: (s ++ ']' :: t))
  | braces {s t : List Char} (hs : WellNested s) (ht : WellNested t) :
      WellNested ('\x7b' :: (s ++ '\x7d' :: t))

/-! ## Kinds of brackets -/

namespace Delimiter

variable {c : Char} {d : Delimiter}

theorem ofOpener?_eq_some : ofOpener? c = some d ↔
    (c = '(' ∧ d = parenthesis) ∨ (c = '[' ∧ d = bracket) ∨ (c = '\x7b' ∧ d = brace) := by
  unfold ofOpener?
  grind

theorem ofCloser?_eq_some : ofCloser? c = some d ↔
    (c = ')' ∧ d = parenthesis) ∨ (c = ']' ∧ d = bracket) ∨ (c = '\x7d' ∧ d = brace) := by
  unfold ofCloser?
  grind

theorem isSome_ofOpener? (c : Char) : (ofOpener? c).isSome = isOpener c := by
  unfold ofOpener? isOpener
  grind

theorem isSome_ofCloser? (c : Char) : (ofCloser? c).isSome = isCloser c := by
  unfold ofCloser? isCloser
  grind

theorem ofQuote?_eq_none : ofQuote? c = none ↔ isQuote c = false := by
  unfold ofQuote? isQuote
  grind

end Delimiter

open Delimiter

/-- A pair of brackets of one kind around a well-nested word, and another one after it. -/
theorem WellNested.enclosed {o c : Char} {d : Delimiter} (ho : ofOpener? o = some d)
    (hc : ofCloser? c = some d) {s t : List Char} (hs : WellNested s) (ht : WellNested t) :
    WellNested (o :: (s ++ c :: t)) := by
  rcases ofOpener?_eq_some.mp ho with ⟨rfl, rfl⟩ | ⟨rfl, rfl⟩ | ⟨rfl, rfl⟩
  · obtain ⟨rfl, -⟩ | ⟨-, h⟩ | ⟨-, h⟩ := ofCloser?_eq_some.mp hc
    · exact .parentheses hs ht
    · cases h
    · cases h
  · obtain ⟨-, h⟩ | ⟨rfl, -⟩ | ⟨-, h⟩ := ofCloser?_eq_some.mp hc
    · cases h
    · exact .brackets hs ht
    · cases h
  · obtain ⟨-, h⟩ | ⟨-, h⟩ | ⟨rfl, -⟩ := ofCloser?_eq_some.mp hc
    · cases h
    · cases h
    · exact .braces hs ht

/-! ## Reports -/

namespace Balance

theorem report_ne_nil (problems : List Delimiter) (d : Delimiter) : report problems d ≠ [] := by
  unfold report
  split
  · next h =>
    rintro rfl
    cases h
  · simp

/-- Nothing is reported in the end only if there is nothing to report and was nothing before. -/
theorem foldl_report_eq_nil {ds problems : List Delimiter} :
    ds.foldl report problems = [] ↔ ds = [] ∧ problems = [] := by
  induction ds generalizing problems with
  | nil => simp
  | cons d ds ih => simp [ih, report_ne_nil]

section Step

variable {b : Balance} {c : Char} {d : Delimiter}

theorem step_opener (h : ofOpener? c = some d) :
    b.step c = { b with opened := d :: b.opened } := by
  unfold step
  rw [h]

theorem step_closer (ho : ofOpener? c = none) (hc : ofCloser? c = some d) : b.step c = b.close d := by
  unfold step
  rw [ho, hc]

theorem step_of_not_isBracket (h : isBracket c = false) : b.step c = b := by
  rw [isBracket, Bool.or_eq_false_iff, ← isSome_ofOpener?, ← isSome_ofCloser?,
    Option.isSome_eq_false_iff, Option.isSome_eq_false_iff, Option.isNone_iff_eq_none,
    Option.isNone_iff_eq_none] at h
  unfold step
  rw [h.1, h.2]

/-- Closing a bracket of the innermost kind reports nothing. -/
theorem close_top (outer problems : List Delimiter) :
    close { opened := d :: outer, problems } d = { opened := outer, problems } := by
  simp [close]

/-- Closing a bracket reports nothing only if the innermost open bracket is of its kind. -/
theorem exists_of_close (h : (b.close d).problems = []) :
    b.problems = [] ∧ ∃ outer, b.opened = d :: outer := by
  unfold close at h
  split at h
  · next hmem =>
    obtain ⟨hskipped, hproblems⟩ := foldl_report_eq_nil.mp h
    refine ⟨hproblems, ?_⟩
    cases hopened : b.opened with
    | nil =>
      rw [hopened] at hmem
      cases hmem
    | cons e outer =>
      by_cases he : e = d
      · exact ⟨outer, by rw [he]⟩
      · rw [hopened] at hskipped
        simp [he] at hskipped
  · exact absurd h (report_ne_nil b.problems d)

theorem problems_of_step (h : (b.step c).problems = []) : b.problems = [] := by
  unfold step at h
  split at h
  · exact h
  · exact (exists_of_close h).1
  · exact h

end Step

/-- What is reported stays reported. -/
theorem problems_of_foldl {b : Balance} {s : List Char} (h : (s.foldl step b).problems = []) :
    b.problems = [] := by
  induction s generalizing b with
  | nil => exact h
  | cons c s ih => exact problems_of_step (ih h)

theorem foldl_filter_isBracket (b : Balance) (s : List Char) :
    (s.filter isBracket).foldl step b = s.foldl step b := by
  induction s generalizing b with
  | nil => rfl
  | cons c s ih =>
    by_cases hc : isBracket c = true
    · rw [List.filter_cons_of_pos hc, List.foldl_cons, List.foldl_cons, ih]
    · rw [List.filter_cons_of_neg hc, List.foldl_cons, ih,
        step_of_not_isBracket (Bool.not_eq_true _ ▸ hc)]

/-! ## Well-nested words are read without a trace -/

theorem foldl_enclosed {o c : Char} {d : Delimiter} (ho : ofOpener? o = some d)
    (hno : ofOpener? c = none) (hc : ofCloser? c = some d) {s t : List Char}
    (hs : ∀ b : Balance, s.foldl step b = b) (ht : ∀ b : Balance, t.foldl step b = b)
    (b : Balance) : (o :: (s ++ c :: t)).foldl step b = b := by
  rw [List.foldl_cons, List.foldl_append, List.foldl_cons, step_opener ho, hs, step_closer hno hc,
    close_top, ht]

theorem foldl_of_wellNested {s : List Char} (h : WellNested s) (b : Balance) :
    s.foldl step b = b := by
  induction h generalizing b with
  | nil => rfl
  | parentheses _ _ ihs iht => exact foldl_enclosed rfl rfl rfl ihs iht b
  | brackets _ _ ihs iht => exact foldl_enclosed rfl rfl rfl ihs iht b
  | braces _ _ ihs iht => exact foldl_enclosed rfl rfl rfl ihs iht b

/-! ## What is read without a report is well-nested -/

/-- A word that closes the open brackets, the innermost first, with well-nested words between. -/
def Closes : List Delimiter → List Char → Prop
  | [], word => WellNested word
  | d :: outer, word =>
    ∃ s c t, word = s ++ c :: t ∧ WellNested s ∧ ofCloser? c = some d ∧ Closes outer t

/-- An opening bracket in front of a word that closes it joins the first well-nested word. -/
theorem Closes.opener {o : Char} {d : Delimiter} (ho : ofOpener? o = some d)
    {opened : List Delimiter} {word : List Char} (h : Closes (d :: opened) word) :
    Closes opened (o :: word) := by
  obtain ⟨s, c, t, rfl, hs, hc, ht⟩ := h
  cases opened with
  | nil => exact .enclosed ho hc hs ht
  | cons e outer =>
    obtain ⟨s', c', t', rfl, hs', hc', ht'⟩ := ht
    exact ⟨o :: (s ++ c :: s'), c', t', by simp, .enclosed ho hc hs hs', hc', ht'⟩

theorem closes_of_foldl {opened : List Delimiter} {word : List Char}
    (hword : ∀ c ∈ word, isBracket c = true)
    (h : word.foldl step { opened, problems := [] } = { opened := [], problems := [] }) :
    Closes opened word := by
  -- The induction is on what is left to read, for all brackets that may be open.
  induction word generalizing opened with
  | nil =>
    obtain rfl : opened = [] := congrArg Balance.opened h
    exact .nil
  | cons c word ih =>
    have hrest : ∀ x ∈ word, isBracket x = true := fun x hx => hword x (List.mem_cons_of_mem c hx)
    rw [List.foldl_cons] at h
    cases ho : ofOpener? c with
    | some d =>
      rw [step_opener ho] at h
      exact (ih hrest h).opener ho
    | none =>
      have hcloser : (ofCloser? c).isSome = true := by
        have hbracket := hword c List.mem_cons_self
        rw [isBracket, ← isSome_ofOpener?, ← isSome_ofCloser?, ho] at hbracket
        exact hbracket
      obtain ⟨d, hd⟩ := Option.isSome_iff_exists.mp hcloser
      rw [step_closer ho hd] at h
      -- A report would stay to the end, so there is none here.
      have hclean : (close { opened, problems := [] } d).problems = [] :=
        problems_of_foldl (congrArg Balance.problems h)
      obtain ⟨-, outer, rfl⟩ := exists_of_close hclean
      rw [close_top] at h
      exact ⟨[], c, word, rfl, .nil, hd, ih hrest h⟩

theorem foldl_eq_self_iff {word : List Char} (hword : ∀ c ∈ word, isBracket c = true) :
    word.foldl step { opened := [], problems := [] } = { opened := [], problems := [] } ↔
      WellNested word :=
  ⟨closes_of_foldl hword, fun h => foldl_of_wellNested h _⟩

end Balance

/-! ## Quotes left open -/

namespace Nesting

theorem quote_of_next {n : Nesting} {c q : Char} (h : (n.next c).quote = some q) :
    n.quote = some q ∨ isQuote q = true := by
  unfold next at h
  grind

/-- A reader is inside of nothing but quotes. -/
theorem isQuote_of_after {n : Nesting} (hn : ∀ q, n.quote = some q → isQuote q = true)
    (s : List Char) : ∀ q, (n.after s).quote = some q → isQuote q = true := by
  induction s generalizing n with
  | nil => exact hn
  | cons c s ih =>
    apply ih
    intro q hq
    rcases quote_of_next hq with hbefore | hquote
    · exact hn q hbefore
    · exact hquote

end Nesting

theorem isQuote_of_openQuote? {s : List Char} {q : Char} (h : openQuote? s = some q) :
    isQuote q = true := by
  refine Nesting.isQuote_of_after (n := .start) (fun q hq => ?_) s q h
  cases hq

theorem ofQuote?_openQuote?_eq_none (s : List Char) :
    (openQuote? s).bind ofQuote? = none ↔ openQuote? s = none := by
  cases h : openQuote? s with
  | none => simp
  | some q =>
    simp [ofQuote?_eq_none, isQuote_of_openQuote? h]

/-- Nothing is unbalanced in a text if and only if it leaves no quote open and its brackets outside
quotes are well-nested. -/
theorem unbalanced_eq_nil_iff (s : List Char) :
    unbalanced s = [] ↔ openQuote? s = none ∧ WellNested ((unquoted s).filter isBracket) := by
  unfold unbalanced
  dsimp only
  rw [Balance.foldl_report_eq_nil, List.append_eq_nil_iff, Option.toList_eq_nil_iff,
    ofQuote?_openQuote?_eq_none, List.reverse_eq_nil_iff, and_assoc,
    ← Balance.foldl_eq_self_iff (fun c hc => (List.mem_filter.mp hc).2),
    Balance.foldl_filter_isBracket]
  generalize (unquoted s).foldl Balance.step _ = b
  rw [Balance.mk.injEq]

end SchemaLint
