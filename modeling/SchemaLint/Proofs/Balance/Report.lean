import SchemaLint.Proofs.Balance.Partner

/-!
# What is reported as unbalanced

Each kind is reported once, and of the quotes only the one that the text ends inside of. A closing
bracket that closes back over brackets of other kinds throws them off the stack, and the check goes on
with what is left there. This hides nothing: the brackets of a kind that is not reported are balanced
when they are read alone (`unreported_kinds_balanced`).

A kind that is thrown off the stack is reported, so a kind that is not reported leaves the stack only
by closing brackets of its own. What the stack holds of it is therefore what a run over the brackets of
that kind alone has open (`Balance.foldl_only`).
-/

namespace SchemaLint

open Delimiter

namespace Delimiter

/-- The kinds of quotes. -/
def isQuoteKind : Delimiter → Bool
  | singleQuote | doubleQuote | backtick => true
  | parenthesis | bracket | brace => false

/-- Tells whether a character is a bracket of a kind. -/
def isOfKind (d : Delimiter) (c : Char) : Bool :=
  ofOpener? c == some d || ofCloser? c == some d

variable {c : Char} {d e : Delimiter}

theorem isQuoteKind_of_opener (h : ofOpener? c = some d) : d.isQuoteKind = false := by
  rcases ofOpener?_eq_some.mp h with ⟨-, rfl⟩ | ⟨-, rfl⟩ | ⟨-, rfl⟩ <;> rfl

theorem isQuoteKind_of_closer (h : ofCloser? c = some d) : d.isQuoteKind = false := by
  rcases ofCloser?_eq_some.mp h with ⟨-, rfl⟩ | ⟨-, rfl⟩ | ⟨-, rfl⟩ <;> rfl

theorem isQuoteKind_of_quote (h : ofQuote? c = some d) : d.isQuoteKind = true := by
  unfold ofQuote? at h
  grind [isQuoteKind]

theorem isOfKind_opener (h : ofOpener? c = some e) : d.isOfKind c = (e == d) := by
  have hcloser : ofCloser? c = none := by
    by_contra hsome
    obtain ⟨e', he'⟩ := Option.ne_none_iff_exists'.mp hsome
    simp [ofOpener?_of_closer he'] at h
  simp [isOfKind, h, hcloser]

theorem isOfKind_closer (h : ofCloser? c = some e) : d.isOfKind c = (e == d) := by
  simp [isOfKind, h, ofOpener?_of_closer h]

theorem isBracket_of_isOfKind (h : d.isOfKind c = true) : isBracket c = true := by
  rw [isOfKind, Bool.or_eq_true, beq_iff_eq, beq_iff_eq] at h
  rw [isBracket, ← isSome_ofOpener?, ← isSome_ofCloser?, Bool.or_eq_true]
  rcases h with h | h
  · left; rw [h]; rfl
  · right; rw [h]; rfl

end Delimiter

namespace Balance

/-! ## Reports -/

section Reports

variable {d e : Delimiter} {ds problems : List Delimiter}

theorem mem_report : e ∈ report problems d ↔ e = d ∨ e ∈ problems := by
  unfold report
  split
  · next h =>
    rw [List.contains_iff_mem] at h
    constructor
    · exact .inr
    · rintro (rfl | he)
      · exact h
      · exact he
  · simp [or_comm]

theorem mem_foldl_report : e ∈ ds.foldl report problems ↔ e ∈ ds ∨ e ∈ problems := by
  induction ds generalizing problems with
  | nil => simp
  | cons d ds ih => rw [List.foldl_cons, ih, mem_report, List.mem_cons]; tauto

theorem nodup_report (h : problems.Nodup) : (report problems d).Nodup := by
  unfold report
  split
  · exact h
  · next hd =>
    rw [List.contains_iff_mem] at hd
    exact List.nodup_append.mpr ⟨h, by simp, by grind⟩

theorem nodup_foldl_report (h : problems.Nodup) : (ds.foldl report problems).Nodup := by
  induction ds generalizing problems with
  | nil => exact h
  | cons d ds ih => exact ih (nodup_report h)

theorem filter_foldl_report (p : Delimiter → Bool) :
    (ds.foldl report problems).filter p = (ds.filter p).foldl report (problems.filter p) := by
  induction ds generalizing problems with
  | nil => rfl
  | cons d ds ih =>
    rw [List.foldl_cons, ih, List.filter_cons]
    by_cases hp : p d = true
    · rw [if_pos hp, List.foldl_cons]
      congr 1
      unfold report
      by_cases hd : d ∈ problems <;> simp [hd, hp]
    · rw [if_neg hp]
      congr 1
      unfold report
      split <;> simp [hp]

end Reports

/-! ## Closing brackets -/

section Close

variable {b : Balance} {c : Char} {d e : Delimiter} {s : List Char}

/-- A closing bracket takes the nearest open bracket of its kind off the stack, and reports those on
top of it. -/
theorem close_of_mem (h : e ∈ b.opened) : ∃ inner outer, b.opened = inner ++ e :: outer ∧
    b.close e = { opened := outer, problems := inner.reverse.foldl report b.problems } := by
  obtain ⟨inner, outer, hopened, hinner⟩ := List.eq_append_cons_of_mem h
  have hne : ∀ x ∈ inner, (x != e) = true := by
    intro x hx
    rw [bne_iff_ne]
    rintro rfl
    exact hinner hx
  refine ⟨inner, outer, hopened, ?_⟩
  rw [close, if_pos (List.contains_iff_mem.mpr h), hopened, List.dropWhile_append_of_pos hne,
    List.takeWhile_append_of_pos hne]
  simp

theorem close_of_not_mem (h : e ∉ b.opened) :
    b.close e = { b with problems := report b.problems e } := by
  rw [close, if_neg (by rwa [List.contains_iff_mem])]

/-- Every kind on the stack and every kind reported is a kind of brackets, and is reported once. -/
structure Sound (b : Balance) : Prop where
  nodup : b.problems.Nodup
  opened : ∀ d ∈ b.opened, d.isQuoteKind = false
  problems : ∀ d ∈ b.problems, d.isQuoteKind = false

theorem Sound.close (h : b.Sound) (he : e.isQuoteKind = false) : (b.close e).Sound := by
  by_cases hmem : e ∈ b.opened
  · obtain ⟨inner, outer, hopened, hclose⟩ := close_of_mem hmem
    have hkinds := h.opened
    rw [hopened] at hkinds
    rw [hclose]
    refine ⟨nodup_foldl_report h.nodup, fun d hd => hkinds d (by simp [hd]), fun d hd => ?_⟩
    rcases mem_foldl_report.mp hd with hd | hd
    · exact hkinds d (List.mem_append_left _ (List.mem_reverse.mp hd))
    · exact h.problems d hd
  · rw [close_of_not_mem hmem]
    refine ⟨nodup_report h.nodup, h.opened, fun d hd => ?_⟩
    rcases mem_report.mp hd with rfl | hd
    · exact he
    · exact h.problems d hd

theorem Sound.step (h : b.Sound) (c : Char) : (b.step c).Sound := by
  unfold Balance.step
  split
  · next d _ ho =>
    refine ⟨h.nodup, fun x hx => ?_, h.problems⟩
    rcases List.mem_cons.mp hx with rfl | hx
    · exact isQuoteKind_of_opener ho
    · exact h.opened x hx
  · next hc => exact h.close (isQuoteKind_of_closer hc)
  · exact h

theorem Sound.foldl (h : b.Sound) (s : List Char) : (s.foldl Balance.step b).Sound := by
  induction s generalizing b with
  | nil => exact h
  | cons c s ih => exact ih (h.step c)

/-! ## One kind alone -/

theorem mem_problems_step (h : d ∈ b.problems) : d ∈ (b.step c).problems := by
  unfold Balance.step
  split
  · exact h
  · next e _ _ =>
    by_cases he : e ∈ b.opened
    · obtain ⟨inner, outer, -, hclose⟩ := close_of_mem he
      rw [hclose]
      exact mem_foldl_report.mpr (.inr h)
    · rw [close_of_not_mem he]
      exact mem_report.mpr (.inr h)
  · exact h

theorem mem_problems_foldl (h : d ∈ b.problems) : d ∈ (s.foldl step b).problems := by
  induction s generalizing b with
  | nil => exact h
  | cons c s ih => exact ih (mem_problems_step h)

/-- The brackets of one kind on the stack, with nothing reported. -/
def only (b : Balance) (d : Delimiter) : Balance :=
  { opened := b.opened.filter (· == d), problems := [] }

theorem close_only (h : d ∉ (b.close e).problems) :
    (b.close e).only d = if e = d then (b.only d).close e else b.only d := by
  by_cases he : e ∈ b.opened
  · obtain ⟨inner, outer, hopened, hclose⟩ := close_of_mem he
    rw [hclose] at h ⊢
    -- What stands on top of the bracket is reported, so nothing there is of the kind.
    have hinner : inner.filter (· == d) = [] := by
      rw [List.filter_eq_nil_iff]
      intro x hx hxd
      rw [beq_iff_eq] at hxd
      subst x
      exact h (mem_foldl_report.mpr (.inl (List.mem_reverse.mpr hx)))
    by_cases hed : e = d
    · subst e
      have honly : b.only d = { opened := d :: outer.filter (· == d), problems := [] } := by
        simp [only, hopened, hinner]
      rw [if_pos rfl, honly, close_top]
      rfl
    · rw [if_neg hed]
      simp [only, hopened, hinner, hed]
  · rw [close_of_not_mem he] at h ⊢
    have hed : e ≠ d := by
      rintro rfl
      exact h (mem_report.mpr (.inl rfl))
    rw [if_neg hed]
    rfl

/-- As long as a kind is not reported, a step changes what the stack holds of it only if the character
is of that kind, and then as it would if there were no other kinds. -/
theorem step_only (h : d ∉ (b.step c).problems) :
    (b.step c).only d = if d.isOfKind c then (b.only d).step c else b.only d := by
  cases ho : ofOpener? c with
  | some e =>
    rw [step_opener ho, step_opener ho, isOfKind_opener ho]
    by_cases he : e = d <;> simp [only, he]
  | none =>
    cases hc : ofCloser? c with
    | some e =>
      rw [step_closer ho hc] at h ⊢
      rw [step_closer ho hc, isOfKind_closer hc, close_only h]
      simp
    | none =>
      have hkind : d.isOfKind c = false := by simp [isOfKind, ho, hc]
      simp [step, ho, hc, hkind]

theorem foldl_only (h : d ∉ (s.foldl step b).problems) :
    (s.foldl step b).only d = (s.filter d.isOfKind).foldl step (b.only d) := by
  induction s generalizing b with
  | nil => rfl
  | cons c s ih =>
    have hstep : d ∉ (b.step c).problems := fun hd => h (mem_problems_foldl (s := s) hd)
    rw [List.foldl_cons, ih h, step_only hstep, List.filter_cons]
    split <;> rfl

end Close

end Balance

/-- Each kind is reported at most once; the quotes reported are the one that the text leaves open, if
it leaves one open; and the brackets of a kind that is not reported are, in order and without those of
other kinds, a word in which every bracket has a partner. -/
theorem unreported_kinds_balanced (s : List Char) :
    (unbalanced s).Nodup ∧
      (unbalanced s).filter isQuoteKind = ((openQuote? s).bind ofQuote?).toList ∧
      ∀ d, d ∉ unbalanced s → WellNested ((unquoted s).filter d.isOfKind) := by
  have hsound : ((unquoted s).foldl Balance.step { opened := [], problems := [] }).Sound :=
    Balance.Sound.foldl ⟨List.nodup_nil, by simp, by simp⟩ (unquoted s)
  unfold unbalanced
  dsimp only
  refine ⟨Balance.nodup_foldl_report hsound.nodup, ?_, fun d hd => ?_⟩
  · have hbrackets : ∀ ds : List Delimiter, (∀ d ∈ ds, d.isQuoteKind = false) →
        ds.filter isQuoteKind = [] := by
      intro ds h
      simp only [List.filter_eq_nil_iff, Bool.not_eq_true]
      exact h
    rw [Balance.filter_foldl_report, List.filter_append, List.filter_reverse,
      hbrackets _ hsound.problems, hbrackets _ hsound.opened]
    cases hquote : (openQuote? s).bind ofQuote? with
    | none => rfl
    | some d =>
      obtain ⟨q, -, hq⟩ := Option.bind_eq_some_iff.mp hquote
      simp [isQuoteKind_of_quote hq, Balance.report]
  · rw [Balance.mem_foldl_report, List.mem_append, List.mem_reverse, not_or, not_or] at hd
    obtain ⟨⟨-, hopened⟩, hproblems⟩ := hd
    have hrun := Balance.foldl_only hproblems
    have hend : ((unquoted s).foldl Balance.step { opened := [], problems := [] }).only d =
        { opened := [], problems := [] } := by
      rw [Balance.only, List.filter_eq_nil_iff.mpr]
      rintro x hx hxd
      exact hopened (eq_of_beq hxd ▸ hx)
    have hword : ∀ c ∈ (unquoted s).filter d.isOfKind, isBracket c = true :=
      fun c hc => isBracket_of_isOfKind (List.mem_filter.mp hc).2
    exact (Balance.foldl_eq_self_iff hword).mp (hrun.symm.trans hend)

/-- A parenthesis that closes over a square bracket: the one kind is matched, the other reported. -/
theorem unreported_kinds_balanced_skipped :
    let s := "f([a) `é".toList
    unbalanced s = [.bracket, .backtick] ∧ Delimiter.parenthesis ∉ unbalanced s ∧
      WellNested ((unquoted s).filter parenthesis.isOfKind) := by
  intro s
  have hreport : unbalanced s = [.bracket, .backtick] := by decide
  have hparenthesis : Delimiter.parenthesis ∉ unbalanced s := by simp [hreport]
  exact ⟨hreport, hparenthesis, (unreported_kinds_balanced s).2.2 .parenthesis hparenthesis⟩

end SchemaLint
