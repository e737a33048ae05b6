import SchemaLint.Proofs.Balance.Partner
import SchemaLint.Proofs.Nesting.Place

/-!
# Cuts of balanced texts

A text in which nothing is unbalanced can be cut at any place outside quotes and brackets, and nothing
is unbalanced in either part (`unbalanced_of_append`). The check has a stack of kinds and its reader a
depth; as long as nothing is reported the stack is as high as the depth (`Balance.length_opened`), so
at such a place nothing is open.

From this follow the ways in which a text is cut: at separators (`unbalanced_of_mem_splitTop`), at the
first of them (`unbalanced_of_cutAtTop?`), at the partner of a bracket
(`unbalanced_of_cutAtPartner?`), and at the blanks at its ends (`unbalanced_trim`).
-/

namespace SchemaLint

open Nesting Delimiter Text

/-! ## The stack and the depth -/

namespace Balance

section Opened

variable {n : Nesting} {b : Balance} {c : Char} {s : List Char}

theorem length_opened_step (hdepth : b.opened.length = n.depth) (hquoted : (n.mark c).quoted = false)
    (h : (b.step c).problems = []) : (b.step c).opened.length = (n.next c).depth := by
  have hquote := quote_eq_none_of_mark hquoted
  cases ho : ofOpener? c with
  | some d =>
    have hopener : isOpener c = true := by rw [← isSome_ofOpener?, ho]; rfl
    rw [step_opener ho, depth_next_opener hquote hopener, List.length_cons, hdepth]
  | none =>
    cases hc : ofCloser? c with
    | some d =>
      have hcloser : isCloser c = true := by rw [← isSome_ofCloser?, hc]; rfl
      rw [step_closer ho hc] at h ⊢
      obtain ⟨-, outer, hopened⟩ := exists_of_close h
      rw [depth_next_closer hquote hcloser, ← hdepth, close, hopened]
      simp
    | none =>
      have hbracket : isBracket c = false := by
        rw [isBracket, ← isSome_ofOpener?, ← isSome_ofCloser?, ho, hc]
        rfl
      have hlevel : Levels n [c] := levels_singleton (by simp [hbracket])
      rw [step_of_not_isBracket hbracket, hdepth]
      exact hlevel.depth_eq.symm

/-- As long as nothing is reported, the brackets on the stack are those that a reader counts. -/
theorem length_opened (hdepth : b.opened.length = n.depth)
    (h : ((n.brackets s).foldl step b).problems = []) :
    ((n.brackets s).foldl step b).opened.length = (n.after s).depth := by
  induction s generalizing n b with
  | nil => exact hdepth
  | cons c s ih =>
    rw [brackets_cons] at h ⊢
    split at h
    · next hc =>
      rw [if_pos hc]
      exact ih (length_opened_step hdepth hc.1 (problems_of_foldl h)) h
    · next hc =>
      rw [if_neg hc]
      exact ih (hdepth.trans (levels_singleton hc).depth_eq.symm) h

end Opened

end Balance

/-! ## Places outside quotes and brackets -/

section Places

variable {a b s t x y gap : List Char} {c sep : Char}

/-- In front of a plain character outside quotes and brackets a reader is where he started. -/
theorem after_eq_start_of_isTop (hc : isPlain c = true)
    (htop : ((start.after a).mark c).isTop = true) : start.after a = start := by
  simp only [Mark.isTop, Bool.and_eq_true, beq_iff_eq, Bool.not_eq_true'] at htop
  have hafter : start.after a = atDepth (start.after a).depth :=
    after_eq_atDepth 0 (quote_eq_none_of_mark htop.2)
  have hdepth : (start.after a).depth = 0 := by
    rw [hafter, mark_plain _ hc] at htop
    exact htop.1
  rw [hafter, hdepth]
  rfl

/-- Nothing is unbalanced in the two parts of a text of which this holds, if they meet outside quotes
and brackets. -/
theorem unbalanced_of_append (h : unbalanced (a ++ b) = []) (ha : start.after a = start) :
    unbalanced a = [] ∧ unbalanced b = [] := by
  obtain ⟨hquote, hword⟩ := (unbalanced_eq_nil_iff (a ++ b)).mp h
  rw [← brackets_start, brackets_append, ha] at hword
  have hbrackets : ∀ u : List Char, ∀ e ∈ start.brackets u, isBracket e = true :=
    fun u e he => (List.mem_filter.mp he).2
  have hrun := Balance.foldl_of_wellNested hword { opened := [], problems := [] }
  rw [List.foldl_append] at hrun
  -- Nothing was reported, so the stack after the first part is as high as the depth there.
  have hclean : ((start.brackets a).foldl Balance.step { opened := [], problems := [] }).problems = [] :=
    Balance.problems_of_foldl (congrArg Balance.problems hrun)
  have hopened := Balance.length_opened (n := start) rfl hclean
  rw [ha] at hopened
  have hfirst : (start.brackets a).foldl Balance.step { opened := [], problems := [] } =
      { opened := [], problems := [] } := by
    rw [Balance.mk.injEq]
    exact ⟨List.length_eq_zero_iff.mp hopened, hclean⟩
  rw [hfirst] at hrun
  have hafter : openQuote? b = openQuote? (a ++ b) := by
    rw [openQuote?, openQuote?, after_append, ha]
  refine ⟨(unbalanced_eq_nil_iff a).mpr ⟨?_, (Balance.foldl_eq_self_iff (hbrackets a)).mp hfirst⟩,
    (unbalanced_eq_nil_iff b).mpr ⟨hafter.trans hquote, (Balance.foldl_eq_self_iff (hbrackets b)).mp hrun⟩⟩
  rw [openQuote?, ha]
  rfl

theorem unbalanced_of_append_plain (hc : isPlain c = true) (h : unbalanced (a ++ c :: b) = [])
    (ha : start.after a = start) : unbalanced a = [] ∧ unbalanced b = [] := by
  obtain ⟨hfirst, hsecond⟩ := unbalanced_of_append h ha
  rw [← List.singleton_append] at hsecond
  have hplain : start.after [c] = start := next_plain 0 hc
  exact ⟨hfirst, (unbalanced_of_append hsecond hplain).2⟩

/-! ## Separators -/

theorem hides_of_clear (h : start.Clear none (standsAt sep) s t) : Hides (· == sep) s := by
  intro m hm htop
  obtain ⟨a, c, b, rfl, rfl⟩ := exists_of_mem_marks hm
  rw [mark_ch, beq_eq_false_iff_ne]
  rintro rfl
  exact h a (c :: b) rfl (List.cons_ne_nil c b) ⟨c, b ++ t, rfl, htop, by simp [standsAt]⟩

/-- What stands before the first separator is a text of its own, and so is what stands behind it. -/
theorem exists_of_firstCut?_standsAt (hsep : isPlain sep = true)
    (h : firstCut? (standsAt sep) s = some (x, y)) :
    ∃ t, y = sep :: t ∧ s = x ++ sep :: t ∧ start.after x = start ∧ Hides (· == sep) x := by
  obtain ⟨rfl, ⟨c, t, rfl, htop, htest⟩, hclear⟩ := firstCut?_eq_some_iff.mp h
  obtain rfl : c = sep := by simpa [standsAt] using htest
  exact ⟨t, rfl, rfl, after_eq_start_of_isTop hsep htop, hides_of_clear hclear⟩

/-- A text without separators outside quotes and brackets is its only segment; any other is cut at
the first separator. -/
theorem segments_cases (hsep : isPlain sep = true) (s : List Char) :
    (Hides (· == sep) s ∧ segments sep s = [s]) ∨
      ∃ x t, s = x ++ sep :: t ∧ start.after x = start ∧ segments sep s = x :: segments sep t := by
  cases hcut : firstCut? (standsAt sep) s with
  | none =>
    have hhides := hides_of_clear (firstCut?_eq_none_iff.mp hcut)
    exact .inl ⟨hhides, segments_of_hides hhides⟩
  | some cut =>
    obtain ⟨t, -, rfl, hafter, hhides⟩ := exists_of_firstCut?_standsAt hsep hcut
    exact .inr ⟨cut.1, t, rfl, hafter, segments_append_sep hsep hafter hhides t⟩

theorem unbalanced_of_mem_segments (hsep : isPlain sep = true) (h : unbalanced s = [])
    (hx : x ∈ segments sep s) : unbalanced x = [] := by
  -- What is left behind the first separator is shorter.
  induction hlen : s.length using Nat.strongRecOn generalizing s with
  | ind n ih =>
    rcases segments_cases hsep s with ⟨-, hone⟩ | ⟨y, t, rfl, hafter, hmore⟩
    · rw [hone] at hx
      rwa [List.mem_singleton.mp hx]
    · obtain ⟨hfirst, hlater⟩ := unbalanced_of_append_plain hsep h hafter
      rw [hmore] at hx
      rcases List.mem_cons.mp hx with rfl | hx
      · exact hfirst
      · have hshorter : t.length < n := by
          rw [← hlen, List.length_append, List.length_cons]
          omega
        exact ih t.length hshorter hlater hx rfl

theorem unbalanced_of_cutAtTop? (hsep : isPlain sep = true) (h : unbalanced s = [])
    (hcut : cutAtTop? sep s = some (x, y)) : unbalanced x = [] ∧ unbalanced y = [] := by
  obtain ⟨⟨x', y'⟩, hfirst, heq⟩ := Option.map_eq_some_iff.mp hcut
  obtain ⟨rfl, rfl⟩ := Prod.mk.inj heq
  obtain ⟨t, rfl, rfl, hafter, -⟩ := exists_of_firstCut?_standsAt hsep hfirst
  exact unbalanced_of_append_plain hsep h hafter

/-! ## Blanks at the ends -/

theorem brackets_eq_nil_of_plain {n : Nesting} (h : ∀ e ∈ s, isPlain e = true) :
    n.brackets s = [] := by
  induction s generalizing n with
  | nil => rfl
  | cons e s ih =>
    have he := h e List.mem_cons_self
    simp only [isPlain, Bool.and_eq_true, Bool.not_eq_true'] at he
    rw [brackets_cons, if_neg (by simp [isBracket, he.1.2, he.2])]
    exact ih fun d hd => h d (List.mem_cons_of_mem e hd)

/-- A plain character neither opens nor closes a quote. -/
theorem quote_next_plain {n : Nesting} (hn : ∀ q, n.quote = some q → isQuote q = true)
    (hc : isPlain c = true) : (n.next c).quote = n.quote := by
  simp only [isPlain, Bool.and_eq_true, Bool.not_eq_true'] at hc
  have hne : ∀ q, n.quote = some q → c ≠ q := by
    rintro q hq rfl
    rw [hn c hq] at hc
    cases hc.1.1
  unfold Nesting.next
  grind

theorem quote_after_plain {n : Nesting} (hn : ∀ q, n.quote = some q → isQuote q = true)
    (h : ∀ e ∈ s, isPlain e = true) : (n.after s).quote = n.quote := by
  induction s generalizing n with
  | nil => rfl
  | cons e s ih =>
    have hnext := quote_next_plain hn (h e List.mem_cons_self)
    rw [after_cons, ih (by rwa [hnext]) fun d hd => h d (List.mem_cons_of_mem e hd), hnext]

theorem unbalanced_append_plain (h : ∀ e ∈ gap, isPlain e = true) :
    unbalanced (s ++ gap) = [] ↔ unbalanced s = [] := by
  have hquote : openQuote? (s ++ gap) = openQuote? s := by
    rw [openQuote?, after_append]
    exact quote_after_plain (fun q hq => isQuote_of_openQuote? hq) h
  rw [unbalanced_eq_nil_iff, unbalanced_eq_nil_iff, hquote, ← brackets_start, ← brackets_start,
    brackets_append, brackets_eq_nil_of_plain h, List.append_nil]

theorem unbalanced_plain_append (h : ∀ e ∈ gap, isPlain e = true) :
    unbalanced (gap ++ s) = [] ↔ unbalanced s = [] := by
  have hafter : start.after gap = start := (Balanced.of_plain h).after_eq 0
  rw [unbalanced_eq_nil_iff, unbalanced_eq_nil_iff, openQuote?, after_append, hafter, ← openQuote?,
    ← brackets_start, ← brackets_start, brackets_append, brackets_eq_nil_of_plain h, hafter,
    List.nil_append]

theorem unbalanced_trim : unbalanced (trim s) = [] ↔ unbalanced s = [] := by
  obtain ⟨gap, gap', hgap, hgap', hs⟩ := exists_append_trim s
  conv_rhs => rw [hs]
  rw [unbalanced_append_plain fun e he => isPlain_of_isBlank (hgap' e he),
    unbalanced_plain_append fun e he => isPlain_of_isBlank (hgap e he)]

/-- The segments of a text in which nothing is unbalanced are such texts. -/
theorem unbalanced_of_mem_splitTop (hsep : isPlain sep = true) (h : unbalanced s = [])
    (hx : x ∈ splitTop sep s) : unbalanced x = [] := by
  obtain ⟨y, hy, rfl⟩ := List.mem_map.mp (List.mem_filter.mp hx).1
  exact unbalanced_trim.mpr (unbalanced_of_mem_segments hsep h hy)

/-! ## Partners -/

/-- What stands between an opening bracket and its partner in a text in which nothing is unbalanced is
such a text. -/
theorem unbalanced_of_cutAtPartner? (h : unbalanced (a ++ s) = [])
    (hcut : (start.after a).cutAtPartner? s = some (x, y)) : unbalanced x = [] := by
  cases s with
  | nil => cases hcut
  | cons o r =>
    have hhead : isOpener o = true ∧ ((start.after a).mark o).quoted = false := by
      rw [Nesting.cutAtPartner?] at hcut
      split at hcut
      · next ho => simpa using ho
      · cases hcut
    obtain ⟨x', c, t, rfl, hkind, -, hx'⟩ := exists_partner h rfl hhead.1 hhead.2
    have hc : isCloser c = true := by rw [← isSome_ofCloser?, hkind, isSome_ofOpener?, hhead.1]
    obtain ⟨d, hafter, -⟩ := exists_next_opener hhead.1 hhead.2
    rw [hafter, cutAtPartner?_atDepth d hhead.1 hc (balanced_of_unbalanced hx')] at hcut
    rwa [← (Prod.mk.inj (Option.some.inj hcut)).1]

end Places

end SchemaLint
