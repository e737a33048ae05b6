import SchemaLint.Proofs.Balance
import SchemaLint.Proofs.Nesting.Cut

/-!
# Partners of brackets in balanced texts

The partner of a bracket is found by depth alone, while balance is checked kind by kind. In a text in
which nothing is unbalanced the two agree (`partners_of_balanced`): each opening bracket has a partner
of its kind, what stands between them is balanced again, and each closing bracket is the partner of
one opening bracket.

The grammar of well-nested words gives the partners in the word of brackets
(`WellNested.exists_closer`, `WellNested.exists_opener`), and a cut of that word is a cut of the text
(`Nesting.exists_of_brackets`). A text in which nothing is unbalanced leaves its reader at the depth at
which he came (`balanced_of_unbalanced`), so the first closing bracket of the depth is the partner.
-/

namespace SchemaLint

open Nesting Delimiter Text

/-! ## Partners in words of brackets -/

/-- Words of brackets in which every bracket has a partner, of its kind or of another. -/
inductive Paired : List Char → Prop
  | nil : Paired []
  | enclosed {o c : Char} {s t : List Char} (ho : isOpener o = true) (hc : isCloser c = true)
      (hs : Paired s) (ht : Paired t) : Paired (o :: (s ++ c :: t))

theorem Delimiter.ofOpener?_of_closer {c : Char} {d : Delimiter} (h : ofCloser? c = some d) :
    ofOpener? c = none := by
  have hcloser : isCloser c = true := by rw [← isSome_ofCloser?, h]; rfl
  have hopener := isSome_ofOpener? c
  rw [(isCloser_excludes hcloser).2] at hopener
  exact Option.isNone_iff_eq_none.mp (Option.isSome_eq_false_iff.mp hopener)

namespace WellNested

/-- The three kinds of brackets are one case. -/
@[elab_as_elim]
theorem induction {P : ∀ word, WellNested word → Prop} (nil : P [] .nil)
    (enclosed : ∀ {o c : Char} {d : Delimiter} {s t : List Char} (ho : ofOpener? o = some d)
      (hc : ofCloser? c = some d) (hs : WellNested s) (ht : WellNested t),
      P s hs → P t ht → P (o :: (s ++ c :: t)) (.enclosed ho hc hs ht))
    {word : List Char} (h : WellNested word) : P word h := by
  induction h with
  | nil => exact nil
  | parentheses hs ht ihs iht => exact enclosed (d := .parenthesis) rfl rfl hs ht ihs iht
  | brackets hs ht ihs iht => exact enclosed (d := .bracket) rfl rfl hs ht ihs iht
  | braces hs ht ihs iht => exact enclosed (d := .brace) rfl rfl hs ht ihs iht

variable {word : List Char}

theorem paired (h : WellNested word) : Paired word := by
  induction h using WellNested.induction with
  | nil => exact .nil
  | enclosed ho hc _ _ ihs iht =>
    exact .enclosed (by rw [← isSome_ofOpener?, ho]; rfl) (by rw [← isSome_ofCloser?, hc]; rfl) ihs iht

/-- Behind an opening bracket of a well-nested word comes a well-nested word and a closing bracket of
the same kind. -/
theorem exists_closer (h : WellNested word) {a r : List Char} {o : Char} {d : Delimiter}
    (hword : word = a ++ o :: r) (ho : ofOpener? o = some d) :
    ∃ x c t, r = x ++ c :: t ∧ ofCloser? c = some d ∧ WellNested x := by
  induction h using WellNested.induction generalizing a r with
  | nil => cases a <;> cases hword
  | @enclosed o' c' d' s t ho' hc' hs ht ihs iht =>
    cases a with
    | nil =>
      obtain ⟨rfl, rfl⟩ := List.cons.inj hword
      obtain rfl : d' = d := Option.some.inj (ho'.symm.trans ho)
      exact ⟨s, c', t, rfl, hc', hs⟩
    | cons e a =>
      obtain ⟨-, hrest⟩ := List.cons.inj hword
      have hne : c' ≠ o := by
        rintro rfl
        rw [ofOpener?_of_closer hc'] at ho
        cases ho
      rcases List.append_eq_append_iff.mp hrest with ⟨z, -, hz⟩ | ⟨z, hz, hr⟩
      · -- The bracket stands in the second word.
        cases z with
        | nil => exact absurd (List.cons.inj hz).1 hne
        | cons e z => exact iht (List.cons.inj hz).2
      · cases z with
        | nil => exact absurd (List.cons.inj hr).1.symm hne
        | cons e z =>
          obtain ⟨rfl, rfl⟩ := List.cons.inj hr
          obtain ⟨x, c, u, rfl, hc, hx⟩ := ihs hz
          exact ⟨x, c, u ++ c' :: t, by simp, hc, hx⟩

/-- In front of a closing bracket of a well-nested word comes an opening bracket of the same kind and
a well-nested word. -/
theorem exists_opener (h : WellNested word) {a r : List Char} {c : Char} {d : Delimiter}
    (hword : word = a ++ c :: r) (hc : ofCloser? c = some d) :
    ∃ b o x, a = b ++ o :: x ∧ ofOpener? o = some d ∧ WellNested x := by
  induction h using WellNested.induction generalizing a r with
  | nil => cases a <;> cases hword
  | @enclosed o' c' d' s t ho' hc' hs ht ihs iht =>
    cases a with
    | nil =>
      obtain ⟨rfl, -⟩ := List.cons.inj hword
      rw [ofOpener?_of_closer hc] at ho'
      cases ho'
    | cons e a =>
      obtain ⟨rfl, hrest⟩ := List.cons.inj hword
      have hpartner : c' = c → d' = d := by
        rintro rfl
        exact Option.some.inj (hc'.symm.trans hc)
      rcases List.append_eq_append_iff.mp hrest with ⟨z, rfl, hz⟩ | ⟨z, rfl, hz⟩
      · cases z with
        | nil =>
          obtain rfl := hpartner (List.cons.inj hz).1
          exact ⟨[], o', s, by simp, ho', hs⟩
        | cons e z =>
          obtain ⟨rfl, rfl⟩ := List.cons.inj hz
          obtain ⟨b, o, x, rfl, ho, hx⟩ := iht rfl
          exact ⟨o' :: (s ++ c' :: b), o, x, by simp, ho, hx⟩
      · cases z with
        | nil =>
          obtain rfl := hpartner (List.cons.inj hz).1.symm
          exact ⟨[], o', a, rfl, ho', by simpa using hs⟩
        | cons e z =>
          obtain ⟨rfl, -⟩ := List.cons.inj hz
          obtain ⟨b, o, x, rfl, ho, hx⟩ := ihs rfl
          exact ⟨o' :: b, o, x, rfl, ho, hx⟩

end WellNested

/-! ## The brackets of a text -/

namespace Nesting

/-- The brackets outside quotes of a text that a reader has in front of him. -/
def brackets (n : Nesting) (s : List Char) : List Char :=
  (((n.marks s).filter (!·.quoted)).map (·.ch)).filter isBracket

theorem brackets_start (s : List Char) : start.brackets s = (unquoted s).filter isBracket :=
  rfl

section Brackets

variable {n : Nesting} {c : Char} {s : List Char}

theorem brackets_cons : n.brackets (c :: s) =
    if (n.mark c).quoted = false ∧ isBracket c = true then c :: (n.next c).brackets s
    else (n.next c).brackets s := by
  unfold brackets
  rw [marks, List.filter_cons]
  cases hquoted : (n.mark c).quoted with
  | true => simp
  | false => simp [mark_ch, List.filter_cons]

theorem brackets_append (t : List Char) :
    n.brackets (s ++ t) = n.brackets s ++ (n.after s).brackets t := by
  unfold brackets
  rw [marks_append, List.filter_append, List.map_append, List.filter_append]

/-- A cut of the brackets of a text at one of them is a cut of the text. -/
theorem exists_of_brackets {u v : List Char} (h : n.brackets s = u ++ c :: v) :
    ∃ x t, s = x ++ c :: t ∧ n.brackets x = u ∧ ((n.after x).mark c).quoted = false ∧
      ((n.after x).next c).brackets t = v := by
  induction s generalizing n u with
  | nil => cases u <;> cases h
  | cons e s ih =>
    rw [brackets_cons] at h
    split at h
    · next he =>
      cases u with
      | nil =>
        obtain ⟨rfl, rfl⟩ := List.cons.inj h
        exact ⟨[], s, rfl, rfl, he.1, rfl⟩
      | cons e' u =>
        obtain ⟨rfl, hrest⟩ := List.cons.inj h
        obtain ⟨x, t, rfl, hx, hc, ht⟩ := ih hrest
        exact ⟨e :: x, t, rfl, by rw [brackets_cons, if_pos he, hx], hc, ht⟩
    · next he =>
      obtain ⟨x, t, rfl, hx, hc, ht⟩ := ih h
      exact ⟨e :: x, t, rfl, by rw [brackets_cons, if_neg he, hx], hc, ht⟩

theorem quote_eq_none_of_mark (h : (n.mark c).quoted = false) : n.quote = none := by
  unfold mark at h
  split at h
  · cases h
  · assumption

end Brackets

/-- Two readers know the same of the quote that they may be in. -/
structure Alike (m n : Nesting) : Prop where
  quote_eq : m.quote = n.quote
  escaped_eq : m.escaped = n.escaped

namespace Alike

variable {m n : Nesting}

theorem quoted_eq (h : Alike m n) (c : Char) : (m.mark c).quoted = (n.mark c).quoted := by
  unfold mark
  rw [h.quote_eq]
  split
  · rfl
  · split
    · rfl
    · split <;> rfl

theorem next (h : Alike m n) (c : Char) : Alike (m.next c) (n.next c) := by
  obtain ⟨hquote, hescaped⟩ := h
  constructor
  · unfold Nesting.next
    grind
  · unfold Nesting.next
    grind

theorem after (h : Alike m n) (s : List Char) : Alike (m.after s) (n.after s) := by
  induction s generalizing m n with
  | nil => exact h
  | cons c s ih => exact ih (h.next c)

theorem brackets_eq (h : Alike m n) (s : List Char) : m.brackets s = n.brackets s := by
  induction s generalizing m n with
  | nil => rfl
  | cons c s ih => rw [brackets_cons, brackets_cons, h.quoted_eq, ih (h.next c)]

end Alike

theorem alike_start (d : Nat) : Alike (atDepth d) start :=
  ⟨rfl, rfl⟩

/-! ## Depths -/

/-- A text leaves its reader at the depth at which he came and does not lead below it. -/
structure Levels (n : Nesting) (s : List Char) : Prop where
  depth_eq : (n.after s).depth = n.depth
  le_depth : ∀ m ∈ n.marks s, n.depth ≤ m.depth

section Levels

variable {n : Nesting} {c o : Char} {s t : List Char}

theorem levels_nil : Levels n [] :=
  ⟨rfl, fun m hm => by simp [marks] at hm⟩

theorem Levels.append (hs : Levels n s) (ht : Levels (n.after s) t) : Levels n (s ++ t) := by
  refine ⟨?_, fun m hm => ?_⟩
  · rw [after_append, ht.depth_eq, hs.depth_eq]
  · rw [marks_append] at hm
    rcases List.mem_append.mp hm with hm | hm
    · exact hs.le_depth m hm
    · exact hs.depth_eq ▸ ht.le_depth m hm

/-- Neither a quoted character nor one that is no bracket changes the depth. -/
theorem levels_singleton (h : ¬((n.mark c).quoted = false ∧ isBracket c = true)) :
    Levels n [c] := by
  have hnext : (n.next c).depth = n.depth := by
    unfold mark isBracket at h
    unfold next
    grind
  have hmark : (n.mark c).depth = n.depth := by
    unfold mark isBracket at *
    grind
  refine ⟨hnext, fun m hm => ?_⟩
  rw [marks, marks, List.mem_singleton] at hm
  rw [hm, hmark]

theorem depth_next_opener (h : n.quote = none) (ho : isOpener o = true) :
    (n.next o).depth = n.depth + 1 := by
  simp [next, h, ho, isOpener_excludes ho]

theorem depth_next_closer (h : n.quote = none) (hc : isCloser c = true) :
    (n.next c).depth = n.depth - 1 := by
  simp [next, h, hc, isCloser_excludes hc]

theorem depth_mark_opener (h : n.quote = none) (ho : isOpener o = true) :
    (n.mark o).depth = n.depth := by
  simp [mark, h, isOpener_excludes ho]

theorem depth_mark_closer (h : n.quote = none) (hc : isCloser c = true) :
    (n.mark c).depth = n.depth - 1 := by
  simp [mark, h, hc, isCloser_excludes hc]

theorem Levels.enclosed (ho : isOpener o = true) (hoquoted : (n.mark o).quoted = false)
    (hs : Levels (n.next o) s) (hc : isCloser c = true)
    (hcquoted : (((n.next o).after s).mark c).quoted = false) : Levels n (o :: (s ++ [c])) := by
  have hopener := depth_next_opener (quote_eq_none_of_mark hoquoted) ho
  have hinner : ((n.next o).after s).depth = n.depth + 1 := by rw [hs.depth_eq, hopener]
  have hquote := quote_eq_none_of_mark hcquoted
  refine ⟨?_, fun m hm => ?_⟩
  · rw [after_cons, after_append, after_cons, after_nil, depth_next_closer hquote hc, hinner,
      Nat.add_sub_cancel]
  · rw [marks, marks_append, marks, marks] at hm
    rcases List.mem_cons.mp hm with rfl | hm
    · rw [depth_mark_opener (quote_eq_none_of_mark hoquoted) ho]
    · rcases List.mem_append.mp hm with hm | hm
      · have := hs.le_depth m hm
        omega
      · rw [List.mem_singleton.mp hm, depth_mark_closer hquote hc, hinner, Nat.add_sub_cancel]

theorem levels_of_brackets_eq_nil (h : n.brackets s = []) : Levels n s := by
  induction s generalizing n with
  | nil => exact levels_nil
  | cons c s ih =>
    rw [brackets_cons] at h
    split at h
    · cases h
    · next hc =>
      exact (levels_singleton hc).append (ih h)

/-- A text whose brackets are paired keeps the depth, whatever quote its reader is in. -/
theorem levels_of_paired {word : List Char} (hword : Paired word) (h : n.brackets s = word) :
    Levels n s := by
  induction hword generalizing n s with
  | nil => exact levels_of_brackets_eq_nil h
  | @enclosed o c u v ho hc _ _ ihu ihv =>
    obtain ⟨x, s, rfl, hx, hoquoted, hs⟩ := exists_of_brackets (u := []) h
    obtain ⟨y, t, rfl, hy, hcquoted, ht⟩ := exists_of_brackets hs
    have hpair : Levels (n.after x) (o :: (y ++ [c])) := .enclosed ho hoquoted (ihu hy) hc hcquoted
    have htail : Levels ((n.after x).after (o :: (y ++ [c]))) t := by
      rw [after_cons, after_append]
      exact ihv ht
    have hwhole := ((levels_of_brackets_eq_nil hx).append hpair).append
      (by rw [after_append]; exact htail)
    simpa using hwhole

end Levels

end Nesting

/-- A text that leaves no quote open and pairs its brackets is balanced: it leaves its reader where he
was, whatever the depth at which he started. -/
theorem balanced_of_paired {s : List Char} (hquote : openQuote? s = none)
    (hword : Paired (start.brackets s)) : Balanced s := by
  have hlevels : ∀ d, Levels (atDepth d) s := by
    intro d
    rw [← (alike_start d).brackets_eq] at hword
    exact levels_of_paired hword rfl
  refine ⟨fun d => ?_, fun d => (hlevels d).le_depth⟩
  have hnone : ((atDepth d).after s).quote = none :=
    ((alike_start d).after s).quote_eq.trans hquote
  exact (after_eq_atDepth d hnone).trans (congrArg atDepth (hlevels d).depth_eq)

/-- What is not unbalanced is balanced. -/
theorem balanced_of_unbalanced {s : List Char} (h : unbalanced s = []) : Balanced s := by
  obtain ⟨hquote, hword⟩ := (unbalanced_eq_nil_iff s).mp h
  exact balanced_of_paired hquote hword.paired

/-! ## Offsets of partners -/

namespace Nesting

theorem partnerOffset?_append (n : Nesting) (here : Nat) (a : List Char) (o : Char)
    (r : List Char) :
    partnerOffset? (here + utf8Length a) n here (a ++ o :: r) =
      ((n.after a).cutAtPartner? (o :: r)).map fun (x, _) =>
        here + utf8Length a + o.utf8Size + utf8Length x := by
  induction a generalizing n here with
  | nil => simp [partnerOffset?, utf8Length]
  | cons c a ih =>
    have hc := c.utf8Size_pos
    have hne : (here == here + utf8Length (c :: a)) = false := by
      rw [beq_eq_false_iff_ne, utf8Length]
      omega
    have hshift : here + utf8Length (c :: a) = here + c.utf8Size + utf8Length a := by
      rw [utf8Length, Nat.add_assoc]
    rw [List.cons_append, partnerOffset?, hne, hshift]
    exact ih (n.next c) (here + c.utf8Size)

end Nesting

section Offsets

variable {a r x t s : List Char} {o c : Char}

/-- What is known after an opening bracket that stands outside quotes. -/
theorem exists_next_opener (ho : isOpener o = true)
    (hquoted : ((start.after a).mark o).quoted = false) :
    ∃ d, start.after a = atDepth d ∧ (start.after a).next o = atDepth (d + 1) := by
  have hafter : start.after a = atDepth (start.after a).depth :=
    after_eq_atDepth 0 (quote_eq_none_of_mark hquoted)
  refine ⟨(start.after a).depth, hafter, ?_⟩
  rw [hafter]
  exact next_opener _ ho

/-- The partner of a bracket in front of a balanced text stands behind that text. -/
theorem partnerOffset?_balanced (ho : isOpener o = true)
    (hquoted : ((start.after a).mark o).quoted = false) (hc : isCloser c = true)
    (hx : Balanced x) :
    partnerOffset? (a ++ o :: (x ++ c :: t)) (utf8Length a) =
      some (utf8Length (a ++ o :: x)) := by
  obtain ⟨d, hafter, -⟩ := exists_next_opener ho hquoted
  have hoffset := partnerOffset?_append start 0 a o (x ++ c :: t)
  rw [Nat.zero_add, hafter, cutAtPartner?_atDepth d ho hc hx] at hoffset
  rw [partnerOffset?, hoffset, utf8Length_append, utf8Length, ← Nat.add_assoc]
  rfl

/-- A balanced text has no opening bracket outside quotes in front of a balanced end. -/
theorem not_balanced_opener {y : List Char} {d : Nat} (ho : isOpener o = true)
    (hquoted : (((atDepth d).after y).mark o).quoted = false) (hx : Balanced x) :
    ¬ Balanced (y ++ o :: x) := by
  intro hy
  have hafter := after_eq_atDepth d (quote_eq_none_of_mark hquoted)
  have hle : d ≤ ((atDepth d).after y).depth := by
    have hmark := hy.le_depth d _ (mem_marks_append_cons (atDepth d) y x o)
    rwa [depth_mark_opener (quote_eq_none_of_mark hquoted) ho] at hmark
  have hend : atDepth (((atDepth d).after y).depth + 1) = atDepth d := by
    rw [← hx.after_eq, ← next_opener _ ho, ← hafter, ← after_cons, ← after_append, hy.after_eq]
  have hdepth := congrArg Nesting.depth hend
  simp only [atDepth] at hdepth hle
  omega

/-- Between two brackets outside quotes no quote is left open. -/
theorem openQuote?_between (ho : isOpener o = true)
    (hoquoted : ((start.after a).mark o).quoted = false)
    (hcquoted : ((start.after (a ++ o :: x)).mark c).quoted = false) : openQuote? x = none := by
  obtain ⟨d, -, hnext⟩ := exists_next_opener ho hoquoted
  rw [after_append, after_cons, hnext] at hcquoted
  rw [openQuote?, ← ((alike_start (d + 1)).after x).quote_eq]
  exact quote_eq_none_of_mark hcquoted

/-- Behind an opening bracket outside quotes a text has the brackets that it has alone. -/
theorem brackets_between (ho : isOpener o = true)
    (hquoted : ((start.after a).mark o).quoted = false) :
    ((start.after a).next o).brackets x = start.brackets x := by
  obtain ⟨d, -, hnext⟩ := exists_next_opener ho hquoted
  rw [hnext, (alike_start (d + 1)).brackets_eq]

/-- A bracket and its partner, cut out of a text in which nothing is unbalanced. -/
theorem unbalanced_between (ho : isOpener o = true)
    (hoquoted : ((start.after a).mark o).quoted = false)
    (hcquoted : ((start.after (a ++ o :: x)).mark c).quoted = false)
    (hword : WellNested (((start.after a).next o).brackets x)) : unbalanced x = [] := by
  rw [brackets_between ho hoquoted] at hword
  exact (unbalanced_eq_nil_iff x).mpr ⟨openQuote?_between ho hoquoted hcquoted, hword⟩

variable (h : unbalanced s = [])

include h

/-- Behind an opening bracket of a text in which nothing is unbalanced comes such a text and a
closing bracket of the same kind. -/
theorem exists_partner (hs : s = a ++ o :: r) (ho : isOpener o = true)
    (hquoted : ((start.after a).mark o).quoted = false) :
    ∃ x c t, r = x ++ c :: t ∧ ofCloser? c = ofOpener? o ∧
      ((start.after (a ++ o :: x)).mark c).quoted = false ∧ unbalanced x = [] := by
  have hword := ((unbalanced_eq_nil_iff s).mp h).2
  have hbracket : isBracket o = true := by rw [isBracket, ho, Bool.true_or]
  rw [← brackets_start, hs, brackets_append, brackets_cons, if_pos ⟨hquoted, hbracket⟩] at hword
  obtain ⟨d, hd⟩ : ∃ d, ofOpener? o = some d := by
    rwa [← Option.isSome_iff_exists, isSome_ofOpener?]
  obtain ⟨u, c, v, hr, hc, hu⟩ := hword.exists_closer rfl hd
  obtain ⟨x, t, rfl, rfl, hcquoted, -⟩ := exists_of_brackets hr
  have hplace : ((start.after (a ++ o :: x)).mark c).quoted = false := by
    rwa [after_append, after_cons]
  exact ⟨x, c, t, rfl, hc.trans hd.symm, hplace, unbalanced_between ho hquoted hplace hu⟩

/-- In front of a closing bracket of a text in which nothing is unbalanced comes an opening bracket
and such a text. -/
theorem exists_opening (hs : s = a ++ c :: t) (hc : isCloser c = true)
    (hquoted : ((start.after a).mark c).quoted = false) :
    ∃ b o x, a = b ++ o :: x ∧ isOpener o = true ∧ ((start.after b).mark o).quoted = false ∧
      unbalanced x = [] := by
  have hword := ((unbalanced_eq_nil_iff s).mp h).2
  have hbracket : isBracket c = true := by rw [isBracket, hc, Bool.or_true]
  rw [← brackets_start, hs, brackets_append, brackets_cons, if_pos ⟨hquoted, hbracket⟩] at hword
  obtain ⟨d, hd⟩ : ∃ d, ofCloser? c = some d := by
    rwa [← Option.isSome_iff_exists, isSome_ofCloser?]
  obtain ⟨u, o, w, ha, ho, hw⟩ := hword.exists_opener rfl hd
  obtain ⟨b, x, rfl, -, hoquoted, rfl⟩ := exists_of_brackets ha
  have hopener : isOpener o = true := by rw [← isSome_ofOpener?, ho]; rfl
  exact ⟨b, o, x, rfl, hopener, hoquoted, unbalanced_between hopener hoquoted hquoted hw⟩

omit h in
/-- Of two opening brackets in front of balanced texts none stands in the text of the other. -/
theorem opening_not_inside {b y : List Char} {o' : Char} (ho : isOpener o = true)
    (hquoted : ((start.after b).mark o).quoted = false) (ho' : isOpener o' = true)
    (hquoted' : ((start.after (b ++ o :: y)).mark o').quoted = false) (hx : Balanced x) :
    ¬ Balanced (y ++ o' :: x) := by
  obtain ⟨d, -, hnext⟩ := exists_next_opener ho hquoted
  rw [after_append, after_cons, hnext] at hquoted'
  exact not_balanced_opener ho' hquoted' hx

omit h in
/-- Two opening brackets in front of balanced texts that end at the same place are the same. -/
theorem opening_unique {b b' x' : List Char} {o' : Char} (heq : b ++ o :: x = b' ++ o' :: x')
    (ho : isOpener o = true) (hquoted : ((start.after b).mark o).quoted = false) (hx : Balanced x)
    (ho' : isOpener o' = true) (hquoted' : ((start.after b').mark o').quoted = false)
    (hx' : Balanced x') : b = b' := by
  rcases List.append_eq_append_iff.mp heq with ⟨z, rfl, hz⟩ | ⟨z, rfl, hz⟩
  · cases z with
    | nil => exact (List.append_nil b).symm
    | cons e y =>
      obtain ⟨rfl, rfl⟩ := List.cons.inj hz
      exact absurd hx (opening_not_inside ho hquoted ho' hquoted' hx')
  · cases z with
    | nil => exact List.append_nil b'
    | cons e y =>
      obtain ⟨rfl, rfl⟩ := List.cons.inj hz
      exact absurd hx' (opening_not_inside ho' hquoted' ho hquoted hx)

end Offsets

/-! ## Texts in which nothing is unbalanced -/

/-- A character stands outside quotes at a byte offset of a text. -/
def UnquotedAt (s : List Char) (offset : Nat) (c : Char) : Prop :=
  ∃ a r, s = a ++ c :: r ∧ utf8Length a = offset ∧ ((start.after a).mark c).quoted = false

/-- A text stands between the characters at two byte offsets of another. -/
def Between (s : List Char) (i j : Nat) (x : List Char) : Prop :=
  ∃ a o c t, s = a ++ o :: (x ++ c :: t) ∧ utf8Length a = i ∧ utf8Length (a ++ o :: x) = j

/-- In a text in which nothing is unbalanced every opening bracket outside quotes has a closing
bracket outside quotes and of its kind as its partner, nothing is unbalanced between the two, and
every closing bracket outside quotes is the partner of exactly one opening bracket. -/
theorem partners_of_balanced {s : List Char} (h : unbalanced s = []) :
    (∀ i o, UnquotedAt s i o → isOpener o = true → ∃ j c x, partnerOffset? s i = some j ∧
      UnquotedAt s j c ∧ isCloser c = true ∧ ofCloser? c = ofOpener? o ∧ Between s i j x ∧
        unbalanced x = []) ∧
    ∀ j c, UnquotedAt s j c → isCloser c = true →
      ∃! i, (∃ o, UnquotedAt s i o ∧ isOpener o = true) ∧ partnerOffset? s i = some j := by
  refine ⟨?_, ?_⟩
  · rintro _ o ⟨a, r, hs, rfl, hquoted⟩ ho
    obtain ⟨x, c, t, rfl, hkind, hcquoted, hx⟩ := exists_partner h hs ho hquoted
    have hc : isCloser c = true := by
      rw [← isSome_ofCloser?, hkind, isSome_ofOpener?, ho]
    have hpartner := partnerOffset?_balanced (t := t) ho hquoted hc (balanced_of_unbalanced hx)
    rw [← hs] at hpartner
    exact ⟨_, c, x, hpartner, ⟨a ++ o :: x, t, by simp [hs], rfl, hcquoted⟩, hc, hkind,
      ⟨a, o, c, t, hs, rfl, rfl⟩, hx⟩
  · rintro _ c ⟨a, t, hs, rfl, hquoted⟩ hc
    obtain ⟨b, o, x, rfl, ho, hoquoted, hx⟩ := exists_opening h hs hc hquoted
    have hx := balanced_of_unbalanced hx
    have hb : s = b ++ o :: (x ++ c :: t) := by simp [hs]
    have hpartner := partnerOffset?_balanced (t := t) ho hoquoted hc hx
    rw [← hb] at hpartner
    refine ⟨utf8Length b, ⟨⟨o, ⟨b, _, hb, rfl, hoquoted⟩, ho⟩, hpartner⟩, ?_⟩
    rintro _ ⟨⟨o', ⟨b', r', hb', rfl, hoquoted'⟩, ho'⟩, hpartner'⟩
    -- The partner of the other bracket ends at the same offset, so both have the same text in front.
    obtain ⟨x', c', t', rfl, hkind', -, hx'⟩ := exists_partner h hb' ho' hoquoted'
    have hx' := balanced_of_unbalanced hx'
    have hc' : isCloser c' = true := by
      rw [← isSome_ofCloser?, hkind', isSome_ofOpener?, ho']
    have hend := partnerOffset?_balanced (t := t') ho' hoquoted' hc' hx'
    rw [← hb', hpartner'] at hend
    have hsame : b ++ o :: x = b' ++ o' :: x' := by
      refine append_inj_of_utf8Length (s := c :: t) (t := c' :: t') ?_ (Option.some.inj hend)
      rw [← hs, hb', List.append_assoc, List.cons_append]
    rw [opening_unique hsame ho hoquoted hx ho' hoquoted' hx']

/-- An argument list with a bracket in quotes, which closes nothing. -/
theorem partners_of_balanced_quoted :
    let s := "f(a[')'], \x7b\x7d)é".toList
    unbalanced s = [] ∧ UnquotedAt s 12 ')' ∧
      ∃! i, (∃ o, UnquotedAt s i o ∧ isOpener o = true) ∧ partnerOffset? s i = some 12 := by
  intro s
  have hbalanced : unbalanced s = [] := by decide
  have hcloser : UnquotedAt s 12 ')' := ⟨"f(a[')'], \x7b\x7d".toList, ['é'], by decide⟩
  exact ⟨hbalanced, hcloser, (partners_of_balanced hbalanced).2 12 ')' hcloser rfl⟩

end SchemaLint
